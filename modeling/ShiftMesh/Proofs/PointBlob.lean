import ShiftMesh.PointBlob

/-!
# ShiftMesh.Proofs.PointBlob — a stored point is read back, and what was read is stored back

* `ByteOrder.value_bytes`: the bytes of a word stand for the word, in either byte order;
  `ByteOrder.bytes_value`: the word that bytes stand for has these bytes.
* `decodeWords_encodeWords`: reading what was stored gives the two words of the point.
* `decode_of_length_ne`, `exists_decode_of_length`: only the length decides whether bytes can be read.
* `drop_encodeWords_of_decodeWords`: storing what was read gives the bytes behind the heading again.
* `encodeWords_injective`: different points, reference systems or byte orders are stored differently.
* `point_codec_exact`: both directions together, and the three corners of a triangle.
-/

namespace ShiftMesh

namespace ByteOrder

theorem length_ascending (width n : Nat) : (ascending width n).length = width := by
  induction width generalizing n with
  | zero => rfl
  | succ width ih => rw [ascending, List.length_cons, ih]

theorem length_bytes (order : ByteOrder) (width n : Nat) : (order.bytes width n).length = width := by
  cases order with
  | little => exact length_ascending width n
  | big => rw [bytes, List.length_reverse, length_ascending]

/-- The lowest bytes of a number keep what of it is below the next power. -/
theorem valueAscending_ascending (width n : Nat) :
    valueAscending (ascending width n) = n % Nat.pow 256 width := by
  induction width generalizing n with
  | zero => exact (Nat.mod_one n).symm
  | succ width ih =>
    have hbyte : (UInt8.ofNat n).toNat = n % 256 := UInt8.toNat_ofNat'
    have hpow : Nat.pow 256 (width + 1) = 256 * Nat.pow 256 width := Nat.mul_comm _ _
    rw [ascending, valueAscending, ih, hbyte, hpow, Nat.mod_mul]

theorem value_bytes (order : ByteOrder) (width n : Nat) :
    order.value (order.bytes width n) = n % Nat.pow 256 width := by
  cases order with
  | little => exact valueAscending_ascending width n
  | big => rw [bytes, value, List.reverse_reverse, valueAscending_ascending]

theorem ascending_valueAscending (blob : Blob) :
    ascending blob.length (valueAscending blob) = blob := by
  induction blob with
  | nil => rfl
  | cons b rest ih =>
    have hbyte : UInt8.ofNat (b.toNat + 256 * valueAscending rest) = b := by
      apply UInt8.toNat_inj.mp
      rw [UInt8.toNat_ofNat', Nat.add_mul_mod_self_left, Nat.mod_eq_of_lt b.toNat_lt]
    have hrest : (b.toNat + 256 * valueAscending rest) / 256 = valueAscending rest := by
      have := b.toNat_lt
      omega
    rw [List.length_cons, valueAscending, ascending, hbyte, hrest, ih]

theorem valueAscending_lt (blob : Blob) : valueAscending blob < Nat.pow 256 blob.length := by
  have h := valueAscending_ascending blob.length (valueAscending blob)
  rw [ascending_valueAscending] at h
  rw [h]
  exact Nat.mod_lt _ (Nat.pow_pos (by decide))

/-- The number that bytes stand for has these bytes. -/
theorem bytes_value (order : ByteOrder) (word : Blob) :
    order.bytes word.length (order.value word) = word := by
  cases order with
  | little => exact ascending_valueAscending word
  | big =>
    have h := ascending_valueAscending word.reverse
    rw [List.length_reverse] at h
    rw [bytes, value, h, List.reverse_reverse]

theorem value_lt (order : ByteOrder) (word : Blob) : order.value word < Nat.pow 256 word.length := by
  cases order with
  | little => exact valueAscending_lt word
  | big =>
    have h := valueAscending_lt word.reverse
    rwa [List.length_reverse] at h

/-- Eight bytes are those of the double word that they stand for. -/
theorem bytes_ofNat_value (order : ByteOrder) {word : Blob} (h : word.length = 8) :
    order.bytes 8 (UInt64.ofNat (order.value word)).toNat = word := by
  have hlt := order.value_lt word
  rw [h] at hlt
  rw [UInt64.toNat_ofNat_of_lt' hlt, ← h, bytes_value]

theorem flag_injective {order order' : ByteOrder} (h : order.flag = order'.flag) : order = order' := by
  cases order <;> cases order' <;> first | rfl | cases h

/-- Eight bytes keep a double word. -/
theorem ofNat_value_bytes (order : ByteOrder) (word : UInt64) :
    UInt64.ofNat (order.value (order.bytes 8 word.toNat)) = word := by
  have hlt : word.toNat < Nat.pow 256 8 := word.toNat_lt
  rw [value_bytes, Nat.mod_eq_of_lt hlt, UInt64.ofNat_toNat]

end ByteOrder

namespace PointBlob

variable (order : ByteOrder) (srsId : Int32) (p : Point UInt64)

theorem length_heading : (heading order srsId).length = prefixLength := by
  simp only [heading, List.length_append, ByteOrder.length_bytes]
  rfl

theorem length_encodeWords : (encodeWords order srsId p).length = length := by
  simp only [encodeWords, List.length_append, length_heading, ByteOrder.length_bytes]
  rfl

theorem take_encodeWords : (encodeWords order srsId p).take prefixLength = heading order srsId := by
  rw [encodeWords, List.append_assoc, List.take_left' (length_heading order srsId)]

theorem drop_encodeWords : (encodeWords order srsId p).drop prefixLength =
    order.bytes 8 p.x.toNat ++ order.bytes 8 p.y.toNat := by
  rw [encodeWords, List.append_assoc, List.drop_left' (length_heading order srsId)]

/-- Reading what was stored gives the words of the point. -/
theorem decodeWords_encodeWords : decodeWords order (encodeWords order srsId p) = .ok p := by
  have hfirst : ((encodeWords order srsId p).drop prefixLength).take 8 = order.bytes 8 p.x.toNat := by
    rw [drop_encodeWords, List.take_left' (ByteOrder.length_bytes order 8 _)]
  have hsecond : (encodeWords order srsId p).drop (prefixLength + 8) = order.bytes 8 p.y.toNat := by
    rw [← List.drop_drop, drop_encodeWords, List.drop_left' (ByteOrder.length_bytes order 8 _)]
  rw [decodeWords, if_pos (length_encodeWords order srsId p), hfirst, hsecond,
    ByteOrder.ofNat_value_bytes, ByteOrder.ofNat_value_bytes]

theorem decode_encodeWords : decode order (encodeWords order srsId p) = .ok (.ofWords p) := by
  rw [decode, decodeWords_encodeWords]
  rfl

/-- Bytes of any other length are refused with their length. -/
theorem decode_of_length_ne {blob : Blob} (h : blob.length ≠ length) :
    decode order blob = .error ⟨length, blob.length⟩ := by
  rw [decode, decodeWords, if_neg h]
  rfl

theorem exists_decode_of_length {blob : Blob} (h : blob.length = length) :
    ∃ q, decode order blob = .ok q := by
  rw [decode, decodeWords, if_pos h]
  exact ⟨_, rfl⟩

/-! ## Storing what was read -/

variable {order p}

theorem exists_decodeWords_iff {blob : Blob} :
    (∃ p, decodeWords order blob = .ok p) ↔ blob.length = length := by
  by_cases h : blob.length = length
  · rw [decodeWords, if_pos h]
    exact ⟨fun _ => h, fun _ => ⟨_, rfl⟩⟩
  · rw [decodeWords, if_neg h]
    exact ⟨fun ⟨_, hp⟩ => (nomatch hp), fun heq => absurd heq h⟩

/-- Bytes that differ only before the coordinates are read alike. -/
theorem decodeWords_append {a b : Blob} (body : Blob) (ha : a.length = prefixLength)
    (hb : b.length = prefixLength) : decodeWords order (a ++ body) = decodeWords order (b ++ body) := by
  have hlength : (a ++ body).length = (b ++ body).length := by
    rw [List.length_append, List.length_append, ha, hb]
  have hdrop : ∀ {c : Blob}, c.length = prefixLength →
      (c ++ body).drop prefixLength = body ∧ (c ++ body).drop (prefixLength + 8) = body.drop 8 := by
    intro c hc
    rw [← List.drop_drop, List.drop_left' hc]
    exact ⟨rfl, rfl⟩
  obtain ⟨hafter, hlast⟩ := hdrop ha
  obtain ⟨hafter', hlast'⟩ := hdrop hb
  rw [decodeWords, decodeWords, hlength, hafter, hlast, hafter', hlast']

/-- The words that were read are stored as the bytes behind the heading. -/
theorem drop_encodeWords_of_decodeWords {blob : Blob} (h : decodeWords order blob = .ok p) :
    (encodeWords order srsId p).drop prefixLength = blob.drop prefixLength := by
  have hlength : blob.length = length := exists_decodeWords_iff.mp ⟨p, h⟩
  rw [decodeWords, if_pos hlength] at h
  injection h with h
  have hfirst : ((blob.drop prefixLength).take 8).length = 8 := by
    rw [List.length_take, List.length_drop, hlength]
    rfl
  have hsecond : (blob.drop (prefixLength + 8)).length = 8 := by
    rw [List.length_drop, hlength]
    rfl
  rw [drop_encodeWords, ← h]
  simp only [ByteOrder.bytes_ofNat_value order hfirst, ByteOrder.bytes_ofNat_value order hsecond]
  rw [← List.drop_drop, List.take_append_drop]

/-- The bytes are stored as they were exactly if they began with the heading of the reference system. -/
theorem encodeWords_eq_iff {blob : Blob} (h : decodeWords order blob = .ok p) :
    encodeWords order srsId p = blob ↔ blob.take prefixLength = heading order srsId := by
  constructor
  · intro heq
    rw [← heq, take_encodeWords]
  · intro htake
    rw [← List.take_append_drop prefixLength (encodeWords order srsId p),
      drop_encodeWords_of_decodeWords srsId h, take_encodeWords, ← htake, List.take_append_drop]

/-! ## What the stored bytes tell -/

/-- The fourth and the ninth byte announce the byte order. -/
theorem getElem?_encodeWords (order : ByteOrder) (p : Point UInt64) :
    (encodeWords order srsId p)[3]? = some order.flag ∧
      (encodeWords order srsId p)[8]? = some order.flag := by
  cases order <;> exact ⟨rfl, rfl⟩

variable {srsId}

theorem heading_injective {srsId' : Int32} (h : heading order srsId = heading order srsId') :
    srsId = srsId' := by
  have hbytes : ∀ srsId, ((heading order srsId).drop 4).take 4 = order.bytes 4 srsId.toUInt32.toNat := by
    intro srsId
    rw [heading, List.append_assoc, List.append_assoc]
    exact List.take_left' (ByteOrder.length_bytes order 4 _)
  have hvalue : ∀ srsId, order.value (((heading order srsId).drop 4).take 4) = srsId.toUInt32.toNat := by
    intro srsId
    have hlt : srsId.toUInt32.toNat < Nat.pow 256 4 := srsId.toUInt32.toNat_lt
    rw [hbytes, ByteOrder.value_bytes, Nat.mod_eq_of_lt hlt]
  have hword : srsId.toUInt32.toNat = srsId'.toUInt32.toNat := by rw [← hvalue, ← hvalue, h]
  exact Int32.toBitVec.inj (congrArg UInt32.toBitVec (UInt32.toNat_inj.mp hword))

theorem encodeWords_injective {order' : ByteOrder} {srsId' : Int32} {p' : Point UInt64}
    (h : encodeWords order srsId p = encodeWords order' srsId' p') :
    order = order' ∧ srsId = srsId' ∧ p = p' := by
  have hflag := (getElem?_encodeWords srsId order p).1
  rw [h, (getElem?_encodeWords srsId' order' p').1, Option.some_inj] at hflag
  obtain rfl := ByteOrder.flag_injective hflag
  have hheading := take_encodeWords order' srsId p
  rw [h, take_encodeWords] at hheading
  have hread := decodeWords_encodeWords order' srsId p
  rw [h, decodeWords_encodeWords] at hread
  injection hread with hread
  exact ⟨rfl, (heading_injective hheading).symm, hread.symm⟩

/-! ## The corners of a triangle -/

/-- The first length among three blobs that is not that of a point. -/
def wrongLength? (blobs : Corners Blob) : Option Nat :=
  (blobs.toList.map List.length).find? (· != length)

/-- The corners are read one by one, up to the first wrong length. -/
theorem decodeTriangle_cases (blobs : Corners Blob) :
    (∃ n, wrongLength? blobs = some n ∧ decodeTriangle blobs = .error ⟨length, n⟩) ∨
      wrongLength? blobs = none ∧ ∃ t, decodeTriangle blobs = .ok t := by
  obtain ⟨a, b, c⟩ := blobs
  by_cases ha : a.length = length
  · obtain ⟨pa, hpa⟩ := exists_decode_of_length stored ha
    by_cases hb : b.length = length
    · obtain ⟨pb, hpb⟩ := exists_decode_of_length stored hb
      by_cases hc : c.length = length
      · obtain ⟨pc, hpc⟩ := exists_decode_of_length stored hc
        refine Or.inr ⟨?_, ⟨pa, pb, pc⟩, ?_⟩
        · simp [wrongLength?, Corners.toList, ha, hb, hc]
        · simp only [decodeTriangle, Corners.mapM?, hpa, hpb, hpc]
      · refine Or.inl ⟨c.length, ?_, ?_⟩
        · simp [wrongLength?, Corners.toList, ha, hb, hc]
        · simp only [decodeTriangle, Corners.mapM?, hpa, hpb, decode_of_length_ne _ hc]
    · refine Or.inl ⟨b.length, ?_, ?_⟩
      · simp [wrongLength?, Corners.toList, ha, hb]
      · simp only [decodeTriangle, Corners.mapM?, hpa, decode_of_length_ne _ hb]
  · refine Or.inl ⟨a.length, ?_, ?_⟩
    · simp [wrongLength?, Corners.toList, ha]
    · simp only [decodeTriangle, Corners.mapM?, decode_of_length_ne _ ha]

theorem exists_decodeTriangle_iff {blobs : Corners Blob} :
    (∃ t, decodeTriangle blobs = .ok t) ↔ ∀ blob ∈ blobs.toList, blob.length = length := by
  have hnone : wrongLength? blobs = none ↔ ∀ blob ∈ blobs.toList, blob.length = length := by
    rw [wrongLength?, List.find?_eq_none]
    simp
  rw [← hnone]
  rcases decodeTriangle_cases blobs with ⟨n, hn, he⟩ | ⟨hn, t, ht⟩
  · rw [hn, he]
    exact ⟨fun ⟨_, ht⟩ => (nomatch ht), fun h => (nomatch h)⟩
  · exact ⟨fun _ => hn, fun _ => ⟨t, ht⟩⟩

theorem decodeTriangle_of_wrongLength? {blobs : Corners Blob} {n : Nat}
    (h : wrongLength? blobs = some n) : decodeTriangle blobs = .error ⟨length, n⟩ := by
  rcases decodeTriangle_cases blobs with ⟨m, hm, he⟩ | ⟨hn, -⟩
  · rw [h] at hm
    injection hm with hm
    rw [he, hm]
  · rw [h] at hn
    cases hn

/-! ## The codec -/

/-- What storing and reading points promise in one byte order. -/
structure Exact (order : ByteOrder) : Prop where
  /-- Any two words are stored in 29 bytes, and come back as they were. -/
  length : ∀ srsId p, (encodeWords order srsId p).length = 29
  roundTrip : ∀ srsId p, decodeWords order (encodeWords order srsId p) = .ok p
  /-- Bytes can be read exactly if there are 29 of them; otherwise the error tells how many there are. -/
  accepts : ∀ blob, (∃ p, decodeWords order blob = .ok p) ↔ blob.length = 29
  refuses : ∀ blob, blob.length ≠ 29 → decodeWords order blob = .error ⟨29, blob.length⟩
  /-- The first 13 bytes do not matter. -/
  ignores : ∀ a b body, a.length = 13 → b.length = 13 →
    decodeWords order (a ++ body) = decodeWords order (b ++ body)
  /-- What was read is stored as the bytes from the fourteenth on, whatever the reference system. -/
  restores : ∀ blob p, decodeWords order blob = .ok p →
    ∀ srsId, (encodeWords order srsId p).drop 13 = blob.drop 13
  /-- It is stored as all the bytes exactly if they begin with the heading of a reference system. -/
  reproduces : ∀ blob p, decodeWords order blob = .ok p →
    ((∃ srsId, encodeWords order srsId p = blob) ↔ ∃ srsId, blob.take 13 = heading order srsId)
  /-- The fourth and the ninth byte tell the byte order. -/
  announces : ∀ srsId p, (encodeWords order srsId p)[3]? = some order.flag ∧
    (encodeWords order srsId p)[8]? = some order.flag

/-- **Storing and reading points are exact.**  In either byte order, reading undoes storing for all words,
and storing undoes reading for all bytes of the right length, as far as these are read; the byte order can
be told from the stored bytes, and different points, reference systems or byte orders are stored
differently.  Three corners are read exactly if each has the right length, and otherwise the error tells
the first length that is wrong. -/
theorem point_codec_exact :
    (∀ order, Exact order) ∧
    (∀ order order' : ByteOrder, order.flag = order'.flag → order = order') ∧
    (∀ order order' srsId srsId' p p', encodeWords order srsId p = encodeWords order' srsId' p' →
      order = order' ∧ srsId = srsId' ∧ p = p') ∧
    (∀ blobs : Corners Blob, (∃ t, decodeTriangle blobs = .ok t) ↔
      ∀ blob ∈ blobs.toList, blob.length = 29) ∧
    ∀ (blobs : Corners Blob) n, (blobs.toList.map List.length).find? (· != 29) = some n →
      decodeTriangle blobs = .error ⟨29, n⟩ := by
  refine ⟨fun order => ?_, fun _ _ => ByteOrder.flag_injective, fun _ _ _ _ _ _ => encodeWords_injective,
    fun _ => exists_decodeTriangle_iff, fun _ _ => decodeTriangle_of_wrongLength?⟩
  exact
    { length := length_encodeWords order
      roundTrip := decodeWords_encodeWords order
      accepts := fun _ => exists_decodeWords_iff
      refuses := fun _ h => if_neg h
      ignores := fun _ _ body => decodeWords_append body
      restores := fun _ _ h srsId => drop_encodeWords_of_decodeWords srsId h
      reproduces := fun _ _ h => exists_congr fun srsId => encodeWords_eq_iff srsId h
      announces := fun srsId p => getElem?_encodeWords srsId order p }

/-- A negative zero and a value that is no number, in the order that containers do not use. -/
example : encodeWords .big (-2) ⟨0x8000000000000000, 0x7FF8000000000001⟩ =
    [0x47, 0x50, 0, 0, 0xFF, 0xFF, 0xFF, 0xFE, 0, 0, 0, 0, 1,
      0x80, 0, 0, 0, 0, 0, 0, 0, 0x7F, 0xF8, 0, 0, 0, 0, 0, 1] := by
  decide +kernel

end PointBlob

end ShiftMesh
