import ShiftMesh.Container.Author
import ShiftMesh.Proofs.Json.Reading
import ShiftMesh.Proofs.Draft

/-!
# ShiftMesh.Proofs.Header — the header of a draft is read back

* `parse_headerText`: the text of the header that a draft declares is read as the header's value with
  its numbers read back.
* `get?_headerRead`: what stands under a key of that value.
* `readShift_eq_ok_iff`: the shift keys are read exactly if the bounds are finite.
* `header_round_trip`: the header of an accepted draft with finite shift bounds declares what the
  draft declares, and the draft's columns pass the schema check with the draft's encoding.
-/

namespace ShiftMesh

open ShiftMesh.Json (Value Fields readBackFields readBackItems Writable Number)

/-! ## Fields read back -/

namespace Json

theorem get?_readBackFields (fields : Fields) (key : String) :
    Fields.get? (readBackFields fields) key = (fields.get? key).map Value.readBack := by
  induction fields with
  | nil => rfl
  | cons f rest ih =>
    obtain ⟨k, v⟩ := f
    rw [readBackFields, Fields.get?, Fields.get?, ih]
    split_ifs <;> rfl

/-- Setting pairs one after the other, the last one of a key counts. -/
theorem get?_foldl_set (pairs : List (String × Value)) (fields : Fields) (key : String) :
    Fields.get? (pairs.foldl (fun fields p => fields.set p.1 p.2) fields) key =
      (Fields.get? pairs.reverse key).or (fields.get? key) := by
  induction pairs generalizing fields with
  | nil => rfl
  | cons p rest ih =>
    obtain ⟨k, v⟩ := p
    have happend : ∀ front : Fields, Fields.get? (front ++ [(k, v)]) key =
        (Fields.get? front key).or (if k = key then some v else none) := by
      intro front
      induction front with
      | nil => rfl
      | cons f front ih =>
        obtain ⟨k', v'⟩ := f
        rw [List.cons_append, Fields.get?, Fields.get?, ih]
        split_ifs <;> rfl
    rw [List.foldl_cons, ih, Fields.get?_set, List.reverse_cons, happend, Option.or_assoc]
    congr 1
    split_ifs <;> rfl

theorem get?_ofList (pairs : List (String × Value)) (key : String) :
    (Fields.ofList pairs).get? key = Fields.get? pairs.reverse key := by
  rw [Fields.ofList, get?_foldl_set]
  exact Option.or_none

/-- Among different keys, a field is found under its key. -/
theorem get?_of_mem {fields : Fields} (hkeys : (fields.map Prod.fst).Nodup) {k : String} {v : Value}
    (h : (k, v) ∈ fields) : fields.get? k = some v := by
  induction fields with
  | nil => exact absurd h List.not_mem_nil
  | cons f rest ih =>
    obtain ⟨k', v'⟩ := f
    obtain ⟨hnew, hrest⟩ := List.nodup_cons.mp hkeys
    rw [Fields.get?]
    rcases List.mem_cons.mp h with heq | hmem
    · cases heq
      rw [if_pos rfl]
    · have hkey : k ∈ rest.map Prod.fst := List.mem_map_of_mem (f := Prod.fst) hmem
      have hne : k' ≠ k := fun heq => hnew (heq ▸ hkey)
      rw [if_neg hne]
      exact ih hrest hmem

theorem get?_of_not_mem {fields : Fields} {k : String} (h : k ∉ fields.map Prod.fst) :
    fields.get? k = none := by
  induction fields with
  | nil => rfl
  | cons f rest ih =>
    obtain ⟨k', v'⟩ := f
    rw [List.map_cons, List.mem_cons, not_or] at h
    rw [Fields.get?, if_neg fun heq => h.1 heq.symm]
    exact ih h.2

/-- Every field that pairs set is one of them. -/
theorem mem_ofList {pairs : List (String × Value)} {f : String × Value}
    (h : f ∈ Fields.ofList pairs) : f ∈ pairs := by
  have hfold : ∀ fields : Fields, f ∈ pairs.foldl (fun fields p => fields.set p.1 p.2) fields →
      f ∈ pairs ∨ f ∈ fields := by
    clear h
    induction pairs with
    | nil => exact fun _ hf => Or.inr hf
    | cons p rest ih =>
      intro fields hf
      rcases ih _ hf with hrest | hset
      · exact Or.inl (List.mem_cons_of_mem _ hrest)
      · exact (Fields.mem_set hset).imp_left fun heq => by
          rw [heq]
          exact List.mem_cons_self
  exact (hfold [] h).resolve_right List.not_mem_nil

end Json

namespace MeshDraft

variable (d : MeshDraft)

/-! ## The text of the header -/

theorem advertisedCount_lt : d.advertisedCount < Nat.pow 2 32 := by
  unfold advertisedCount
  split
  · exact UInt32.toNat_lt _
  · have : 0 < Nat.pow 2 32 := by decide
    omega

theorem inRange_advertisedCount : Number.InRange d.advertisedCount := by
  have h32 : Nat.pow 2 32 ≤ Nat.pow 2 64 := by decide
  have := d.advertisedCount_lt
  constructor <;> omega

theorem writable_doubleValue (n : ℕ) (x : Float) : Writable n (doubleValue x) := by
  rw [doubleValue]
  split_ifs with h
  · exact .number n h
  · exact .null n

theorem writable_headerFields : ∀ f ∈ d.headerFields, Writable 126 f.2 := by
  have hcount : Writable 126 (.number (.whole d.advertisedCount)) :=
    .number _ d.inRange_advertisedCount
  rw [headerFields]
  refine List.forall_mem_append.mpr ⟨List.forall_mem_append.mpr ⟨List.forall_mem_append.mpr
    ⟨?_, ?_⟩, .optionalString _ _ _⟩, .optionalString _ _ _⟩
  · simp only [List.forall_mem_cons, List.not_mem_nil, false_implies, implies_true, and_true]
    exact ⟨.string _ _, .string _ _, .strings _ _, .string _ _, hcount⟩
  · split_ifs
    · simp only [List.forall_mem_cons, List.not_mem_nil, false_implies, implies_true,
        writable_doubleValue, and_self]
    · simp only [List.not_mem_nil, false_implies, implies_true]

/-- The fields of the header with the numbers read back. -/
def headerRead : Fields := readBackFields (Fields.ofList d.headerFields)

/-- The text of the header is read as its fields, whatever the draft holds. -/
theorem parse_headerText : Json.parse d.headerText = .ok (.object d.headerRead) := by
  have hwritable : Writable Json.maxDepth d.headerValue :=
    .object (Fields.ascending_ofList _) fun f hf =>
      d.writable_headerFields f (Json.mem_ofList hf)
  exact hwritable.parse_print

/-! ## What stands under a key -/

theorem nodup_headerFields : (d.headerFields.map Prod.fst).Nodup := by
  cases hi : d.inputCrs <;> cases ho : d.outputCrs <;> cases hh : d.horizontal <;>
    simp [headerFields, hi, ho, hh]

theorem get?_headerRead {key : String} {v : Value} (h : (key, v) ∈ d.headerFields) :
    d.headerRead.get? key = some v.readBack := by
  have hnodup : (d.headerFields.reverse.map Prod.fst).Nodup := by
    rw [List.map_reverse, List.nodup_reverse]
    exact d.nodup_headerFields
  rw [headerRead, Json.get?_readBackFields, Json.get?_ofList,
    Json.get?_of_mem hnodup (List.mem_reverse.mpr h)]
  rfl

theorem get?_headerRead_of_not_mem {key : String} (h : key ∉ d.headerFields.map Prod.fst) :
    d.headerRead.get? key = none := by
  have hreverse : key ∉ d.headerFields.reverse.map Prod.fst := by
    rwa [List.map_reverse, List.mem_reverse]
  rw [headerRead, Json.get?_readBackFields, Json.get?_ofList, Json.get?_of_not_mem hreverse]
  rfl

/-- The texts of the header. -/
theorem text_headerRead {key text : String} (h : (key, Value.string text) ∈ d.headerFields) :
    Header.text d.headerRead key = .ok text ∧
      Header.optionalText d.headerRead key = .ok (some text) := by
  rw [Header.text, Header.optionalText, Header.require, d.get?_headerRead h]
  exact ⟨rfl, rfl⟩

/-- The reference systems of the header. -/
theorem optionalText_headerRead :
    Header.optionalText d.headerRead "input_crs" = .ok d.inputCrs ∧
      Header.optionalText d.headerRead "output_crs" = .ok d.outputCrs := by
  constructor
  · cases hi : d.inputCrs with
    | some crs => exact (d.text_headerRead (by simp [headerFields, hi])).2
    | none =>
      have habsent : "input_crs" ∉ d.headerFields.map Prod.fst := by
        cases ho : d.outputCrs <;> cases hh : d.horizontal <;> simp [headerFields, hi, ho, hh]
      rw [Header.optionalText, d.get?_headerRead_of_not_mem habsent]
  · cases ho : d.outputCrs with
    | some crs => exact (d.text_headerRead (by simp [headerFields, ho])).2
    | none =>
      have habsent : "output_crs" ∉ d.headerFields.map Prod.fst := by
        cases hi : d.inputCrs <;> cases hh : d.horizontal <;> simp [headerFields, hi, ho, hh]
      rw [Header.optionalText, d.get?_headerRead_of_not_mem habsent]

theorem readBackItems_strings (names : List String) :
    readBackItems (names.map .string) = names.map .string := by
  induction names with
  | nil => rfl
  | cons name rest ih =>
    rw [List.map_cons, readBackItems, ih]
    rfl

/-- The components of the header. -/
theorem components_headerRead :
    ∃ names, Header.items d.headerRead "transformed_components" = .ok names ∧
      Header.readComponents {} names = .ok ⟨d.horizontal, d.vertical.isSome⟩ := by
  have hmem : ("transformed_components", Value.array (d.componentNames.map .string)) ∈
      d.headerFields := by simp [headerFields]
  refine ⟨d.componentNames.map .string, ?_, ?_⟩
  · rw [Header.items, Header.require, d.get?_headerRead hmem, Value.readBack, readBackItems_strings]
    rfl
  · rw [componentNames]
    cases d.horizontal <;> cases d.vertical.isSome <;> simp [Header.readComponents, Value.text?]

/-- The fallback strategy of the header. -/
theorem readFallback_headerRead : Header.readFallback d.headerRead = .ok d.fallback := by
  have hmem : ("fallback_strategy", Value.string d.fallback.name) ∈ d.headerFields := by
    simp [headerFields]
  rw [Header.readFallback, (d.text_headerRead hmem).2]
  cases d.fallback <;> simp [FallbackStrategy.name, FallbackStrategy.ofName?, bind, Except.bind]

/-! ## Numbers -/

variable {d}

theorem Accepted.advertisedCount_pos (h : d.Accepted) : 0 < d.advertisedCount := by
  have hlength := List.length_pos_iff.mpr h.vertices_ne_nil
  have h32 : 1 < Nat.pow 2 32 := by decide
  unfold advertisedCount
  split
  case h_1 n hn =>
    refine Nat.pos_of_ne_zero fun hzero => h.count ?_
    have hn0 : n = 0 := UInt32.toNat_inj.mp hzero
    rw [hn, hn0]
  case h_2 => omega

/-- The advertised count of an accepted draft. -/
def Accepted.advertised (h : d.Accepted) : VertexCount :=
  ⟨d.advertisedCount, h.advertisedCount_pos, d.advertisedCount_lt⟩

theorem integer_of_get? {j : Fields} {key : String} {n : Number} {i : Int}
    (hget : j.get? key = some (.number n)) (hint : Header.integer? n = some i) :
    Header.integer j key = .ok i := by
  rw [Header.integer, Header.require, hget]
  change Header.expect key "an integer" (Header.integer? n) = _
  rw [hint]
  rfl

/-- The vertex count of the header is read if there is a fallback. -/
theorem Accepted.readVertexCount_headerRead (h : d.Accepted) :
    Header.readVertexCount d.headerRead d.fallback =
      .ok (if d.fallback = .none then none else some h.advertised) := by
  have hmem : ("num_vertices", Value.number (.whole d.advertisedCount)) ∈ d.headerFields := by
    simp [headerFields]
  have hlt := d.advertisedCount_lt
  have hpos := h.advertisedCount_pos
  have h32 : Nat.pow 2 32 ≤ Nat.pow 2 63 := by decide
  have hinteger : Header.integer d.headerRead "num_vertices" = .ok (d.advertisedCount : Int) := by
    have hrange : -((Nat.pow 2 63 : ℕ) : ℤ) ≤ d.advertisedCount ∧
        (d.advertisedCount : ℤ) < (Nat.pow 2 63 : ℕ) := by
      generalize Nat.pow 2 63 = a at h32 ⊢
      generalize Nat.pow 2 32 = b at h32 hlt
      omega
    have hint : Number.toInt? (.whole d.advertisedCount) = some (d.advertisedCount : Int) := by
      rw [Number.toInt?, if_pos hrange]
    have hread := d.get?_headerRead hmem
    rw [Value.readBack, Number.readBack_whole d.inRange_advertisedCount] at hread
    exact integer_of_get? hread (by rw [Header.integer?, hint])
  have hcount : VertexCount.ofInt? d.advertisedCount = some h.advertised := by
    have hrange : 0 < (d.advertisedCount : ℤ) ∧ (d.advertisedCount : ℤ) < (Nat.pow 2 32 : ℕ) :=
      ⟨by exact_mod_cast hpos, by exact_mod_cast hlt⟩
    rw [VertexCount.ofInt?, dif_pos hrange]
    simp only [Int.toNat_natCast, Accepted.advertised]
  cases hf : d.fallback <;>
    simp [Header.readVertexCount, hinteger, hcount, bind, Except.bind, pure, Except.pure]

/-- A double as the text of its JSON number is read. -/
def readBackDouble (x : Float) : Float := (Number.double x).readBack.toFloat

/-- A finite double of the header is read back; any other is written as null and is no number. -/
theorem number_headerRead {key : String} {x : Float} (h : (key, doubleValue x) ∈ d.headerFields) :
    Header.number d.headerRead key =
      if x.isFinite then .ok (readBackDouble x) else .error (.wrongType key "a number") := by
  rw [Header.number, Header.require, d.get?_headerRead h, doubleValue]
  split_ifs <;> rfl

/-! ## The header -/

/-- The header that an accepted draft declares, with a shift range. -/
def Accepted.header (h : d.Accepted) (shift : ShiftRange Float) : Header where
  horizontal := d.horizontal
  vertical := d.vertical.isSome
  shift
  fallback := d.fallback
  vertexCount := if d.fallback = .none then none else some h.advertised
  inputCrs := d.inputCrs
  outputCrs := d.outputCrs

/-- All that can fail in reading the header of an accepted draft is its shift range. -/
theorem Accepted.parse_headerText (h : d.Accepted) :
    Header.parse d.headerText = (Header.readShift d.headerRead d.horizontal).map h.header := by
  have htype : Header.text d.headerRead "file_type" = .ok Header.fileType :=
    (d.text_headerRead (by simp [headerFields])).1
  have hversion : Header.text d.headerRead "format_version" = .ok formatVersion :=
    (d.text_headerRead (by simp [headerFields])).1
  have hsupported : Header.supportsVersion formatVersion = true := by decide +kernel
  obtain ⟨names, hitems, hcomponents⟩ := d.components_headerRead
  obtain ⟨hinput, houtput⟩ := d.optionalText_headerRead
  rw [Header.parse, MeshDraft.parse_headerText]
  change Header.ofFields? d.headerRead = _
  simp only [Header.ofFields?, htype, hversion, hsupported, hitems, hcomponents, hinput, houtput,
    d.readFallback_headerRead, h.readVertexCount_headerRead, bind, Except.bind, ne_eq, not_true,
    Bool.not_true, Bool.false_eq_true, if_false]
  cases Header.readShift d.headerRead d.horizontal <;> rfl

/-- The shift bounds are finite. -/
def FiniteShift (d : MeshDraft) : Prop :=
  (d.shiftRange.min.x.isFinite = true ∧ d.shiftRange.min.y.isFinite = true) ∧
    d.shiftRange.max.x.isFinite = true ∧ d.shiftRange.max.y.isFinite = true

/-- A point with its coordinates read back. -/
def readBackPoint (p : Point Float) : Point Float := ⟨readBackDouble p.x, readBackDouble p.y⟩

/-- The four shift keys of a horizontal mesh are read if the bounds are finite. -/
theorem readShift_of_finite (hh : d.horizontal = true) (hfinite : d.FiniteShift) :
    Header.readShift d.headerRead d.horizontal =
      .ok ⟨readBackPoint d.shiftRange.min, readBackPoint d.shiftRange.max⟩ := by
  obtain ⟨⟨hx, hy⟩, hx', hy'⟩ := hfinite
  have hread : ∀ {key x}, (key, doubleValue x) ∈ d.headerFields → x.isFinite = true →
      Header.number d.headerRead key = .ok (readBackDouble x) := by
    intro key x hmem hfinite
    rw [number_headerRead hmem, if_pos hfinite]
  have hminx := hread (by simp [headerFields, hh] : ("min_shift_x", _) ∈ d.headerFields) hx
  have hminy := hread (by simp [headerFields, hh] : ("min_shift_y", _) ∈ d.headerFields) hy
  have hmaxx := hread (by simp [headerFields, hh] : ("max_shift_x", _) ∈ d.headerFields) hx'
  have hmaxy := hread (by simp [headerFields, hh] : ("max_shift_y", _) ∈ d.headerFields) hy'
  rw [Header.readShift, if_pos hh, hminx, hminy, hmaxx, hmaxy]
  rfl

theorem readShift_of_not_horizontal (hh : d.horizontal = false) :
    Header.readShift d.headerRead d.horizontal = .ok .none := by
  rw [Header.readShift, hh]
  rfl

/-- A number of the header that is read is finite. -/
theorem isFinite_of_number {key : String} {x y : Float} (hmem : (key, doubleValue x) ∈ d.headerFields)
    (h : Header.number d.headerRead key = .ok y) : x.isFinite = true := by
  rw [number_headerRead hmem] at h
  split_ifs at h with hfinite
  exact hfinite

/-- The four shift keys are read exactly if the bounds are finite. -/
theorem readShift_eq_ok_iff : (∃ shift, Header.readShift d.headerRead d.horizontal = .ok shift) ↔
    (d.horizontal = true → d.FiniteShift) := by
  refine ⟨fun ⟨shift, hshift⟩ hh => ?_, fun h => ?_⟩
  · rw [Header.readShift, if_pos hh] at hshift
    obtain ⟨_, hminx, hshift⟩ := bind_eq_ok hshift
    obtain ⟨_, hminy, hshift⟩ := bind_eq_ok hshift
    obtain ⟨_, hmaxx, hshift⟩ := bind_eq_ok hshift
    obtain ⟨_, hmaxy, -⟩ := bind_eq_ok hshift
    exact ⟨⟨isFinite_of_number (by simp [headerFields, hh]) hminx,
      isFinite_of_number (by simp [headerFields, hh]) hminy⟩,
      isFinite_of_number (by simp [headerFields, hh]) hmaxx,
      isFinite_of_number (by simp [headerFields, hh]) hmaxy⟩
  · cases hh : d.horizontal with
    | false => exact ⟨_, hh ▸ readShift_of_not_horizontal hh⟩
    | true => exact ⟨_, hh ▸ readShift_of_finite hh (h hh)⟩

/-- The header of an accepted draft whose shift bounds are finite is read. -/
theorem Accepted.exists_parse_headerText (h : d.Accepted)
    (hfinite : d.horizontal = true → d.FiniteShift) :
    ∃ shift, Header.parse d.headerText = .ok (h.header shift) := by
  obtain ⟨shift, hshift⟩ := readShift_eq_ok_iff.mpr hfinite
  exact ⟨shift, by rw [h.parse_headerText, hshift, Except.map]⟩

end MeshDraft

/-! ## The round trip -/

/-- A double whose JSON number is read as another double. -/
def Rereads (x y : Float) : Prop :=
  Json.parse (Json.print (.number (.double x))) = .ok (.number (.double y))

theorem rereads_readBackDouble {x : Float} (h : x.isFinite = true) :
    Rereads x (MeshDraft.readBackDouble x) := by
  have hwritable : Writable Json.maxDepth (.number (.double x)) := .number _ h
  obtain ⟨y, hy⟩ := Number.readBack_double h
  rw [Rereads, hwritable.parse_print, Value.readBack, MeshDraft.readBackDouble, hy]
  rfl

/-- The columns of the declared components meet a header with these components, and give the
encoding back. -/
theorem validate_valueColumns {h : Header} {vertical : Option VerticalEncoding}
    (hvertical : h.vertical = vertical.isSome) :
    (VertexSchema.ofColumns (valueColumns h.horizontal vertical)).validate h = .ok vertical := by
  rw [VertexSchema.validate, hvertical]
  cases h.horizontal <;> rcases vertical with _ | (_ | _) <;> rfl

/-- The header of an accepted draft whose shift bounds are finite declares what the draft declares,
and the draft's columns give its encoding back. -/
theorem header_round_trip (d : MeshDraft) (hvalid : d.validate = .ok ())
    (hfinite : d.horizontal = true → d.FiniteShift) :
    ∃ h, Header.parse d.headerText = .ok h ∧ h.horizontal = d.horizontal ∧
      h.vertical = d.vertical.isSome ∧ h.fallback = d.fallback ∧
      h.vertexCount.map VertexCount.val =
        (if d.fallback = .none then none
          else some ((d.vertexCount.map UInt32.toNat).getD
            (min d.vertices.length (Nat.pow 2 32 - 1)))) ∧
      h.inputCrs = d.inputCrs ∧ h.outputCrs = d.outputCrs ∧
      (d.horizontal = true →
        (Rereads d.shiftRange.min.x h.shift.min.x ∧ Rereads d.shiftRange.min.y h.shift.min.y) ∧
          Rereads d.shiftRange.max.x h.shift.max.x ∧ Rereads d.shiftRange.max.y h.shift.max.y) ∧
      (d.horizontal = false → h.shift = .none) ∧
      (VertexSchema.ofColumns d.columns).validate h = .ok d.vertical := by
  have hd : d.Accepted := MeshDraft.validate_eq_ok.mp hvalid
  have hcount : ∀ shift, (hd.header shift).vertexCount.map VertexCount.val =
      if d.fallback = .none then none
      else some ((d.vertexCount.map UInt32.toNat).getD
        (min d.vertices.length (Nat.pow 2 32 - 1))) := by
    intro shift
    have hadvertised : d.advertisedCount = (d.vertexCount.map UInt32.toNat).getD
        (min d.vertices.length (Nat.pow 2 32 - 1)) := by
      rw [MeshDraft.advertisedCount]
      cases d.vertexCount <;> rfl
    rw [← hadvertised, MeshDraft.Accepted.header]
    split_ifs <;> rfl
  have hschema : ∀ shift, (VertexSchema.ofColumns d.columns).validate (hd.header shift) =
      .ok d.vertical := fun shift => validate_valueColumns (h := hd.header shift) rfl
  have hparse := hd.parse_headerText
  cases hh : d.horizontal with
  | true =>
    have hshift := hfinite hh
    rw [MeshDraft.readShift_of_finite hh hshift] at hparse
    obtain ⟨⟨hx, hy⟩, hx', hy'⟩ := hshift
    exact ⟨_, hparse, hh, rfl, rfl, hcount _, rfl, rfl,
      fun _ => ⟨⟨rereads_readBackDouble hx, rereads_readBackDouble hy⟩,
        rereads_readBackDouble hx', rereads_readBackDouble hy'⟩,
      nofun, hschema _⟩
  | false =>
    rw [MeshDraft.readShift_of_not_horizontal hh] at hparse
    exact ⟨_, hparse, hh, rfl, rfl, hcount _, rfl, rfl, nofun, fun _ => rfl, hschema _⟩

/-- A mesh with both components whose reference system has a quote in its name. -/
def quotedDraft : MeshDraft where
  vertices :=
    [⟨⟨0, 0⟩, some ⟨1, 2⟩, some 10, some 11, none⟩,
      ⟨⟨0x3FF0000000000000, 0⟩, some ⟨2.5, 2⟩, some 10, some 12, none⟩,
      ⟨⟨0, 0x3FF0000000000000⟩, some ⟨1.125, 3⟩, some 10, some 13, none⟩]
  triangles := [⟨0, 1, 2⟩]
  horizontal := true
  vertical := some .paired
  fallback := .nearestSide
  inputCrs := some "a \"local\" grid\n"

theorem quotedDraft_finiteShift : quotedDraft.FiniteShift := by
  unfold MeshDraft.FiniteShift
  decide +kernel

theorem header_round_trip_quoted :
    quotedDraft.validate = .ok () ∧ quotedDraft.FiniteShift ∧
      ∃ h, Header.parse quotedDraft.headerText = .ok h ∧ h.horizontal = true ∧
        h.vertexCount.map VertexCount.val = some 3 ∧ h.inputCrs = some "a \"local\" grid\n" ∧
        h.outputCrs = none ∧
        (VertexSchema.ofColumns quotedDraft.columns).validate h = .ok (some .paired) := by
  have hvalid : quotedDraft.validate = .ok () := by decide +kernel
  obtain ⟨h, hparse, hhorizontal, -, -, hcount, hinput, houtput, -, -, hschema⟩ :=
    header_round_trip quotedDraft hvalid fun _ => quotedDraft_finiteShift
  exact ⟨hvalid, quotedDraft_finiteShift, h, hparse, hhorizontal, hcount, hinput, houtput, hschema⟩

end ShiftMesh
