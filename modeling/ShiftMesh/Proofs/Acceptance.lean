import ShiftMesh.Proofs.Checks
import ShiftMesh.Proofs.Conversion
import ShiftMesh.Proofs.Json.Integer

/-!
# ShiftMesh.Proofs.Acceptance — which JSON values are headers

* `Clause`: a condition on the value under one key of a header; `Clause.order` lists the conditions in
  the order in which they are checked, `Clause.Met` is what each asks for, and `Clause.fault` the fault of
  the value that does not meet it.
* `ofFields?_error`: the reader fails with the fault of the first unmet clause; `DeclaredBy.met`: if it
  succeeds, all of them are met.
* `Describes`: what the header of an object says of the object.
* `header_exact`: a value is a header exactly if it is an object that meets every clause.
-/

namespace ShiftMesh

open ShiftMesh.Json (Value Fields Number)

namespace Header

/-! ## Clauses -/

/-- A condition on the value under one key of a header. -/
inductive Clause where
  | fileType
  | version
  | components
  /-- One of the bounds of the shift range. -/
  | shift (key : String)
  | fallback
  | vertexCount
  /-- One of the two reference systems. -/
  | crs (key : String)

/-- An item of the array of components that names one. -/
def isComponent : Value → Bool
  | .string name => name = "horizontal" || name = "vertical"
  | _ => false

/-- The fault of an item that names no component. -/
def itemFault : Value → MetadataFault
  | .string name => .unhandledComponent name
  | _ => .componentNotAString

/-- The array of components has an item of this name. -/
def Names (j : Fields) (component : String) : Prop :=
  ∃ items, j.get? "transformed_components" = some (.array items) ∧ Value.string component ∈ items

/-- The fields name a strategy other than none. -/
def HasFallback (j : Fields) : Prop :=
  ∃ name ∈ ["nearest_side", "nearest_centroid"], j.get? "fallback_strategy" = some (.string name)

namespace Clause

/-- The clauses as they are checked. -/
def order : List Clause :=
  [fileType, version, components, shift "min_shift_x", shift "min_shift_y", shift "max_shift_x",
    shift "max_shift_y", fallback, vertexCount, crs "input_crs", crs "output_crs"]

/-- The key that a clause is about. -/
def key : Clause → String
  | fileType => "file_type"
  | version => "format_version"
  | components => "transformed_components"
  | shift key => key
  | fallback => "fallback_strategy"
  | vertexCount => "num_vertices"
  | crs key => key

/-- The kind of value that a clause asks for. -/
def kind : Clause → String
  | components => "an array"
  | shift _ => "a number"
  | vertexCount => "an integer"
  | _ => "a string"

/-- What a clause asks of the fields of an object. -/
def Met (j : Fields) : Clause → Prop
  | fileType => j.get? "file_type" = some (.string "triangulation_file")
  | version => ∃ s, j.get? "format_version" = some (.string s) ∧ "1.".toList <+: s.toList
  | components => ∃ items, j.get? "transformed_components" = some (.array items) ∧
      ∀ v ∈ items, v = .string "horizontal" ∨ v = .string "vertical"
  | shift key => Names j "horizontal" → ∃ n, j.get? key = some (.number n)
  | fallback => j.get? "fallback_strategy" = none ∨
      ∃ name ∈ ["none", "nearest_side", "nearest_centroid"],
        j.get? "fallback_strategy" = some (.string name)
  | vertexCount => HasFallback j → ∃ n k, j.get? "num_vertices" = some (.number n) ∧
      n.Equals k ∧ 1 ≤ k ∧ k ≤ 2 ^ 32 - 1
  | crs key => j.get? key = none ∨ ∃ s, j.get? key = some (.string s)

/-- The fault of a value of the right kind that does not meet the clause; nothing if the value is of
another kind. -/
def objection? : Clause → Value → Option MetadataFault
  | fileType, .string _ => some .wrongFileType
  | version, .string s => some (.unsupportedVersion s)
  | components, .array items => (items.find? fun v => !isComponent v).map itemFault
  | fallback, .string _ => some .unknownFallback
  | vertexCount, .number n => if n.IsInteger then some .invalidVertexCount else none
  | _, _ => none

/-- The fault of an object that does not meet the clause. -/
def fault (j : Fields) (c : Clause) : MetadataFault :=
  match j.get? c.key with
  | none => .missingKey c.key
  | some v => (c.objection? v).getD (.wrongType c.key c.kind)

end Clause

variable {j : Fields} {e : MetadataFault}

/-! ## Values of one key -/

section Reading

variable {τ : Type} {f : Value → Option τ} {key kind : String} {a : τ}

theorem read_eq_ok (h : (require j key >>= fun v => expect key kind (f v)) = .ok a) :
    ∃ v, j.get? key = some v ∧ f v = some a := by
  obtain ⟨v, hv, h⟩ := bind_eq_ok h
  refine ⟨v, ?_, ?_⟩
  · unfold require at hv
    split at hv
    · cases hv
    · rename_i hget
      cases hv
      exact hget
  · unfold expect at h
    split at h
    · cases h
    · rename_i hf
      cases h
      exact hf

variable {c : Clause}

theorem Clause.fault_of_absent (h : j.get? c.key = none) : c.fault j = .missingKey c.key := by
  rw [Clause.fault, h]

theorem Clause.fault_of_value {v : Value} (h : j.get? c.key = some v) :
    c.fault j = (c.objection? v).getD (.wrongType c.key c.kind) := by
  rw [Clause.fault, h]

/-- A required value that cannot be read is that of an unmet clause. -/
theorem read_error (hmet : c.Met j → ∃ v, j.get? c.key = some v ∧ f v ≠ none)
    (hkind : ∀ v, f v = none → c.objection? v = none)
    (h : (require j c.key >>= fun v => expect c.key c.kind (f v)) = .error e) :
    ¬ c.Met j ∧ e = c.fault j := by
  unfold require at h
  cases hget : j.get? c.key with
  | none =>
    rw [hget] at h
    cases h
    refine ⟨fun hc => ?_, (Clause.fault_of_absent hget).symm⟩
    obtain ⟨v, hv, -⟩ := hmet hc
    rw [hget] at hv
    cases hv
  | some v =>
    rw [hget] at h
    change expect c.key c.kind (f v) = .error e at h
    cases hf : f v with
    | some a =>
      rw [hf] at h
      cases h
    | none =>
      rw [hf] at h
      cases h
      refine ⟨fun hc => ?_, ?_⟩
      · obtain ⟨v', hv', hf'⟩ := hmet hc
        rw [hget] at hv'
        cases hv'
        exact hf' hf
      · rw [Clause.fault_of_value hget, hkind v hf]
        rfl

/-- A required text that cannot be read is that of an unmet clause. -/
theorem text_error (hmet : c.Met j → ∃ s, j.get? c.key = some (.string s))
    (hkind : c.kind = "a string") (hobjection : ∀ v, v.text? = none → c.objection? v = none)
    (h : text j c.key = .error e) : ¬ c.Met j ∧ e = c.fault j := by
  unfold text at h
  rw [← hkind] at h
  refine read_error (fun hc => ?_) hobjection h
  obtain ⟨s, hs⟩ := hmet hc
  exact ⟨_, hs, Option.some_ne_none s⟩

/-- An optional text that cannot be read is that of an unmet clause. -/
theorem optionalText_error
    (hmet : c.Met j → j.get? c.key = none ∨ ∃ s, j.get? c.key = some (.string s))
    (hkind : c.kind = "a string") (hobjection : ∀ v, v.text? = none → c.objection? v = none)
    (h : optionalText j c.key = .error e) : ¬ c.Met j ∧ e = c.fault j := by
  unfold optionalText at h
  cases hget : j.get? c.key with
  | none =>
    rw [hget] at h
    cases h
  | some v =>
    rw [hget] at h
    change (expect c.key "a string" v.text?).map some = .error e at h
    cases htext : v.text? with
    | some s =>
      rw [htext] at h
      cases h
    | none =>
      rw [htext] at h
      cases h
      refine ⟨fun hc => ?_, ?_⟩
      · rcases hmet hc with habsent | ⟨s, hs⟩
        · rw [hget] at habsent
          cases habsent
        · rw [hget] at hs
          cases hs
          cases htext
      · rw [Clause.fault_of_value hget, hobjection v htext, hkind]
        rfl

theorem text_eq_ok {s : String} (h : text j key = .ok s) : j.get? key = some (.string s) := by
  obtain ⟨v, hv, hs⟩ := read_eq_ok h
  rw [hv, Value.text?_eq_some.mp hs]

theorem items_eq_ok {items : List Value} (h : Header.items j key = .ok items) :
    j.get? key = some (.array items) := by
  obtain ⟨v, hv, hs⟩ := read_eq_ok h
  rw [hv, Value.items?_eq_some.mp hs]

theorem number_eq_ok {x : Float} (h : number j key = .ok x) :
    ∃ n, j.get? key = some (.number n) ∧ n.toFloat = x := by
  obtain ⟨v, hv, hx⟩ := read_eq_ok h
  obtain ⟨n, hn, hfloat⟩ := Option.map_eq_some_iff.mp hx
  exact ⟨n, by rw [hv, Value.number?_eq_some.mp hn], hfloat⟩

theorem integer_eq_ok {k : ℤ} (h : integer j key = .ok k) :
    ∃ n, j.get? key = some (.number n) ∧ n.IsInteger ∧ n.Equals k := by
  obtain ⟨v, hv, hk⟩ := read_eq_ok h
  obtain ⟨n, hn, hinteger⟩ := Option.bind_eq_some_iff.mp hk
  exact ⟨n, by rw [hv, Value.number?_eq_some.mp hn], Number.integer?_eq_some.mp hinteger⟩

end Reading

/-! ## Components -/

theorem isComponent_iff {v : Value} :
    isComponent v = true ↔ v = .string "horizontal" ∨ v = .string "vertical" := by
  cases v <;> simp [isComponent]

theorem readComponents_eq_ok {items : List Value} {c c' : Components}
    (h : readComponents c items = .ok c') :
    (∀ v ∈ items, v = .string "horizontal" ∨ v = .string "vertical") ∧
      (c'.horizontal = true ↔ c.horizontal = true ∨ Value.string "horizontal" ∈ items) ∧
      (c'.vertical = true ↔ c.vertical = true ∨ Value.string "vertical" ∈ items) := by
  induction items generalizing c with
  | nil =>
    cases h
    simp
  | cons v rest ih =>
    unfold readComponents at h
    split at h
    · cases h
    · rename_i name hname
      rw [Value.text?_eq_some.mp hname]
      split_ifs at h with hhorizontal hvertical
      · obtain ⟨hall, hh, hv⟩ := ih h
        subst hhorizontal
        exact ⟨List.forall_mem_cons.mpr ⟨Or.inl rfl, hall⟩, by simp [hh], by simp [hv]⟩
      · obtain ⟨hall, hh, hv⟩ := ih h
        subst hvertical
        exact ⟨List.forall_mem_cons.mpr ⟨Or.inr rfl, hall⟩, by simp [hh], by simp [hv]⟩

theorem readComponents_error {items : List Value} {c : Components}
    (h : readComponents c items = .error e) :
    (items.find? fun v => !isComponent v).map itemFault = some e := by
  induction items generalizing c with
  | nil => cases h
  | cons v rest ih =>
    unfold readComponents at h
    rw [List.find?_cons]
    split at h
    · rename_i hname
      cases h
      cases v with
      | string s => cases hname
      | _ => rfl
    · rename_i name hname
      rw [Value.text?_eq_some.mp hname]
      split_ifs at h with hhorizontal hvertical
      · rw [hhorizontal]
        exact ih h
      · rw [hvertical]
        exact ih h
      · cases h
        simp [isComponent, hhorizontal, hvertical, itemFault]

/-- The components that are read are those that the array names. -/
theorem components_eq_ok {items : List Value} {c : Components}
    (hitems : Header.items j "transformed_components" = .ok items)
    (hread : readComponents {} items = .ok c) :
    Clause.Met j .components ∧ (c.horizontal = true ↔ Names j "horizontal") ∧
      (c.vertical = true ↔ Names j "vertical") := by
  have hget := items_eq_ok hitems
  have hnames : ∀ name, Names j name ↔ Value.string name ∈ items := by
    intro name
    refine ⟨?_, fun h => ⟨items, hget, h⟩⟩
    rintro ⟨items', hget', hmem⟩
    rw [hget] at hget'
    cases hget'
    exact hmem
  obtain ⟨hall, hh, hv⟩ := readComponents_eq_ok hread
  refine ⟨⟨items, hget, hall⟩, ?_, ?_⟩
  · rw [hh, hnames]
    simp
  · rw [hv, hnames]
    simp

/-! ## Strategy and count -/

theorem ofName?_eq_ok {name : String} {s : FallbackStrategy} (h : FallbackStrategy.ofName? name = .ok s) :
    name = s.name := by
  unfold FallbackStrategy.ofName? at h
  split_ifs at h with h1 h2 h3 <;> cases h <;> assumption

/-- The strategy that is read is the one under its key. -/
theorem readFallback_eq_ok {s : FallbackStrategy} (h : readFallback j = .ok s) :
    j.get? "fallback_strategy" = none ∧ s = .none ∨
      j.get? "fallback_strategy" = some (.string s.name) := by
  obtain ⟨name, hname, h⟩ := bind_eq_ok h
  have hget := optionalText_eq_ok.mp hname
  cases name with
  | none =>
    cases h
    exact Or.inl ⟨hget, rfl⟩
  | some name =>
    rw [ofName?_eq_ok h] at hget
    exact Or.inr hget

theorem hasFallback_iff {s : FallbackStrategy} (h : readFallback j = .ok s) :
    HasFallback j ↔ s ≠ .none := by
  unfold HasFallback
  rcases readFallback_eq_ok h with ⟨hget, rfl⟩ | hget
  · simp [hget]
  · rw [hget]
    cases s <;> simp [FallbackStrategy.name]

theorem readFallback_met {s : FallbackStrategy} (h : readFallback j = .ok s) :
    Clause.Met j .fallback := by
  rcases readFallback_eq_ok h with ⟨hget, -⟩ | hget
  · exact Or.inl hget
  · exact Or.inr ⟨s.name, by cases s <;> simp [FallbackStrategy.name], hget⟩

theorem readFallback_error (h : readFallback j = .error e) :
    ¬ Clause.Met j .fallback ∧ e = Clause.fault j .fallback := by
  rcases bind_eq_error h with h | ⟨name, hname, h⟩
  · refine optionalText_error (c := .fallback) ?_ rfl ?_ h
    · rintro (habsent | ⟨name, -, hname⟩)
      · exact Or.inl habsent
      · exact Or.inr ⟨name, hname⟩
    · intro v hv
      cases v <;> first | rfl | cases hv
  · have hget := optionalText_eq_ok.mp hname
    cases name with
    | none => cases h
    | some name =>
      obtain ⟨rfl, hunknown⟩ := MeshDraft.ofName?_eq_error.mp h
      refine ⟨?_, (Clause.fault_of_value (c := .fallback) hget).symm⟩
      rintro (habsent | ⟨name', hknown, hname'⟩)
      · rw [hget] at habsent
        cases habsent
      · rw [hget] at hname'
        cases hname'
        simp only [List.mem_cons, List.not_mem_nil, or_false] at hknown
        rcases hknown with rfl | rfl | rfl
        exacts [hunknown .none rfl, hunknown .nearestSide rfl, hunknown .nearestCentroid rfl]

theorem ofInt?_eq_some {k : ℤ} {count : VertexCount} (h : VertexCount.ofInt? k = some count) :
    k = count.val := by
  unfold VertexCount.ofInt? at h
  split_ifs at h with hrange
  cases h
  change k = (k.toNat : ℤ)
  omega

theorem ofInt?_eq_none {k : ℤ} (h : VertexCount.ofInt? k = none) : ¬ (1 ≤ k ∧ k ≤ 2 ^ 32 - 1) := by
  rintro ⟨hpos, hle⟩
  have hcast : ((Nat.pow 2 32 : ℕ) : ℤ) = 2 ^ 32 := rfl
  have hrange : 0 < k ∧ k < (Nat.pow 2 32 : ℕ) := ⟨hpos, by rw [hcast]; omega⟩
  rw [VertexCount.ofInt?, dif_pos hrange] at h
  cases h

/-- The count that is read is the number under its key. -/
theorem readVertexCount_eq_ok {s : FallbackStrategy} {count : Option VertexCount}
    (h : readVertexCount j s = .ok count) :
    (s ≠ .none ↔ count.isSome = true) ∧ ∀ n, count = some n →
      ∃ number, j.get? "num_vertices" = some (.number number) ∧ number.Equals n.val := by
  unfold readVertexCount at h
  split at h
  · cases h
    exact ⟨by simp, nofun⟩
  · rename_i hs
    obtain ⟨k, hk, h⟩ := bind_eq_ok h
    obtain ⟨number, hget, -, hequals⟩ := integer_eq_ok hk
    split at h
    · cases h
    · rename_i n hn
      cases h
      refine ⟨by simpa using hs, ?_⟩
      rintro _ ⟨⟩
      exact ⟨number, hget, ofInt?_eq_some hn ▸ hequals⟩

theorem readVertexCount_met {s : FallbackStrategy} {count : Option VertexCount}
    (hs : HasFallback j ↔ s ≠ .none) (h : readVertexCount j s = .ok count) :
    Clause.Met j .vertexCount := by
  intro hfallback
  obtain ⟨hsome, hcount⟩ := readVertexCount_eq_ok h
  obtain ⟨n, rfl⟩ := Option.isSome_iff_exists.mp (hsome.mp (hs.mp hfallback))
  obtain ⟨number, hget, hequals⟩ := hcount n rfl
  have hpos := n.pos
  have hlt : n.val < 2 ^ 32 := n.lt
  exact ⟨number, n.val, hget, hequals, by omega, by omega⟩

/-- A count that cannot be read as an integer is unmet. -/
theorem integer_error (hfallback : HasFallback j) (h : integer j "num_vertices" = .error e) :
    ¬ Clause.Met j .vertexCount ∧ e = Clause.fault j .vertexCount := by
  refine read_error (c := .vertexCount) (f := fun v => v.number?.bind integer?) ?_ ?_ h
  · intro hmet
    obtain ⟨n, k, hget, hequals, hpos, hle⟩ := hmet hfallback
    have hk : |k| < 2 ^ 32 := by rw [abs_lt]; omega
    exact ⟨.number n, hget, fun hnone => Number.integer?_eq_none.mp hnone (hequals.isInteger hk)⟩
  · intro v hv
    cases v with
    | number n => exact if_neg (Number.integer?_eq_none.mp hv)
    | _ => rfl

/-- An integer that is no count is unmet. -/
theorem integer_refused {k : ℤ} (hfallback : HasFallback j) (hk : integer j "num_vertices" = .ok k)
    (hcount : VertexCount.ofInt? k = none) :
    ¬ Clause.Met j .vertexCount ∧ .invalidVertexCount = Clause.fault j .vertexCount := by
  obtain ⟨n, hget, hinteger, hequals⟩ := integer_eq_ok hk
  refine ⟨fun hmet => ?_, ?_⟩
  · obtain ⟨n', k', hget', hequals', hpos, hle⟩ := hmet hfallback
    rw [hget] at hget'
    cases hget'
    rw [hequals'.unique hequals] at hpos hle
    exact ofInt?_eq_none hcount ⟨hpos, hle⟩
  · rw [Clause.fault_of_value (c := .vertexCount) hget]
    change _ = (if n.IsInteger then _ else _ : Option MetadataFault).getD _
    rw [if_pos hinteger]
    rfl

theorem readVertexCount_error {s : FallbackStrategy} (hs : HasFallback j ↔ s ≠ .none)
    (h : readVertexCount j s = .error e) :
    ¬ Clause.Met j .vertexCount ∧ e = Clause.fault j .vertexCount := by
  unfold readVertexCount at h
  split at h
  · cases h
  · rename_i hne
    have hfallback : HasFallback j := hs.mpr hne
    rcases bind_eq_error h with h | ⟨k, hk, h⟩
    · exact integer_error hfallback h
    · split at h
      · rename_i hcount
        cases h
        exact integer_refused hfallback hk hcount
      · cases h

/-! ## Shift -/

theorem number_error {key : String} (hhorizontal : Names j "horizontal")
    (h : number j key = .error e) :
    ¬ Clause.Met j (.shift key) ∧ e = Clause.fault j (.shift key) := by
  refine read_error (c := .shift key) (f := Value.float?) ?_ ?_ h
  · intro hmet
    obtain ⟨n, hget⟩ := hmet hhorizontal
    exact ⟨.number n, hget, Option.some_ne_none _⟩
  · intro v _
    rfl

theorem number_met {key : String} {x : Float} (h : number j key = .ok x) :
    Clause.Met j (.shift key) := by
  obtain ⟨n, hget, -⟩ := number_eq_ok h
  exact fun _ => ⟨n, hget⟩

/-- The shift that is read has the numbers under its keys, or is zero. -/
theorem readShift_eq_ok {horizontal : Bool} {shift : ShiftRange Float}
    (h : readShift j horizontal = .ok shift) :
    (horizontal = true → ∃ minX minY maxX maxY : Number,
      j.get? "min_shift_x" = some (.number minX) ∧ j.get? "min_shift_y" = some (.number minY) ∧
      j.get? "max_shift_x" = some (.number maxX) ∧ j.get? "max_shift_y" = some (.number maxY) ∧
      shift = ⟨⟨minX.toFloat, minY.toFloat⟩, ⟨maxX.toFloat, maxY.toFloat⟩⟩) ∧
      (horizontal = false → shift = .none) := by
  cases horizontal with
  | false =>
    cases h
    exact ⟨nofun, fun _ => rfl⟩
  | true =>
    obtain ⟨_, hminX, h⟩ := bind_eq_ok h
    obtain ⟨_, hminY, h⟩ := bind_eq_ok h
    obtain ⟨_, hmaxX, h⟩ := bind_eq_ok h
    obtain ⟨_, hmaxY, h⟩ := bind_eq_ok h
    cases h
    obtain ⟨minX, hget, rfl⟩ := number_eq_ok hminX
    obtain ⟨minY, hget', rfl⟩ := number_eq_ok hminY
    obtain ⟨maxX, hget'', rfl⟩ := number_eq_ok hmaxX
    obtain ⟨maxY, hget''', rfl⟩ := number_eq_ok hmaxY
    exact ⟨fun _ => ⟨minX, minY, maxX, maxY, hget, hget', hget'', hget''', rfl⟩, nofun⟩

theorem readShift_met {horizontal : Bool} {shift : ShiftRange Float}
    (hnames : horizontal = true ↔ Names j "horizontal") (h : readShift j horizontal = .ok shift)
    {key : String} (hkey : key ∈ ["min_shift_x", "min_shift_y", "max_shift_x", "max_shift_y"]) :
    Clause.Met j (.shift key) := by
  intro hhorizontal
  obtain ⟨minX, minY, maxX, maxY, hminX, hminY, hmaxX, hmaxY, -⟩ :=
    (readShift_eq_ok h).1 (hnames.mpr hhorizontal)
  simp only [List.mem_cons, List.not_mem_nil, or_false] at hkey
  rcases hkey with rfl | rfl | rfl | rfl
  exacts [⟨_, hminX⟩, ⟨_, hminY⟩, ⟨_, hmaxX⟩, ⟨_, hmaxY⟩]

/-! ## Exactness -/

/-- The fault is that of the first unmet clause among some. -/
abbrev Blames (j : Fields) (clauses : List Clause) (e : MetadataFault) : Prop :=
  FirstUnmet (Clause.Met j) (fun c e => e = c.fault j) clauses e

theorem readShift_error {horizontal : Bool} (hnames : horizontal = true ↔ Names j "horizontal")
    (h : readShift j horizontal = .error e) (rest : List Clause) :
    Blames j (.shift "min_shift_x" :: .shift "min_shift_y" :: .shift "max_shift_x" ::
      .shift "max_shift_y" :: rest) e := by
  cases horizontal with
  | false => cases h
  | true =>
    have hhorizontal := hnames.mp rfl
    refine .of_bind h (fun _ => number_error hhorizontal) (fun _ => number_met) fun _ _ h => ?_
    refine .of_bind h (fun _ => number_error hhorizontal) (fun _ => number_met) fun _ _ h => ?_
    refine .of_bind h (fun _ => number_error hhorizontal) (fun _ => number_met) fun _ _ h => ?_
    refine .of_bind h (fun _ => number_error hhorizontal) (fun _ => number_met) fun _ _ h => ?_
    cases h

theorem crs_error {key : String} (h : optionalText j key = .error e) :
    ¬ Clause.Met j (.crs key) ∧ e = Clause.fault j (.crs key) :=
  optionalText_error (c := .crs key) id rfl (fun _ _ => rfl) h

theorem crs_met {key : String} {t : Option String} (h : optionalText j key = .ok t) :
    Clause.Met j (.crs key) := by
  have hget := optionalText_eq_ok.mp h
  cases t with
  | none => exact Or.inl hget
  | some s => exact Or.inr ⟨s, hget⟩

theorem supportsVersion_iff {s : String} :
    supportsVersion s = true ↔ "1.".toList <+: s.toList := List.isPrefixOf_iff_prefix

theorem fileType_error (h : text j "file_type" = .error e) :
    ¬ Clause.Met j .fileType ∧ e = Clause.fault j .fileType :=
  text_error (c := .fileType) (fun hmet => ⟨_, hmet⟩) rfl
    (fun v hv => by cases v <;> first | rfl | cases hv) h

theorem fileType_other {type : String} (h : text j "file_type" = .ok type)
    (hother : type ≠ "triangulation_file") :
    ¬ Clause.Met j .fileType ∧ .wrongFileType = Clause.fault j .fileType := by
  have hget := text_eq_ok h
  refine ⟨fun hmet => hother ?_, (Clause.fault_of_value (c := .fileType) hget).symm⟩
  change j.get? "file_type" = _ at hmet
  rw [hget] at hmet
  cases hmet
  rfl

theorem version_error (h : text j "format_version" = .error e) :
    ¬ Clause.Met j .version ∧ e = Clause.fault j .version :=
  text_error (c := .version) (fun ⟨s, hmet, _⟩ => ⟨s, hmet⟩) rfl
    (fun v hv => by cases v <;> first | rfl | cases hv) h

theorem version_unsupported {version : String} (h : text j "format_version" = .ok version)
    (hunsupported : supportsVersion version ≠ true) :
    ¬ Clause.Met j .version ∧ .unsupportedVersion version = Clause.fault j .version := by
  have hget := text_eq_ok h
  refine ⟨?_, (Clause.fault_of_value (c := .version) hget).symm⟩
  rintro ⟨version', hget', hprefix⟩
  rw [hget] at hget'
  cases hget'
  exact hunsupported (supportsVersion_iff.mpr hprefix)

theorem items_error (h : Header.items j "transformed_components" = .error e) :
    ¬ Clause.Met j .components ∧ e = Clause.fault j .components :=
  read_error (c := .components) (f := Value.items?)
    (fun ⟨_, hmet, _⟩ => ⟨_, hmet, Option.some_ne_none _⟩)
    (fun v hv => by cases v <;> first | rfl | cases hv) h

theorem components_error {items : List Value} {c : Components}
    (hitems : Header.items j "transformed_components" = .ok items)
    (h : readComponents c items = .error e) :
    ¬ Clause.Met j .components ∧ e = Clause.fault j .components := by
  have hget := items_eq_ok hitems
  have hfault := readComponents_error h
  refine ⟨?_, ?_⟩
  · rintro ⟨items', hget', hall⟩
    rw [hget] at hget'
    cases hget'
    obtain ⟨v, hfound, -⟩ := Option.map_eq_some_iff.mp hfault
    have hbad := List.find?_some hfound
    rw [isComponent_iff.mpr (hall v (List.mem_of_find?_eq_some hfound))] at hbad
    cases hbad
  · rw [Clause.fault_of_value (c := .components) hget]
    change e = ((items.find? fun v => !isComponent v).map itemFault).getD _
    rw [hfault]
    rfl

/-- A failing reader reports the first unmet clause. -/
theorem ofFields?_error (h : ofFields? j = .error e) : Blames j Clause.order e := by
  rcases bind_eq_error h with h | ⟨type, htype, h⟩
  · exact .here (fileType_error h).1 (fileType_error h).2
  rcases unless_eq_error h with ⟨hother, he⟩ | ⟨hsame, h⟩
  · exact .here (fileType_other htype hother).1 (he.trans (fileType_other htype hother).2)
  rw [not_not.mp hsame] at htype
  refine .later (text_eq_ok htype) ?_
  rcases bind_eq_error h with h | ⟨version, hversion, h⟩
  · exact .here (version_error h).1 (version_error h).2
  rcases unless_eq_error h with ⟨hno, he⟩ | ⟨hsupported, h⟩
  · have hunsupported := version_unsupported hversion (by simpa using hno)
    exact .here hunsupported.1 (he.trans hunsupported.2)
  refine .later
    ⟨version, text_eq_ok hversion, supportsVersion_iff.mp (by simpa using hsupported)⟩ ?_
  rcases bind_eq_error h with h | ⟨items, hitems, h⟩
  · exact .here (items_error h).1 (items_error h).2
  rcases bind_eq_error h with h | ⟨components, hcomponents, h⟩
  · exact .here (components_error hitems h).1 (components_error hitems h).2
  obtain ⟨hmet, hhorizontal, -⟩ := components_eq_ok hitems hcomponents
  refine .later hmet ?_
  rcases bind_eq_error h with h | ⟨shift, hshift, h⟩
  · exact readShift_error hhorizontal h _
  refine .later (readShift_met hhorizontal hshift (by simp)) (.later
    (readShift_met hhorizontal hshift (by simp)) (.later (readShift_met hhorizontal hshift (by simp))
      (.later (readShift_met hhorizontal hshift (by simp)) ?_)))
  refine .of_bind h (fun _ => readFallback_error) (fun _ => readFallback_met) fun _ hfallback h => ?_
  have hhas := hasFallback_iff hfallback
  refine .of_bind h (fun _ => readVertexCount_error hhas) (fun _ => readVertexCount_met hhas)
    fun _ _ h => ?_
  refine .of_bind h (fun _ => crs_error) (fun _ => crs_met) fun _ _ h => ?_
  refine .of_bind h (fun _ => crs_error) (fun _ => crs_met) fun _ _ h => ?_
  cases h

/-- The fields of a header meet every clause. -/
theorem DeclaredBy.met {h : Header} (hdeclared : h.DeclaredBy j) : ∀ c ∈ Clause.order, c.Met j := by
  obtain ⟨version, hversion, hsupported⟩ := hdeclared.version
  obtain ⟨names, hnames, hcomponents⟩ := hdeclared.components
  obtain ⟨hmet, hhorizontal, -⟩ := components_eq_ok hnames hcomponents
  have hshift : ∀ key ∈ ["min_shift_x", "min_shift_y", "max_shift_x", "max_shift_y"],
      Clause.Met j (.shift key) := fun key hkey => readShift_met hhorizontal hdeclared.shift hkey
  have hcount := readVertexCount_met (hasFallback_iff hdeclared.fallback) hdeclared.vertexCount
  simp only [Clause.order, List.forall_mem_cons, List.not_mem_nil, false_implies, implies_true,
    and_true]
  exact ⟨text_eq_ok hdeclared.fileType,
    ⟨version, text_eq_ok hversion, supportsVersion_iff.mp hsupported⟩, hmet, hshift _ (by simp),
    hshift _ (by simp), hshift _ (by simp), hshift _ (by simp), readFallback_met hdeclared.fallback,
    hcount, crs_met hdeclared.inputCrs, crs_met hdeclared.outputCrs⟩

/-- What a header says of the fields that it is read from. -/
structure Describes (h : Header) (j : Fields) : Prop where
  horizontal : h.horizontal = true ↔ Names j "horizontal"
  vertical : h.vertical = true ↔ Names j "vertical"
  shift : h.horizontal = true → ∃ minX minY maxX maxY : Number,
    j.get? "min_shift_x" = some (.number minX) ∧ j.get? "min_shift_y" = some (.number minY) ∧
    j.get? "max_shift_x" = some (.number maxX) ∧ j.get? "max_shift_y" = some (.number maxY) ∧
    h.shift = ⟨⟨minX.toFloat, minY.toFloat⟩, ⟨maxX.toFloat, maxY.toFloat⟩⟩
  no_shift : h.horizontal = false → h.shift = ⟨⟨0, 0⟩, ⟨0, 0⟩⟩
  fallback : j.get? "fallback_strategy" = none ∧ h.fallback = .none ∨
    j.get? "fallback_strategy" = some (.string h.fallback.name)
  counted : h.fallback ≠ .none ↔ h.vertexCount.isSome = true
  vertexCount : ∀ count, h.vertexCount = some count →
    ∃ n, j.get? "num_vertices" = some (.number n) ∧ n.Equals count.val
  inputCrs : j.get? "input_crs" = h.inputCrs.map .string
  outputCrs : j.get? "output_crs" = h.outputCrs.map .string

theorem DeclaredBy.describes {h : Header} (hdeclared : h.DeclaredBy j) : h.Describes j := by
  obtain ⟨names, hnames, hcomponents⟩ := hdeclared.components
  obtain ⟨-, hhorizontal, hvertical⟩ := components_eq_ok hnames hcomponents
  obtain ⟨hshift, hzero⟩ := readShift_eq_ok hdeclared.shift
  obtain ⟨hcounted, hcount⟩ := readVertexCount_eq_ok hdeclared.vertexCount
  exact
    { horizontal := hhorizontal
      vertical := hvertical
      shift := hshift
      no_shift := hzero
      fallback := readFallback_eq_ok hdeclared.fallback
      counted := hcounted
      vertexCount := hcount
      inputCrs := optionalText_eq_ok.mp hdeclared.inputCrs
      outputCrs := optionalText_eq_ok.mp hdeclared.outputCrs }

/-- The clauses are met exactly if the reader succeeds, and it fails exactly with the first unmet one. -/
theorem ofFields?_exact (j : Fields) :
    ((∃ h, ofFields? j = .ok h) ↔ ∀ c ∈ Clause.order, c.Met j) ∧
      ∀ e, ofFields? j = .error e ↔ Blames j Clause.order e :=
  exact_of_firstUnmet (fun _ _ _ h h' => h.trans h'.symm) (fun _ h => (ofFields?_eq_ok h).met)
    fun _ => ofFields?_error

/-- Fields that agree under the keys of the clauses are read alike. -/
theorem ofFields?_congr {j' : Fields} (h : ∀ c ∈ Clause.order, j.get? c.key = j'.get? c.key) :
    ofFields? j = ofFields? j' := by
  simp only [Clause.order, Clause.key, List.forall_mem_cons, List.not_mem_nil, false_implies,
    implies_true, and_true] at h
  obtain ⟨htype, hversion, hcomponents, hminX, hminY, hmaxX, hmaxY, hfallback, hcount, hinput,
    houtput⟩ := h
  have hshift : ∀ horizontal, readShift j horizontal = readShift j' horizontal := by
    intro horizontal
    simp only [readShift, number, require, hminX, hminY, hmaxX, hmaxY]
  have hvertices : ∀ s, readVertexCount j s = readVertexCount j' s := by
    intro s
    simp only [readVertexCount, integer, require, hcount]
  simp only [ofFields?, text, Header.items, require, readFallback, optionalText, htype, hversion,
    hcomponents, hfallback, hinput, houtput, hshift, hvertices]

end Header

/-- **Which JSON values are headers.**  A text that is the JSON value `v` is a header exactly if `v` is an
object that meets every clause; otherwise the fault is that `v` is no object, or that of the first clause
that is not met.  The header describes the fields of the object, and other keys make no difference. -/
theorem header_exact {s : String} {v : Value} (hs : Json.parse s = .ok v) :
    ((∃ h, Header.parse s = .ok h) ↔
      ∃ j, v = .object j ∧ ∀ c ∈ Header.Clause.order, c.Met j) ∧
    (∀ e, Header.parse s = .error e ↔
      (∀ j, v ≠ .object j) ∧ e = .notAnObject ∨
        ∃ j, v = .object j ∧ FirstUnmet (Header.Clause.Met j) (fun c e => e = c.fault j)
          Header.Clause.order e) ∧
    (∀ h, Header.parse s = .ok h → ∃ j, v = .object j ∧ h.Describes j) ∧
    ∀ (s' : String) (j j' : Fields), v = .object j → Json.parse s' = .ok (.object j') →
      (∀ c ∈ Header.Clause.order, j.get? c.key = j'.get? c.key) →
      Header.parse s = Header.parse s' := by
  have hparse : Header.parse s = Header.ofJson? v := by rw [Header.parse, hs]
  rw [hparse]
  cases hfields : v.fields? with
  | some j =>
    have hread : Header.ofJson? v = Header.ofFields? j := by rw [Header.ofJson?, hfields]
    obtain rfl := Value.fields?_eq_some.mp hfields
    obtain ⟨hok, herror⟩ := Header.ofFields?_exact j
    rw [hread]
    refine ⟨⟨fun h => ⟨j, rfl, hok.mp h⟩, ?_⟩, fun e => ⟨fun h => Or.inr ⟨j, rfl, (herror e).mp h⟩, ?_⟩,
      fun h hread => ⟨j, rfl, (Header.ofFields?_eq_ok hread).describes⟩, ?_⟩
    · rintro ⟨_, ⟨⟩, hmet⟩
      exact hok.mpr hmet
    · rintro (⟨hobject, -⟩ | ⟨_, ⟨⟩, hfirst⟩)
      · exact absurd rfl (hobject j)
      · exact (herror e).mpr hfirst
    · rintro s' _ j' ⟨⟩ hs' hagree
      rw [Header.parse, hs']
      exact Header.ofFields?_congr hagree
  | none =>
    have hread : Header.ofJson? v = .error .notAnObject := by rw [Header.ofJson?, hfields]
    have hobject : ∀ j, v ≠ .object j := by
      rintro j rfl
      cases hfields
    rw [hread]
    refine ⟨⟨?_, ?_⟩, fun e => ⟨fun h => Or.inl ⟨hobject, ?_⟩, ?_⟩, ?_, ?_⟩
    · rintro ⟨_, h⟩
      cases h
    · rintro ⟨j, hj, -⟩
      exact absurd hj (hobject j)
    · cases h
      rfl
    · rintro (⟨-, rfl⟩ | ⟨j, hj, -⟩)
      · rfl
      · exact absurd hj (hobject j)
    · intro h hread
      cases hread
    · intro s' j j' hj
      exact absurd hj (hobject j)

/-- The converted document is a header: its object meets every clause. -/
theorem raised_header_exact :
    ∃ (j : Fields) (h : Header),
      Json.parse (raisedText "nearest_side" "EPSG:2393" (some "EPSG:3067")) = .ok (.object j) ∧
      Header.parse (raisedText "nearest_side" "EPSG:2393" (some "EPSG:3067")) = .ok h ∧
      (∀ c ∈ Header.Clause.order, c.Met j) ∧ h.Describes j := by
  have hparse := parse_raisedText "nearest_side" "EPSG:2393" (some "EPSG:3067")
  obtain ⟨h, hheader, -⟩ := exists_parse_raisedText (Or.inr rfl)
  obtain ⟨haccepts, -, hdescribes, -⟩ := header_exact hparse
  obtain ⟨j, hj, hmet⟩ := haccepts.mp ⟨h, hheader⟩
  obtain ⟨j', hj', hread⟩ := hdescribes h hheader
  rw [hj] at hj'
  cases hj'
  exact ⟨j, h, hparse.trans (congrArg Except.ok hj), hheader, hmet, hread⟩

end ShiftMesh
