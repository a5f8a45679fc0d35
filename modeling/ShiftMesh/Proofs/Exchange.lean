import ShiftMesh.Mesh.Exchange
import ShiftMesh.Proofs.Json.Reading
import ShiftMesh.Proofs.Draft

/-!
# ShiftMesh.Proofs.Exchange — what an accepted exchange document declares

* `Exchange.text_eq_ok`: the text under a key that may be absent.
* `Exchange.Heading.DeclaredBy`: the checks that a document with this heading has passed.
* `MeshDraft.ReadFrom`: what each part of a draft is read from; `ofExchange?_eq_ok` says that the
  drafts of documents are so read.
* `ofExchange?_error`: a document is refused as an invalid mesh, or for the name of its fallback
  strategy (`NamesNoStrategy`).
* `raisedText`: a document with free names, which is read as it was written.
-/

namespace ShiftMesh

open ShiftMesh.Json (Value Fields Writable Number readBackFields readBackItems)

namespace Json.Value

variable {v : Value}

theorem fields?_eq_some {j : Fields} : v.fields? = some j ↔ v = .object j := by
  cases v <;> simp [fields?]

theorem text?_eq_some {s : String} : v.text? = some s ↔ v = .string s := by
  cases v <;> simp [text?]

theorem items?_eq_some {items : List Value} : v.items? = some items ↔ v = .array items := by
  cases v <;> simp [items?]

theorem number?_eq_some {n : Number} : v.number? = some n ↔ v = .number n := by
  cases v <;> simp [number?]

end Json.Value

namespace Exchange

variable {j : Fields}

/-! ## Keys -/

/-- A key that may be absent is read if it is absent or holds a string. -/
theorem text_eq_ok {key : String} {t : Option String} :
    text j key = .ok t ↔ j.get? key = t.map Value.string := by
  unfold text
  cases j.get? key with
  | none => cases t <;> simp
  | some v => cases v <;> cases t <;> simp [Json.Value.text?]

/-- A required array is read if it stands under its key. -/
theorem items_eq_ok {key : String} {values : List Value} :
    items j key = .ok values ↔ j.get? key = some (.array values) := by
  unfold items
  cases j.get? key with
  | none => simp
  | some v => cases v <;> simp [Json.Value.items?]

/-! ## The heading -/

/-- A mesh has an encoding exactly if heights are corrected. -/
theorem encoding_isSome {vertical : Bool} {c : VertexColumns} {e : Option VerticalEncoding}
    (h : encoding vertical c = .ok e) : e.isSome = vertical := by
  unfold encoding at h
  cases vertical with
  | false =>
    cases h
    rfl
  | true =>
    simp only [Bool.not_true, Bool.false_eq_true, if_false] at h
    by_cases hheights : c.heights.isSome = true
    · rw [if_pos hheights] at h
      cases h
      rfl
    · rw [if_neg hheights] at h
      by_cases hoffset : c.offsetZ.isSome = true
      · rw [if_pos hoffset] at h
        cases h
        rfl
      · rw [if_neg hoffset] at h
        cases h

/-- The checks that a document with this heading has passed. -/
structure Heading.DeclaredBy (h : Heading) (j : Fields) : Prop where
  fileType : text j "file_type" = .ok (some Header.fileType)
  version : ∃ version, text j "format_version" = .ok version ∧
    Header.supportsVersion (version.getD "") = true
  components : ∃ names, items j "transformed_components" = .ok names ∧
    readComponents {} names = .ok h.components
  columns : ∃ names, items j "vertices_columns" = .ok names ∧ vertexColumns names = .ok h.columns
  targets : h.components.horizontal = true → h.columns.target.isSome = true
  vertical : encoding h.components.vertical h.columns = .ok h.vertical
  corners : ∃ names, items j "triangles_columns" = .ok names ∧ cornerColumns names = .ok h.corners ∧
    h.cornerCount = names.length

theorem heading?_eq_ok {heading : Heading} (h : heading? j = .ok heading) :
    heading.DeclaredBy j := by
  obtain ⟨type, htype, h⟩ := bind_eq_ok h
  obtain ⟨heq, h⟩ := unless_eq_ok h
  obtain ⟨version, hversion, h⟩ := bind_eq_ok h
  obtain ⟨hsupported, h⟩ := unless_eq_ok h
  obtain ⟨names, hnames, h⟩ := bind_eq_ok h
  obtain ⟨components, hcomponents, h⟩ := bind_eq_ok h
  obtain ⟨columnNames, hcolumnNames, h⟩ := bind_eq_ok h
  obtain ⟨columns, hcolumns, h⟩ := bind_eq_ok h
  obtain ⟨htargets, h⟩ := unless_eq_ok h
  obtain ⟨vertical, hvertical, h⟩ := bind_eq_ok h
  obtain ⟨cornerNames, hcornerNames, h⟩ := bind_eq_ok h
  obtain ⟨corners, hcorners, h⟩ := bind_eq_ok h
  cases h
  refine ⟨?_, ⟨version, hversion, ?_⟩, ⟨names, hnames, hcomponents⟩,
    ⟨columnNames, hcolumnNames, hcolumns⟩, fun hh => ?_, hvertical,
    ⟨cornerNames, hcornerNames, hcorners, rfl⟩⟩
  · rw [htype, Decidable.not_not.mp heq]
  · simpa using hsupported
  · rw [hh, Bool.true_and, Option.isNone_iff_eq_none] at htargets
    exact Option.isSome_iff_ne_none.mpr htargets

end Exchange

namespace MeshDraft

open Exchange

variable {j : Fields} {d : MeshDraft}

theorem lift_eq_ok {τ : Type} {x : Except MeshFault τ} {a : τ} (h : lift x = .ok a) : x = .ok a := by
  cases x with
  | error e => cases h
  | ok b =>
    cases h
    rfl

theorem lift_eq_error {τ : Type} {x : Except MeshFault τ} {e : MeshError} (h : lift x = .error e) :
    ∃ fault, e = .invalidMesh fault := by
  cases x with
  | error fault =>
    cases h
    exact ⟨fault, rfl⟩
  | ok b => cases h

/-- What each part of a draft is read from.  The names of the reference systems count in a pair. -/
structure ReadFrom (d : MeshDraft) (j : Fields) (heading : Heading) : Prop where
  declared : heading? j = .ok heading
  horizontal : d.horizontal = heading.components.horizontal
  vertical : d.vertical = heading.vertical
  fallback : readFallback j = .ok d.fallback
  names : ∃ input output, text j "input_crs" = .ok input ∧ text j "output_crs" = .ok output ∧
    d.inputCrs = (if (input.isSome && output.isSome) = true then input else none) ∧
    d.outputCrs = (if (input.isSome && output.isSome) = true then output else none)
  vertices : ∃ rows, items j "vertices" = .ok rows ∧
    readVertices heading.columns 0 rows = .ok d.vertices
  triangles : ∃ rows, items j "triangles" = .ok rows ∧
    readTriangles heading.corners heading.cornerCount 0 rows = .ok d.triangles

theorem ofFields?_eq_ok (h : ofFields? j = .ok d) : ∃ heading, d.ReadFrom j heading := by
  obtain ⟨heading, hheading, h⟩ := bind_eq_ok h
  obtain ⟨fallback, hfallback, h⟩ := bind_eq_ok h
  obtain ⟨input, hinput, h⟩ := bind_eq_ok (lift_eq_ok h)
  obtain ⟨output, houtput, h⟩ := bind_eq_ok h
  obtain ⟨vertexRows, hvertexRows, h⟩ := bind_eq_ok h
  obtain ⟨vertices, hvertices, h⟩ := bind_eq_ok h
  obtain ⟨triangleRows, htriangleRows, h⟩ := bind_eq_ok h
  obtain ⟨triangles, htriangles, h⟩ := bind_eq_ok h
  cases h
  exact ⟨heading, lift_eq_ok hheading, rfl, rfl, hfallback,
    ⟨input, output, hinput, houtput, rfl, rfl⟩, ⟨vertexRows, hvertexRows, hvertices⟩,
    ⟨triangleRows, htriangleRows, htriangles⟩⟩

/-- The draft of a document is read from the fields of an object. -/
theorem ofExchange?_eq_ok {s : String} (h : ofExchange? s = .ok d) :
    ∃ j heading, Json.parse s = .ok (.object j) ∧ d.ReadFrom j heading := by
  unfold ofExchange? at h
  cases hparse : Json.parse s with
  | error fault =>
    rw [hparse] at h
    cases h
  | ok v =>
    cases hv : v.fields? with
    | none =>
      rw [hparse] at h
      simp only [hv] at h
      cases h
    | some j =>
      rw [hparse] at h
      simp only [hv] at h
      obtain ⟨heading, hread⟩ := ofFields?_eq_ok h
      exact ⟨j, heading, by rw [Value.fields?_eq_some.mp hv], hread⟩

/-! ## Refusals -/

theorem ofName?_eq_error {name : String} {fault : MetadataFault} :
    FallbackStrategy.ofName? name = .error fault ↔
      fault = .unknownFallback ∧ ∀ s : FallbackStrategy, s.name ≠ name := by
  have hnames : (∀ s : FallbackStrategy, s.name ≠ name) ↔
      name ≠ "none" ∧ name ≠ "nearest_side" ∧ name ≠ "nearest_centroid" := by
    refine ⟨fun h => ⟨(h .none).symm, (h .nearestSide).symm, (h .nearestCentroid).symm⟩, ?_⟩
    rintro ⟨hnone, hside, hcentroid⟩ (_ | _ | _)
    exacts [hnone.symm, hside.symm, hcentroid.symm]
  rw [FallbackStrategy.ofName?, hnames]
  split_ifs with hnone hside hcentroid <;> simp [*, eq_comm]

/-- The document gives a fallback strategy a name that none has. -/
def NamesNoStrategy (j : Fields) : Prop :=
  ∃ name, j.get? "fallback_strategy" = some (.string name) ∧ ∀ s : FallbackStrategy, s.name ≠ name

theorem NamesNoStrategy.readFallback_eq (h : NamesNoStrategy j) :
    readFallback j = .error (.metadata .unknownFallback) := by
  obtain ⟨name, hkey, hname⟩ := h
  have htext : text j "fallback_strategy" = .ok (some name) := text_eq_ok.mpr hkey
  rw [readFallback, htext]
  simp only [lift, bind, Except.bind, ofName?_eq_error.mpr ⟨rfl, hname⟩]

theorem readFallback_error {e : MeshError} (h : readFallback j = .error e) :
    (∃ fault, e = .invalidMesh fault) ∨ e = .metadata .unknownFallback ∧ NamesNoStrategy j := by
  unfold readFallback at h
  cases htext : text j "fallback_strategy" with
  | error fault =>
    rw [htext] at h
    cases h
    exact Or.inl ⟨fault, rfl⟩
  | ok t =>
    rw [htext] at h
    cases t with
    | none => cases h
    | some name =>
      simp only [lift, bind, Except.bind] at h
      cases hname : FallbackStrategy.ofName? name with
      | ok s =>
        rw [hname] at h
        cases h
      | error fault =>
        rw [hname] at h
        cases h
        obtain ⟨rfl, hnone⟩ := ofName?_eq_error.mp hname
        exact Or.inr ⟨rfl, name, text_eq_ok.mp htext, hnone⟩

theorem ofFields?_error {e : MeshError} (h : ofFields? j = .error e) :
    (∃ fault, e = .invalidMesh fault) ∨
      e = .metadata .unknownFallback ∧ NamesNoStrategy j ∧ ∃ heading, heading? j = .ok heading := by
  unfold ofFields? at h
  cases hheading : heading? j with
  | error fault =>
    rw [hheading] at h
    cases h
    exact Or.inl ⟨fault, rfl⟩
  | ok heading =>
    rw [hheading] at h
    simp only [lift, bind, Except.bind] at h
    cases hfallback : readFallback j with
    | error e' =>
      rw [hfallback] at h
      cases h
      exact (readFallback_error hfallback).imp_right fun ⟨he, hname⟩ => ⟨he, hname, heading, rfl⟩
    | ok strategy =>
      rw [hfallback] at h
      exact Or.inl (lift_eq_error h)

/-- A document is refused as an invalid mesh; or its heading is accepted, and then the name of its
strategy is not. -/
theorem ofExchange?_error {s : String} {e : MeshError} (h : ofExchange? s = .error e) :
    (∃ fault, e = .invalidMesh fault) ∨
      e = .metadata .unknownFallback ∧ ∃ j heading, Json.parse s = .ok (.object j) ∧
        heading? j = .ok heading ∧ NamesNoStrategy j := by
  unfold ofExchange? at h
  cases hparse : Json.parse s with
  | error fault =>
    rw [hparse] at h
    cases h
    exact Or.inl ⟨_, rfl⟩
  | ok v =>
    rw [hparse] at h
    dsimp only at h
    cases hv : v.fields? with
    | none =>
      rw [hv] at h
      cases h
      exact Or.inl ⟨_, rfl⟩
    | some j =>
      rw [hv] at h
      refine (ofFields?_error h).imp_right fun ⟨he, hname, heading, hheading⟩ => ?_
      exact ⟨he, j, heading, by rw [Value.fields?_eq_some.mp hv], hheading, hname⟩

/-- A document whose heading is accepted is refused for the name of its strategy. -/
theorem NamesNoStrategy.ofExchange?_eq {s : String} {heading : Heading} (h : NamesNoStrategy j)
    (hparse : Json.parse s = .ok (.object j)) (hheading : heading? j = .ok heading) :
    ofExchange? s = .error (.metadata .unknownFallback) := by
  rw [ofExchange?, hparse]
  change ofFields? j = _
  rw [ofFields?, hheading, h.readFallback_eq]
  rfl

end MeshDraft

/-! ## A document -/

/-- An array of whole numbers. -/
def wholes (values : List ℕ) : Value :=
  .array (values.map fun n : ℕ => .number (.whole n))

/-- The fields of a document with one triangle, which is moved east and raised. -/
def raisedFields (fallback input : String) (output : Option String) : Fields :=
  [("fallback_strategy", Value.string fallback),
    ("file_type", Value.string Header.fileType),
    ("format_version", Value.string "1.0"),
    ("input_crs", Value.string input),
    ("max_shift_x", Value.number (.whole 2)),
    ("max_shift_y", Value.number (.whole 0)),
    ("min_shift_x", Value.number (.whole 1)),
    ("min_shift_y", Value.number (.whole 0)),
    ("num_vertices", Value.number (.whole 3))] ++
  (output.map fun crs => ("output_crs", Value.string crs)).toList ++
  [("transformed_components", Value.array (["horizontal", "vertical"].map Value.string)),
    ("triangles", Value.array ([[0, 1, 2]].map wholes)),
    ("triangles_columns", Value.array (["idx_vertex1", "idx_vertex2", "idx_vertex3"].map Value.string)),
    ("vertices", Value.array ([[0, 0, 1, 0, 5], [1, 0, 3, 0, 5], [0, 1, 1, 1, 6]].map wholes)),
    ("vertices_columns",
      Value.array (["source_x", "source_y", "target_x", "target_y", "offset_z"].map Value.string))]

/-- The text of the document. -/
def raisedText (fallback input : String) (output : Option String) : String :=
  Json.print (.object (raisedFields fallback input output))

theorem ascending_raisedFields (fallback input : String) (output : Option String) :
    (raisedFields fallback input output).Ascending := by
  have hkeys : ∀ named ∈ [[], ["output_crs"]], List.Pairwise (· < ·)
      (["fallback_strategy", "file_type", "format_version", "input_crs", "max_shift_x",
        "max_shift_y", "min_shift_x", "min_shift_y", "num_vertices"] ++ named ++
        ["transformed_components", "triangles", "triangles_columns", "vertices",
          "vertices_columns"]) := by decide +kernel
  refine List.pairwise_map.mp ?_
  cases output with
  | none => exact hkeys [] (by simp)
  | some crs => exact hkeys ["output_crs"] (by simp)

/-- Rows of whole numbers of 64 bits can be written. -/
theorem writable_rows {rows : List (List ℕ)} (h : ∀ row ∈ rows, ∀ n ∈ row, Number.InRange n) (level : ℕ) :
    Writable (level + 2) (.array (rows.map wholes)) := by
  refine .array fun v hv => ?_
  obtain ⟨row, hrow, rfl⟩ := List.mem_map.mp hv
  refine .array fun w hw => ?_
  obtain ⟨n, hn, rfl⟩ := List.mem_map.mp hw
  exact .number level (h row hrow n hn)

/-- They are read back as they were written. -/
theorem readBack_rows {rows : List (List ℕ)} (h : ∀ row ∈ rows, ∀ n ∈ row, Number.InRange n) :
    (Value.array (rows.map wholes)).readBack = .array (rows.map wholes) := by
  have hrow : ∀ {row : List ℕ}, (∀ n ∈ row, Number.InRange n) → (wholes row).readBack = wholes row := by
    intro row hrow
    rw [wholes, Value.readBack]
    congr 1
    induction row with
    | nil => rfl
    | cons n row ih =>
      obtain ⟨hn, hrow⟩ := List.forall_mem_cons.mp hrow
      rw [List.map_cons, readBackItems, Value.readBack, Number.readBack_whole hn, ih hrow]
  rw [Value.readBack]
  congr 1
  induction rows with
  | nil => rfl
  | cons row rows ih =>
    obtain ⟨hfirst, hrows⟩ := List.forall_mem_cons.mp h
    rw [List.map_cons, readBackItems, hrow hfirst, ih hrows]

/-- The numbers of the document are whole numbers of 64 bits. -/
theorem inRange_raised : ∀ n ∈ ([0, 1, 2, 3, 5, 6] : List ℤ), Number.InRange n := by
  unfold Number.InRange
  decide

theorem inRange_rows {rows : List (List ℕ)}
    (h : ∀ row ∈ rows, ∀ n ∈ row, (n : ℤ) ∈ ([0, 1, 2, 3, 5, 6] : List ℤ)) :
    ∀ row ∈ rows, ∀ n ∈ row, Number.InRange n := fun row hrow n hn => inRange_raised n (h row hrow n hn)

theorem writable_raisedFields (fallback input : String) (output : Option String) :
    ∀ f ∈ raisedFields fallback input output, Writable 126 f.2 := by
  have hnumber : ∀ n ∈ ([0, 1, 2, 3, 5, 6] : List ℤ), Writable 126 (.number (.whole n)) :=
    fun n hn => .number _ (inRange_raised n hn)
  rw [raisedFields]
  refine List.forall_mem_append.mpr ⟨List.forall_mem_append.mpr ⟨?_, .optionalString _ _ _⟩, ?_⟩
  · simp only [List.forall_mem_cons, List.not_mem_nil, false_implies, implies_true, and_true]
    exact ⟨.string _ _, .string _ _, .string _ _, .string _ _, hnumber 2 (by decide),
      hnumber 0 (by decide), hnumber 1 (by decide), hnumber 0 (by decide), hnumber 3 (by decide)⟩
  · simp only [List.forall_mem_cons, List.not_mem_nil, false_implies, implies_true, and_true]
    exact ⟨.strings _ _, writable_rows (inRange_rows (by decide)) _, .strings _ _,
      writable_rows (inRange_rows (by decide)) _, .strings _ _⟩

theorem readBackFields_raisedFields (fallback input : String) (output : Option String) :
    readBackFields (raisedFields fallback input output) = raisedFields fallback input output := by
  have hread : ∀ n ∈ ([0, 1, 2, 3, 5, 6] : List ℤ), (Number.whole n).readBack = .whole n :=
    fun n hn => Number.readBack_whole (inRange_raised n hn)
  cases output <;> simp [raisedFields, wholes, readBackFields, Value.readBack, readBackItems, hread]

/-- The document is read back as it was written. -/
theorem parse_raisedText (fallback input : String) (output : Option String) :
    Json.parse (raisedText fallback input output) =
      .ok (.object (raisedFields fallback input output)) := by
  have hwritable : Writable Json.maxDepth (.object (raisedFields fallback input output)) :=
    .object (ascending_raisedFields fallback input output)
      (writable_raisedFields fallback input output)
  rw [raisedText, hwritable.parse_print, Value.readBack, readBackFields_raisedFields]

end ShiftMesh
