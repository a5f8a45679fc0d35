import ShiftMesh.Proofs.Header
import ShiftMesh.Proofs.Exchange

/-!
# ShiftMesh.Proofs.Conversion — the header of a converted document

An exchange document carries the keys of a header, so its text can be read as a header too.

* `Header.DeclaredBy`: what each part of a header is read from.
* `Exchange.text_of_header` and its siblings: what the header's reader of a key accepts, the document's
  reader of that key reads alike.
* `Header.DeclaredBy.agrees`, `Header.DeclaredBy.names`: hence what header and draft have in common.
* `conversion_keeps_header`: the header that a conversion writes agrees with the one that the document
  carries, but for a reference system that is named alone.
-/

namespace ShiftMesh

open ShiftMesh.Json (Value Fields)

namespace Header

variable {j : Fields}

/-! ## The header of an object -/

/-- What each part of a header is read from, and the checks that have passed. -/
structure DeclaredBy (h : Header) (j : Fields) : Prop where
  fileType : Header.text j "file_type" = .ok Header.fileType
  version : ∃ version, Header.text j "format_version" = .ok version ∧ supportsVersion version = true
  components : ∃ names, Header.items j "transformed_components" = .ok names ∧
    readComponents {} names = .ok ⟨h.horizontal, h.vertical⟩
  shift : readShift j h.horizontal = .ok h.shift
  fallback : readFallback j = .ok h.fallback
  vertexCount : readVertexCount j h.fallback = .ok h.vertexCount
  inputCrs : optionalText j "input_crs" = .ok h.inputCrs
  outputCrs : optionalText j "output_crs" = .ok h.outputCrs

theorem ofFields?_eq_ok {h : Header} (hread : ofFields? j = .ok h) : h.DeclaredBy j := by
  obtain ⟨type, htype, hread⟩ := bind_eq_ok hread
  obtain ⟨heq, hread⟩ := unless_eq_ok hread
  obtain ⟨version, hversion, hread⟩ := bind_eq_ok hread
  obtain ⟨hsupported, hread⟩ := unless_eq_ok hread
  obtain ⟨names, hnames, hread⟩ := bind_eq_ok hread
  obtain ⟨components, hcomponents, hread⟩ := bind_eq_ok hread
  obtain ⟨shift, hshift, hread⟩ := bind_eq_ok hread
  obtain ⟨fallback, hfallback, hread⟩ := bind_eq_ok hread
  obtain ⟨vertexCount, hvertexCount, hread⟩ := bind_eq_ok hread
  obtain ⟨inputCrs, hinputCrs, hread⟩ := bind_eq_ok hread
  obtain ⟨outputCrs, houtputCrs, hread⟩ := bind_eq_ok hread
  cases hread
  refine ⟨?_, ⟨version, hversion, ?_⟩, ⟨names, hnames, hcomponents⟩, hshift, hfallback, hvertexCount,
    hinputCrs, houtputCrs⟩
  · rw [htype, not_not.mp heq]
  · simpa using hsupported

theorem optionalText_eq_ok {key : String} {t : Option String} :
    optionalText j key = .ok t ↔ j.get? key = t.map Value.string := by
  unfold optionalText
  cases j.get? key with
  | none => cases t <;> simp
  | some v => cases v <;> cases t <;> simp [Value.text?, expect, Except.map]

end Header

/-! ## Two readers of one key -/

namespace Exchange

variable {j : Fields} {key : String}

theorem text_of_header {t : Option String} (h : Header.optionalText j key = .ok t) :
    text j key = .ok t :=
  text_eq_ok.mpr (Header.optionalText_eq_ok.mp h)

theorem items_of_header {values : List Value} (h : Header.items j key = .ok values) :
    items j key = .ok values := by
  unfold Header.items Header.require at h
  unfold items
  cases hkey : j.get? key with
  | none =>
    rw [hkey] at h
    cases h
  | some v =>
    rw [hkey] at h
    cases v <;> cases h
    rfl

theorem readComponents_of_header {names : List Value} {c c' : Components}
    (h : Header.readComponents c names = .ok c') : readComponents c names = .ok c' := by
  induction names generalizing c with
  | nil =>
    cases h
    rfl
  | cons v rest ih =>
    unfold Header.readComponents at h
    unfold readComponents
    -- the readers differ only in how they refuse a name, and the header's has refused none
    cases hname : v.text? with
    | none =>
      rw [hname] at h
      cases h
    | some name =>
      simp only [hname] at h
      simp only [Option.some.injEq]
      split_ifs at h ⊢
      · exact ih h
      · exact ih h

theorem readFallback_of_header {s : FallbackStrategy} (h : Header.readFallback j = .ok s) :
    MeshDraft.readFallback j = .ok s := by
  obtain ⟨name, hname, h⟩ := bind_eq_ok h
  rw [MeshDraft.readFallback, text_of_header hname]
  cases name with
  | none =>
    cases h
    rfl
  | some name =>
    change FallbackStrategy.ofName? name = .ok s at h
    simp only [MeshDraft.lift, h, bind, Except.bind]
    rfl

end Exchange

/-! ## The header of a conversion -/

/-- Where fields declare a header and hold a draft, the two have the same components and the same
strategy. -/
theorem Header.DeclaredBy.agrees {j : Fields} {h : Header} {d : MeshDraft} {heading : Exchange.Heading}
    (hheader : h.DeclaredBy j) (hdraft : d.ReadFrom j heading) :
    d.horizontal = h.horizontal ∧ d.vertical.isSome = h.vertical ∧ d.fallback = h.fallback := by
  have hheading := Exchange.heading?_eq_ok hdraft.declared
  have hcomponents : heading.components = ⟨h.horizontal, h.vertical⟩ := by
    obtain ⟨names, hnames, hread⟩ := hheader.components
    obtain ⟨names', hnames', hread'⟩ := hheading.components
    rw [Exchange.items_of_header hnames] at hnames'
    cases hnames'
    rw [Exchange.readComponents_of_header hread] at hread'
    injection hread' with hcomponents
    exact hcomponents.symm
  have hfallback := hdraft.fallback
  rw [Exchange.readFallback_of_header hheader.fallback] at hfallback
  refine ⟨?_, ?_, ?_⟩
  · rw [hdraft.horizontal, hcomponents]
  · rw [hdraft.vertical, Exchange.encoding_isSome hheading.vertical, hcomponents]
  · injection hfallback with hfallback
    exact hfallback.symm

/-- Where fields declare a header and hold a draft, the draft has the names of the reference systems if
the header has both, and none otherwise. -/
theorem Header.DeclaredBy.names {j : Fields} {h : Header} {d : MeshDraft} {heading : Exchange.Heading}
    (hheader : h.DeclaredBy j) (hdraft : d.ReadFrom j heading) :
    d.inputCrs = (if (h.inputCrs.isSome && h.outputCrs.isSome) = true then h.inputCrs else none) ∧
      d.outputCrs = if (h.inputCrs.isSome && h.outputCrs.isSome) = true then h.outputCrs else none := by
  obtain ⟨input, output, hinput, houtput, hnames⟩ := hdraft.names
  rw [Exchange.text_of_header hheader.inputCrs] at hinput
  rw [Exchange.text_of_header hheader.outputCrs] at houtput
  cases hinput
  cases houtput
  exact hnames

/-- The header of a text is declared by the fields of an object. -/
theorem Header.parse_eq_ok {s : String} {h : Header} {j : Fields} (hparse : Header.parse s = .ok h)
    (hj : Json.parse s = .ok (.object j)) : h.DeclaredBy j := by
  rw [Header.parse, hj] at hparse
  exact Header.ofFields?_eq_ok hparse

/-- **A conversion keeps the header, but for a lone name.**  If a text is accepted as a header and as an
exchange document, and the draft of the document is accepted and has finite shift bounds, then the
header of the draft can be read, and it has the components and the strategy of the header of the text.
The names in the header of the text are those under their keys; the header of the draft has both if
both are there and none otherwise, so the names agree exactly if both are there or neither. -/
theorem conversion_keeps_header {text : String} {h : Header} {d : MeshDraft}
    (hheader : Header.parse text = .ok h) (hdraft : MeshDraft.ofExchange? text = .ok d)
    (hvalid : d.validate = .ok ()) (hfinite : d.horizontal = true → d.FiniteShift) :
    ∃ (j : Fields) (h' : Header),
      Json.parse text = .ok (.object j) ∧ Header.parse d.headerText = .ok h' ∧
      h'.horizontal = h.horizontal ∧ h'.vertical = h.vertical ∧ h'.fallback = h.fallback ∧
      j.get? "input_crs" = h.inputCrs.map Value.string ∧
      j.get? "output_crs" = h.outputCrs.map Value.string ∧
      (h'.inputCrs, h'.outputCrs) = (if (h.inputCrs.isSome && h.outputCrs.isSome) = true
        then (h.inputCrs, h.outputCrs) else (none, none)) ∧
      (h'.inputCrs = h.inputCrs ∧ h'.outputCrs = h.outputCrs ↔
        h.inputCrs.isSome = h.outputCrs.isSome) := by
  obtain ⟨j, heading, hj, hread⟩ := MeshDraft.ofExchange?_eq_ok hdraft
  have hdeclared := Header.parse_eq_ok hheader hj
  have haccepted : d.Accepted := MeshDraft.validate_eq_ok.mp hvalid
  obtain ⟨shift, hparse⟩ := haccepted.exists_parse_headerText hfinite
  obtain ⟨hhorizontal, hvertical, hfallback⟩ := hdeclared.agrees hread
  obtain ⟨hinput, houtput⟩ := hdeclared.names hread
  refine ⟨j, haccepted.header shift, hj, hparse, hhorizontal, hvertical, hfallback,
    Header.optionalText_eq_ok.mp hdeclared.inputCrs, Header.optionalText_eq_ok.mp hdeclared.outputCrs,
    ?_, ?_⟩
  · change (d.inputCrs, d.outputCrs) = _
    rw [hinput, houtput]
    split_ifs <;> rfl
  · change d.inputCrs = h.inputCrs ∧ d.outputCrs = h.outputCrs ↔ _
    rw [hinput, houtput]
    cases h.inputCrs <;> cases h.outputCrs <;> simp

/-- The draft of the document with both names, or with neither. -/
def raisedDraft (input output : Option String) : MeshDraft where
  vertices :=
    [⟨⟨0, 0⟩, some ⟨1, 0⟩, none, none, some 5⟩,
      ⟨⟨0x3FF0000000000000, 0⟩, some ⟨3, 0⟩, none, none, some 5⟩,
      ⟨⟨0, 0x3FF0000000000000⟩, some ⟨1, 1⟩, none, none, some 6⟩]
  triangles := [⟨0, 1, 2⟩]
  horizontal := true
  vertical := some .offset
  fallback := .nearestSide
  inputCrs := input
  outputCrs := output

/-- Its shift bounds are finite and it has no inconsistency. -/
theorem raisedDraft_accepted (input output : Option String) :
    (raisedDraft input output).validate = .ok () ∧ (raisedDraft input output).FiniteShift := by
  have hvalid : (raisedDraft none none).validate = .ok () := by decide +kernel
  have hfinite : (raisedDraft none none).FiniteShift := by
    unfold MeshDraft.FiniteShift
    decide +kernel
  exact ⟨hvalid, hfinite⟩

theorem ofExchange?_raisedText :
    MeshDraft.ofExchange? (raisedText "nearest_side" "EPSG:2393" (some "EPSG:3067")) =
        .ok (raisedDraft (some "EPSG:2393") (some "EPSG:3067")) ∧
      MeshDraft.ofExchange? (raisedText "nearest_side" "EPSG:2393" none) =
        .ok (raisedDraft none none) := by
  rw [MeshDraft.ofExchange?, MeshDraft.ofExchange?, parse_raisedText, parse_raisedText]
  constructor
  · change MeshDraft.ofFields? _ = _
    decide +kernel
  · change MeshDraft.ofFields? _ = _
    decide +kernel

/-- The document is a header too, which names what the document names. -/
theorem exists_parse_raisedText {output : Option String} (h : output = none ∨ output = some "EPSG:3067") :
    ∃ header, Header.parse (raisedText "nearest_side" "EPSG:2393" output) = .ok header ∧
      header.inputCrs = some "EPSG:2393" ∧ header.outputCrs = output := by
  have hnames : ((Header.ofFields? (raisedFields "nearest_side" "EPSG:2393" output)).map fun header =>
      (header.inputCrs, header.outputCrs)) = .ok (some "EPSG:2393", output) := by
    rcases h with rfl | rfl <;> decide +kernel
  rw [Header.parse, parse_raisedText]
  change ∃ header, Header.ofFields? _ = _ ∧ _
  cases hread : Header.ofFields? (raisedFields "nearest_side" "EPSG:2393" output) with
  | error e =>
    rw [hread] at hnames
    cases hnames
  | ok header =>
    rw [hread] at hnames
    injection hnames with hnames
    injection hnames with hinput houtput
    exact ⟨header, rfl, hinput, houtput⟩

theorem raised_conversion_keeps_header :
    ∃ h h' : Header,
      Header.parse (raisedText "nearest_side" "EPSG:2393" (some "EPSG:3067")) = .ok h ∧
      MeshDraft.ofExchange? (raisedText "nearest_side" "EPSG:2393" (some "EPSG:3067")) =
        .ok (raisedDraft (some "EPSG:2393") (some "EPSG:3067")) ∧
      (raisedDraft (some "EPSG:2393") (some "EPSG:3067")).validate = .ok () ∧
      (raisedDraft (some "EPSG:2393") (some "EPSG:3067")).FiniteShift ∧
      Header.parse (raisedDraft (some "EPSG:2393") (some "EPSG:3067")).headerText = .ok h' ∧
      h'.fallback = h.fallback ∧ h'.inputCrs = some "EPSG:2393" ∧ h'.outputCrs = some "EPSG:3067" := by
  obtain ⟨h, hheader, hinput, houtput⟩ := exists_parse_raisedText (Or.inr rfl)
  have hdraft := ofExchange?_raisedText.1
  obtain ⟨hvalid, hfinite⟩ := raisedDraft_accepted (some "EPSG:2393") (some "EPSG:3067")
  obtain ⟨_, h', -, hparse, -, -, hfallback, -, -, -, hagree⟩ :=
    conversion_keeps_header hheader hdraft hvalid fun _ => hfinite
  obtain ⟨hinput', houtput'⟩ := hagree.mpr (by rw [hinput, houtput]; rfl)
  exact ⟨h, h', hheader, hdraft, hvalid, hfinite, hparse, hfallback, hinput'.trans hinput,
    houtput'.trans houtput⟩

/-- A document that names one reference system only: the name is in its header, and is not in the
header of the draft. -/
theorem lone_name_lost :
    ∃ (h h' : Header) (d : MeshDraft),
      Header.parse (raisedText "nearest_side" "EPSG:2393" none) = .ok h ∧
      MeshDraft.ofExchange? (raisedText "nearest_side" "EPSG:2393" none) = .ok d ∧
      d.validate = .ok () ∧ d.FiniteShift ∧ Header.parse d.headerText = .ok h' ∧
      h.inputCrs = some "EPSG:2393" ∧ h'.inputCrs = none := by
  obtain ⟨h, hheader, hinput, -⟩ := exists_parse_raisedText (Or.inl rfl)
  obtain ⟨hvalid, hfinite⟩ := raisedDraft_accepted none none
  have haccepted := MeshDraft.validate_eq_ok.mp hvalid
  obtain ⟨shift, hparse⟩ := haccepted.exists_parse_headerText fun _ => hfinite
  exact ⟨h, haccepted.header shift, raisedDraft none none, hheader, ofExchange?_raisedText.2, hvalid,
    hfinite, hparse, hinput, rfl⟩

end ShiftMesh
