import ShiftMesh.Mesh.Draft

/-!
# ShiftMesh.Mesh.Exchange — drafts from exchange documents

An exchange document is a JSON object with the keys of a header and the mesh itself:
`vertices_columns` names the values of each row of `vertices`, `triangles_columns` those of each row
of `triangles`; triangles refer to vertices by zero-based numbers.

* `VertexColumns`, `cornerColumns`: where the known columns stand.  Target and height columns count
  in pairs.
* `VertexColumns.record?`: a vertex from its row; the length of the row is checked before any value
  is taken.
* `Exchange.heading?`, `MeshDraft.readFallback`, `Exchange.mesh?`: the three parts of a document, by
  checks in a fixed order; `MeshDraft.ofExchange?` is the draft of a document.
-/

namespace ShiftMesh

/-- Where the known columns stand in a vertex row. -/
structure VertexColumns where
  sourceX : Nat
  sourceY : Nat
  target : Option (Nat × Nat)
  heights : Option (Nat × Nat)
  offsetZ : Option Nat
  /-- The number of columns. -/
  length : Nat
  deriving Repr, BEq, DecidableEq, Inhabited

namespace Exchange

/-! ## Keys -/

/-- The text of a key that may be absent. -/
def text (j : Json.Fields) (key : String) : Except MeshFault (Option String) :=
  match j.get? key with
  | none => .ok none
  | some v =>
    match v.text? with
    | none => .error (.notAString key)
    | some s => .ok (some s)

/-- The items of a required key. -/
def items (j : Json.Fields) (key : String) : Except MeshFault (List Json.Value) :=
  match j.get? key with
  | none => .error (.missingKey key)
  | some v =>
    match v.items? with
    | none => .error (.notAnArray key)
    | some vs => .ok vs

/-! ## Columns -/

/-- Where a name first stands in a list of columns. -/
def position? (names : List Json.Value) (wanted : String) : Option Nat :=
  names.findIdx? fun v => v.text? = some wanted

/-- Where a required name first stands. -/
def position (list : String) (names : List Json.Value) (wanted : String) : Except MeshFault Nat :=
  match position? names wanted with
  | none => .error (.missingColumn list wanted)
  | some i => .ok i

/-- Where two names stand, if both do. -/
def pair? (names : List Json.Value) (a b : String) : Option (Nat × Nat) := do
  let i ← position? names a
  let k ← position? names b
  pure (i, k)

/-- Where the known columns of a vertex row stand. -/
def vertexColumns (names : List Json.Value) : Except MeshFault VertexColumns := do
  let sourceX ← position "vertices_columns" names "source_x"
  let sourceY ← position "vertices_columns" names "source_y"
  pure
    { sourceX
      sourceY
      target := pair? names "target_x" "target_y"
      heights := pair? names "source_z" "target_z"
      offsetZ := position? names "offset_z"
      length := names.length }

/-- Where the three corners stand in a triangle row. -/
def cornerColumns (names : List Json.Value) : Except MeshFault (Corners Nat) := do
  let first ← position "triangles_columns" names "idx_vertex1"
  let second ← position "triangles_columns" names "idx_vertex2"
  let third ← position "triangles_columns" names "idx_vertex3"
  pure ⟨first, second, third⟩

/-! ## Rows -/

/-- Reads each item of a row; nothing if one of them is of another kind. -/
def readItems {τ : Type} (read : Json.Value → Option τ) : List Json.Value → Option (List τ)
  | [] => some []
  | v :: rest => do
    let a ← read v
    let others ← readItems read rest
    pure (a :: others)

/-- Reads the items of a row. -/
def readRow {τ : Type} (read : Json.Value → Option τ) (row : Json.Value) : Option (List τ) := do
  readItems read (← row.items?)

end Exchange

namespace VertexColumns

/-- The value at a column. -/
def value (row : List Float) (column : Nat) : Float := row.getD column 0

/-- The vertex of a row; a row of another length is refused before any value is taken. -/
def record? (c : VertexColumns) (index : Nat) (row : List Float) : Except MeshFault VertexRecord :=
  if row.length ≠ c.length then .error (.vertexLength index row.length c.length)
  else
    .ok
      { sourceWords := Point.words ⟨value row c.sourceX, value row c.sourceY⟩
        target := c.target.map fun t => ⟨value row t.1, value row t.2⟩
        sourceZ := c.heights.map fun h => value row h.1
        targetZ := c.heights.map fun h => value row h.2
        offsetZ := c.offsetZ.map fun o => value row o }

end VertexColumns

namespace Exchange

/-- The vertices of rows, counted from `first`. -/
def readVertices (c : VertexColumns) :
    (first : Nat) → List Json.Value → Except MeshFault (List VertexRecord)
  | _, [] => .ok []
  | i, row :: rest =>
    match readRow Json.Value.float? row with
    | none => .error (.vertexNotNumbers i)
    | some values => do
      let v ← c.record? i values
      let others ← readVertices c (i + 1) rest
      pure (v :: others)

/-- The triangles of rows of `length` indices, counted from `first`. -/
def readTriangles (columns : Corners Nat) (length : Nat) :
    (first : Nat) → List Json.Value → Except MeshFault (List (Corners Nat))
  | _, [] => .ok []
  | i, row :: rest =>
    match (readRow Json.Value.nat? row).filter fun indices => indices.length = length with
    | none => .error (.triangleNotIndices i)
    | some indices => do
      let others ← readTriangles columns length (i + 1) rest
      pure (columns.map (indices.getD · 0) :: others)

/-- Adds the named components. -/
def readComponents (c : Components) : List Json.Value → Except MeshFault Components
  | [] => .ok c
  | v :: rest =>
    if v.text? = some "horizontal" then readComponents { c with horizontal := true } rest
    else if v.text? = some "vertical" then readComponents { c with vertical := true } rest
    else .error (.unknownComponent (Json.print v))

/-- The encoding of the heights: pairs before offsets. -/
def encoding (vertical : Bool) (c : VertexColumns) : Except MeshFault (Option VerticalEncoding) :=
  if !vertical then .ok none
  else if c.heights.isSome then .ok (some .paired)
  else if c.offsetZ.isSome then .ok (some .offset)
  else .error .noHeightColumns

/-- What a document declares before its fallback strategy. -/
structure Heading where
  components : Components
  columns : VertexColumns
  vertical : Option VerticalEncoding
  corners : Corners Nat
  /-- The number of columns of a triangle row. -/
  cornerCount : Nat
  deriving Repr, BEq, DecidableEq, Inhabited

/-- The heading of the fields of a document. -/
def heading? (j : Json.Fields) : Except MeshFault Heading := do
  if (← text j "file_type") ≠ some Header.fileType then
    throw .wrongFileType
  let version := (← text j "format_version").getD ""
  if !Header.supportsVersion version then
    throw (.unsupportedVersion version)
  let components ← readComponents {} (← items j "transformed_components")
  let columns ← vertexColumns (← items j "vertices_columns")
  if components.horizontal && columns.target.isNone then
    throw .noTargetColumns
  let vertical ← encoding components.vertical columns
  let cornerNames ← items j "triangles_columns"
  let corners ← cornerColumns cornerNames
  pure ⟨components, columns, vertical, corners, cornerNames.length⟩

/-- The draft of a document with this heading and fallback strategy.  The names of the reference
systems count in a pair. -/
def mesh? (j : Json.Fields) (h : Heading) (fallback : FallbackStrategy) :
    Except MeshFault MeshDraft := do
  let inputCrs ← text j "input_crs"
  let outputCrs ← text j "output_crs"
  let named := inputCrs.isSome && outputCrs.isSome
  let vertices ← readVertices h.columns 0 (← items j "vertices")
  let triangles ← readTriangles h.corners h.cornerCount 0 (← items j "triangles")
  pure
    { vertices
      triangles
      horizontal := h.components.horizontal
      vertical := h.vertical
      fallback
      inputCrs := if named then inputCrs else none
      outputCrs := if named then outputCrs else none }

end Exchange

namespace MeshDraft

open Exchange

/-- Widens a result to the errors of the library. -/
def lift {τ : Type} : Except MeshFault τ → Except MeshError τ
  | .error e => .error (.invalidMesh e)
  | .ok a => .ok a

/-- The fallback strategy of a document, none if the key is absent. -/
def readFallback (j : Json.Fields) : Except MeshError FallbackStrategy := do
  match ← lift (text j "fallback_strategy") with
  | none => pure .none
  | some name =>
    match FallbackStrategy.ofName? name with
    | .error e => .error (.metadata e)
    | .ok s => pure s

/-- The draft of the fields of a document: its heading, its fallback strategy, then the rest. -/
def ofFields? (j : Json.Fields) : Except MeshError MeshDraft := do
  let heading ← lift (heading? j)
  let fallback ← readFallback j
  lift (mesh? j heading fallback)

/-- The draft of an exchange document. -/
def ofExchange? (s : String) : Except MeshError MeshDraft :=
  match Json.parse s with
  | .error fault => .error (.invalidMesh (.malformed fault))
  | .ok v =>
    match v.fields? with
    | none => .error (.invalidMesh .notAnObject)
    | some j => ofFields? j

end MeshDraft

end ShiftMesh
