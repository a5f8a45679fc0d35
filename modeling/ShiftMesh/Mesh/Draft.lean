import ShiftMesh.Json.Printer
import ShiftMesh.Mesh.Schema

/-!
# ShiftMesh.Mesh.Draft — a mesh being authored

* `VertexRecord`: a vertex with the corrections known at it.  Its position is kept as two words, so
  that it is stored as it was given even if it is no number.
* `MeshDraft`: vertices, triangles by zero-based vertex numbers, and the declared components.
* `MeshDraft.validate`: the first inconsistency, in a fixed order: no vertices or no triangles, a
  corner that refers to no vertex, a vertex without the values that the components need, an
  advertised count of zero, an empty extent.
* `MeshDraft.headerValue`: the header that the draft declares, as JSON.
-/

namespace ShiftMesh

/-- A vertex with the corrections known at it. -/
structure VertexRecord where
  /-- The words of the source position. -/
  sourceWords : Point UInt64
  target : Option (Point Float) := none
  sourceZ : Option Float := none
  targetZ : Option Float := none
  offsetZ : Option Float := none
  deriving Repr, BEq, DecidableEq, Inhabited

/-- A mesh being authored. -/
structure MeshDraft where
  vertices : List VertexRecord := []
  /-- The corners of each triangle, as zero-based vertex numbers. -/
  triangles : List (Corners Nat) := []
  /-- Whether positions are corrected. -/
  horizontal : Bool := false
  /-- How heights are corrected, if they are. -/
  vertical : Option VerticalEncoding := none
  fallback : FallbackStrategy := .none
  /-- The advertised vertex count, in place of the actual one. -/
  vertexCount : Option UInt32 := none
  /-- The reference system of the stored positions. -/
  srsId : Int32 := -1
  inputCrs : Option String := none
  outputCrs : Option String := none
  deriving Repr, DecidableEq, Inhabited

namespace VertexRecord

/-- The source position. -/
def source (v : VertexRecord) : Point Float := .ofWords v.sourceWords

/-- Whether a vertex has the values of an encoding. -/
def hasHeights (v : VertexRecord) : Option VerticalEncoding → Bool
  | some .paired => v.sourceZ.isSome && v.targetZ.isSome
  | some .offset => v.offsetZ.isSome
  | none => true

/-- The horizontal shift at a vertex. -/
def shift? (v : VertexRecord) : Option (Point Float) := v.target.map (· - v.source)

end VertexRecord

namespace MeshDraft

/-! ## Measures -/

/-- The box of the source positions. -/
def extent (d : MeshDraft) : Extent Float :=
  d.vertices.foldl (fun e v => ⟨e.min.lower v.source, e.max.upper v.source⟩)
    ⟨.diagonal infinity, .diagonal (-infinity)⟩

/-- The range of the shifts over the vertices that have a target. -/
def shiftRange (d : MeshDraft) : ShiftRange Float :=
  .ofShifts (d.vertices.filterMap VertexRecord.shift?)

/-! ## Validation -/

/-- The first corner of a triangle that refers to no vertex. -/
def danglingCorner? (count : Nat) (t : Corners Nat) : Option Nat :=
  t.toList.find? fun c => decide (count ≤ c)

/-- Every corner of the triangles, counted from `first`, refers to a vertex. -/
def checkTriangles (count : Nat) : (first : Nat) → List (Corners Nat) → Except MeshFault Unit
  | _, [] => .ok ()
  | i, t :: rest =>
    match danglingCorner? count t with
    | some c => .error (.danglingCorner i c count)
    | none => checkTriangles count (i + 1) rest

/-- Every vertex, counted from `first`, has the values that the components need. -/
def checkVertices (horizontal : Bool) (vertical : Option VerticalEncoding) :
    (first : Nat) → List VertexRecord → Except MeshFault Unit
  | _, [] => .ok ()
  | i, v :: rest =>
    if horizontal && v.target.isNone then .error (.noTarget i)
    else if !v.hasHeights vertical then .error (.noHeights i)
    else checkVertices horizontal vertical (i + 1) rest

/-- A box with no width or no height. -/
def isFlat (e : Extent Float) : Bool := decide (e.max.x ≤ e.min.x) || decide (e.max.y ≤ e.min.y)

/-- The first inconsistency of a draft, if there is one. -/
def validate (d : MeshDraft) : Except MeshFault Unit := do
  if d.vertices.isEmpty || d.triangles.isEmpty then
    throw .empty
  checkTriangles d.vertices.length 0 d.triangles
  checkVertices d.horizontal d.vertical 0 d.vertices
  if d.vertexCount = some 0 then
    throw .zeroVertexCount
  if isFlat d.extent then
    throw .emptyExtent

/-! ## The header -/

/-- The version of the headers that drafts declare. -/
def formatVersion : String := "1.0"

/-- The advertised vertex count: the given one, or the actual one up to the largest 32-bit
number. -/
def advertisedCount (d : MeshDraft) : Nat :=
  match d.vertexCount with
  | some n => n.toNat
  | none => min d.vertices.length (Nat.pow 2 32 - 1)

/-- The names of the declared components. -/
def componentNames (d : MeshDraft) : List String :=
  (if d.horizontal then ["horizontal"] else []) ++ (if d.vertical.isSome then ["vertical"] else [])

/-- A double as JSON; a value that is not finite has no JSON number. -/
def doubleValue (x : Float) : Json.Value := if x.isFinite then .number (.double x) else .null

/-- The fields of the header that the draft declares. -/
def headerFields (d : MeshDraft) : List (String × Json.Value) :=
  [("file_type", .string Header.fileType),
    ("format_version", .string formatVersion),
    ("transformed_components", .array (d.componentNames.map .string)),
    ("fallback_strategy", .string d.fallback.name),
    ("num_vertices", .number (.whole d.advertisedCount))] ++
  (if d.horizontal then
    [("min_shift_x", doubleValue d.shiftRange.min.x),
      ("min_shift_y", doubleValue d.shiftRange.min.y),
      ("max_shift_x", doubleValue d.shiftRange.max.x),
      ("max_shift_y", doubleValue d.shiftRange.max.y)]
  else []) ++
  (d.inputCrs.map fun crs => ("input_crs", Json.Value.string crs)).toList ++
  (d.outputCrs.map fun crs => ("output_crs", Json.Value.string crs)).toList

/-- The header that the draft declares. -/
def headerValue (d : MeshDraft) : Json.Value := .object (Json.Fields.ofList d.headerFields)

/-- The text of the header. -/
def headerText (d : MeshDraft) : String := Json.print d.headerValue

end MeshDraft

end ShiftMesh
