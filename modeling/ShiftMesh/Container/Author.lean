import ShiftMesh.Container.Database
import ShiftMesh.Mesh.Draft

/-!
# ShiftMesh.Container.Author — the container of a draft

* `MeshDraft.database`: the tables of a draft: the reference systems, the table of contents with the
  extent, the header, the vertices with the columns of the declared components, the triangles by
  one-based vertex keys, and the index of their boxes.
* `MeshDraft.author`: the same for a draft without inconsistency.
-/

namespace ShiftMesh

open Container

namespace VertexRecord

/-- The value of a vertex in a named column. -/
def value? (v : VertexRecord) (column : String) : Option Float :=
  if column = "target_x" then v.target.map (·.x)
  else if column = "target_y" then v.target.map (·.y)
  else if column = "source_z" then v.sourceZ
  else if column = "target_z" then v.targetZ
  else if column = "offset_z" then v.offsetZ
  else none

/-- The cell of a vertex in a named column. -/
def cell (v : VertexRecord) (column : String) : Cell :=
  match v.value? column with
  | none => .null
  | some x => (Cell.ofFloat x).inColumn "DOUBLE"

end VertexRecord

namespace MeshDraft

/-- The columns of the declared components. -/
def columns (d : MeshDraft) : List String := valueColumns d.horizontal d.vertical

/-- The reference systems of every container, and the one of the mesh if it is positive. -/
def referenceSystems (d : MeshDraft) : List ReferenceSystem :=
  [⟨"Undefined cartesian SRS", -1, "NONE", -1, "undefined", none⟩,
    ⟨"Undefined geographic SRS", 0, "NONE", 0, "undefined", none⟩] ++
  if 0 < d.srsId.toInt then
    [⟨d.inputCrs.getD "unknown", d.srsId.toInt, "NONE", d.srsId.toInt, "undefined", none⟩]
  else []

/-- The entry of the vertices in the table of contents. -/
def contentsEntry (d : MeshDraft) : ContentsEntry where
  tableName := verticesTable
  dataType := "features"
  identifier := verticesTable
  description := ""
  minX := (Cell.ofFloat d.extent.min.x).inColumn "DOUBLE"
  minY := (Cell.ofFloat d.extent.min.y).inColumn "DOUBLE"
  maxX := (Cell.ofFloat d.extent.max.x).inColumn "DOUBLE"
  maxY := (Cell.ofFloat d.extent.max.y).inColumn "DOUBLE"
  srsId := d.srsId.toInt

/-- The document that holds the header. -/
def metadataEntry (d : MeshDraft) : MetadataEntry where
  id := 1
  scope := "dataset"
  standardUri := .text headerStandard
  mimeType := "application/json"
  document := .text d.headerText

/-- The stored form of a vertex. -/
def vertexEntry (d : MeshDraft) (fid : Int) (v : VertexRecord) : VertexEntry :=
  let position := PointBlob.encodeWords PointBlob.stored d.srsId v.sourceWords
  ⟨fid, .blob position :: d.columns.map v.cell⟩

/-- The stored form of vertices, with keys from `fid` on. -/
def vertexEntries (d : MeshDraft) : (fid : Nat) → List VertexRecord → List VertexEntry
  | _, [] => []
  | fid, v :: rest => d.vertexEntry fid v :: d.vertexEntries (fid + 1) rest

/-- The stored vertices. -/
def vertexTable (d : MeshDraft) : VertexTable where
  columns := ⟨VertexTable.geometryColumn, "POINT"⟩ :: d.columns.map fun c => ⟨c, "DOUBLE"⟩
  rows := d.vertexEntries 1 d.vertices

/-- The stored form of triangles, with keys from `fid` on; the keys of vertices count from one. -/
def triangleEntries : (fid : Nat) → List (Corners Nat) → List TriangleEntry
  | _, [] => []
  | fid, t :: rest => ⟨fid, t.map fun i : Nat => (i : Int) + 1⟩ :: triangleEntries (fid + 1) rest

/-- The source corners of a triangle, if its corners refer to vertices. -/
def sourceTriangle? (vertices : Array VertexRecord) (t : Corners Nat) :
    Option (Triangle Float) := do
  let a ← vertices[t.first]?
  let b ← vertices[t.second]?
  let c ← vertices[t.third]?
  pure ⟨a.source, b.source, c.source⟩

/-- The index entries of triangles, with keys from `fid` on. -/
def indexEntries (vertices : Array VertexRecord) :
    (fid : Nat) → List (Corners Nat) → List IndexEntry
  | _, [] => []
  | fid, t :: rest =>
    ((sourceTriangle? vertices t).map fun v => IndexEntry.ofBox fid v.boxMin v.boxMax).toList ++
      indexEntries vertices (fid + 1) rest

/-- The mark of a container of this kind. -/
def applicationId : Int := 0x47504B47

/-- The version of the container format. -/
def userVersion : Int := 10300

/-- The container of a draft. -/
def database (d : MeshDraft) : Database where
  applicationId := applicationId
  userVersion := userVersion
  referenceSystems := some d.referenceSystems
  contents := some [d.contentsEntry]
  geometryColumns :=
    some [⟨verticesTable, VertexTable.geometryColumn, "POINT", d.srsId.toInt, 0, 0⟩]
  metadata := some [d.metadataEntry]
  vertices := some d.vertexTable
  triangles := some (triangleEntries 1 d.triangles)
  index := some (indexEntries d.vertices.toArray 1 d.triangles)

/-- The container of a draft without inconsistency. -/
def author (d : MeshDraft) : Except MeshError Database :=
  match d.validate with
  | .error e => .error (.invalidMesh e)
  | .ok () => .ok d.database

end MeshDraft

end ShiftMesh
