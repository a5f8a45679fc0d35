import ShiftMesh.Container.Edit
import ShiftMesh.Mesh.Schema

/-!
# ShiftMesh.Container.Store — opening a container, and streaming its triangles

* `Content`: what stands in a file; `Content.database` is its database, the empty one for no bytes.
* `Database.header`, `Database.extent`, `Database.schema`: the three readings that opening makes.
* `CandidateQuery`: the columns that a query fetches, and where they stand; it can be prepared if
  the tables and columns that it needs exist and each name stands for one column.
* `readRow`: a row of the query's result, cell by cell; a row has three positions and three values
  for each column.
* `MeshStore.read`: the five stages of opening in order; the first that fails decides the error.
* `MeshStore.source`: the triangles of an open mesh, as its container holds them now.
-/

namespace ShiftMesh.Container

/-- What stands in a file. -/
inductive Content where
  | database (db : Database)
  | text (s : String)
  | bytes (b : Blob)
  deriving Repr, Inhabited

/-- The database in a file; a file without bytes is a database without tables. -/
def Content.database? : Content → Except StorageFault Database
  | database db => .ok db
  | text s => if s.isEmpty then .ok {} else .error .notADatabase
  | bytes b => if b.isEmpty then .ok {} else .error .notADatabase

namespace Database

/-! ## The readings of opening -/

/-- The documents under the standard of mesh headers. -/
def headerDocuments (db : Database) : Except StorageFault (List (Option String)) := do
  let rows ← rowsOf .metadata db.metadata
  let filed := rows.filter fun r => r.standardUri = .text headerStandard
  filed.mapM fun r => r.document.toText? "metadata"

/-- The header: exactly one document must be filed under the standard. -/
def header (db : Database) : Except MetadataFault Header :=
  match db.headerDocuments with
  | .error e => .error (.unreadable e)
  | .ok [some text] => Header.parse text
  | .ok _ => .error .noSingleHeader

/-- The four bounds of an entry of the table of contents. -/
def bounds (r : ContentsEntry) : Except StorageFault (List (Option Float)) :=
  [("min_x", r.minX), ("min_y", r.minY), ("max_x", r.maxX), ("max_y", r.maxY)].mapM fun c =>
    c.2.toFloat? c.1

/-- The bounds of the entries of the vertices. -/
def listedBounds (db : Database) : Except StorageFault (List (List (Option Float))) := do
  let rows ← rowsOf .contents db.contents
  (rows.filter fun r => r.tableName = verticesTable).mapM bounds

/-- The extent: exactly one entry must list the vertices, with four bounds. -/
def extent (db : Database) : Except MetadataFault (Extent Float) :=
  match db.listedBounds with
  | .error e => .error (.extentUnreadable e)
  | .ok [[some minX, some minY, some maxX, some maxY]] =>
    Extent.ofCorners? ⟨minX, minY⟩ ⟨maxX, maxY⟩
  | .ok _ => .error .noSingleExtent

/-- The names of the columns of the vertices, the key first; none if the table is missing. -/
def vertexColumns (db : Database) : List String :=
  match db.vertices with
  | none => []
  | some t => VertexTable.keyColumn :: t.columns.map (·.name)

/-- The known columns of the vertices. -/
def schema (db : Database) : Except SchemaFault VertexSchema :=
  if db.vertexColumns.isEmpty then .error .noDefinition else .ok (.ofColumns db.vertexColumns)

end Database

/-! ## The candidate query -/

/-- Where the positions and the requested columns stand among the columns of the vertices. -/
structure CandidateQuery where
  geometry : Nat
  values : List Nat
  deriving Repr, BEq, DecidableEq, Inhabited

/-- The columns that a mesh requests for each corner. -/
def requestedColumns (m : MeshMetadata Float) : List String := valueColumns m.horizontal m.vertical

/-- The first corner column of the triangles whose name is that of a column of the vertices too. -/
def VertexTable.ambiguous? (t : VertexTable) : Option String :=
  TriangleEntry.cornerColumns.find? fun c => (t.position? c).isSome

/-- The query for the given columns.  It joins the vertices by the corner columns of the triangles,
and names these without their table. -/
def VertexTable.prepare (t : VertexTable) (columns : List String) :
    Except StorageFault CandidateQuery := do
  let geometry ← t.position VertexTable.geometryColumn
  let values ← columns.mapM t.position
  match t.ambiguous? with
  | some c => .error (.ambiguousColumn c)
  | none => pure ⟨geometry, values⟩

/-- The three tables that a candidate query reads. -/
structure MeshTables where
  vertices : VertexTable
  triangles : List TriangleEntry
  index : List IndexEntry
  deriving Repr, BEq, DecidableEq, Inhabited

/-- The tables that a candidate query reads, all of which must exist. -/
def Database.meshTables (db : Database) : Except StorageFault MeshTables := do
  let triangles ← rowsOf .triangles db.triangles
  let vertices ← rowsOf .vertices db.vertices
  let index ← rowsOf .index db.index
  pure ⟨vertices, triangles, index⟩

namespace CandidateQuery

/-- The result row of a triangle: the positions of its three corners, then for each requested column
the values at the three corners. -/
def resultRow (q : CandidateQuery) (t : VertexTable) (entry : TriangleEntry) : List Cell :=
  let corners := entry.vertices.map t.row?
  (q.geometry :: q.values).flatMap fun position =>
    (corners.map fun v => VertexEntry.cellAt v position).toList

/-- The triangles that are in the index with a box that meets the window, in the order of their
keys. -/
def matching (tables : MeshTables) (w : Window Float) : List TriangleEntry :=
  let found := tables.index.filter fun e => e.meets w
  tables.triangles.filter fun t => found.any fun e => e.id = t.fid

/-- The result rows of a window. -/
def results (q : CandidateQuery) (tables : MeshTables) (w : Window Float) : List (List Cell) :=
  (matching tables w).map (q.resultRow tables.vertices)

end CandidateQuery

/-! ## Reading result rows -/

/-- Reads the next three cells of a result row; also the cells left over. -/
def readThree {τ : Type} (read : Cell → Except StorageFault τ) :
    List Cell → Except StorageFault (Corners τ × List Cell)
  | a :: b :: c :: rest => do
    let first ← read a
    let second ← read b
    let third ← read c
    pure (⟨first, second, third⟩, rest)
  | _ => .error (.wrongCell "")

/-- Reads the target corners of a result row: the three first coordinates, then the three second
ones. -/
def readTarget (cells : List Cell) : Except StorageFault (Triangle Float × List Cell) := do
  let (xs, cells) ← readThree (Cell.toFloat "target_x") cells
  let (ys, cells) ← readThree (Cell.toFloat "target_y") cells
  pure (⟨⟨xs.first, ys.first⟩, ⟨xs.second, ys.second⟩, ⟨xs.third, ys.third⟩⟩, cells)

/-- Reads the height corrections of a result row. -/
def readHeights (encoding : VerticalEncoding) (cells : List Cell) :
    Except StorageFault (VerticalValues Float × List Cell) :=
  match encoding with
  | .paired => do
    let (source, cells) ← readThree (Cell.toFloat "source_z") cells
    let (target, cells) ← readThree (Cell.toFloat "target_z") cells
    pure (.paired source target, cells)
  | .offset => do
    let (values, cells) ← readThree (Cell.toFloat "offset_z") cells
    pure (.offset values, cells)

/-- Reads a part of a result row that is there only if the mesh asks for it. -/
def readIf {κ τ : Type} (read : κ → List Cell → Except StorageFault (τ × List Cell))
    (wanted : Option κ) (cells : List Cell) : Except StorageFault (Option τ × List Cell) :=
  match wanted with
  | none => .ok (none, cells)
  | some k => (read k cells).map fun (v, rest) => (some v, rest)

/-- Reads a result row; also the cells left over. -/
def readRow (m : MeshMetadata Float) (cells : List Cell) :
    Except StorageFault (TriangleRow Blob Float × List Cell) := do
  let (geometry, cells) ← readThree (Cell.toBlob VertexTable.geometryColumn) cells
  let (target, cells) ← readIf (fun () => readTarget) (if m.horizontal then some () else none) cells
  let (vertical, cells) ← readIf readHeights m.vertical cells
  pure ({ geometry, target, vertical }, cells)

/-! ## Open meshes -/

/-- A mesh that has been opened: what is known about it. -/
structure MeshStore where
  metadata : MeshMetadata Float
  schema : VertexSchema
  deriving Repr

namespace MeshStore

/-- Opens a database: the header, the extent, the columns, their validation, and the preparation of
the query. -/
def read (db : Database) : Except MeshError MeshStore :=
  match db.header with
  | .error e => .error (.metadata e)
  | .ok header =>
    match db.extent with
    | .error e => .error (.metadata e)
    | .ok extent =>
      match db.schema with
      | .error e => .error (.schema e)
      | .ok schema =>
        match schema.validate header with
        | .error e => .error (.schema e)
        | .ok vertical =>
          let metadata := header.toMetadata extent vertical
          let columns := requestedColumns metadata
          match db.meshTables.bind fun tables => tables.vertices.prepare columns with
          | .error e => .error (.queryPreparation e)
          | .ok _ => .ok ⟨metadata, schema⟩

/-- Opens what stands in a file. -/
def ofContent (content : Content) : Except MeshError MeshStore :=
  match content.database? with
  | .error e => .error (.metadata (.unreadable e))
  | .ok db => read db

/-- A result row as a triangle, or the failure of reading it. -/
def row (m : MeshMetadata Float) (cells : List Cell) : Except MeshError (TriangleRow Blob Float) :=
  match readRow m cells with
  | .error e => .error (.storage e)
  | .ok (r, _) => .ok r

/-- The rows of a window, as the content holds them now. -/
def stream (s : MeshStore) (content : Content) (w : Window Float) : RowStream Blob Float :=
  let results : Except StorageFault (List (List Cell)) := do
    let db ← content.database?
    let tables ← db.meshTables
    let query ← tables.vertices.prepare (requestedColumns s.metadata)
    pure (query.results tables w)
  match results with
  | .error e => { rows := [], failure := some (.storage e) }
  | .ok rows => .ofResults (rows.map (row s.metadata))

/-- The triangles of an open mesh, as its content holds them now. -/
def source (s : MeshStore) (content : Content) : TriangleSource Blob Float :=
  ⟨s.metadata, s.stream content⟩

end MeshStore

end ShiftMesh.Container
