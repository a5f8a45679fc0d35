import ShiftMesh.Container.Database
import ShiftMesh.Json.Printer
import ShiftMesh.Json.Reader

/-!
# ShiftMesh.Container.Edit — changes to the tables of a container

Each change is a function on `Database` that fails if the table or the column that it changes is
missing.

* the header: `setHeaderText`, `editHeader`, `setDocuments`, `copyHeader`;
* the table of contents: `setExtent`, `renameContents`;
* the vertices: `dropColumn`, `addColumn`, `setVertexKey`, `setVertexCell`;
* tables and rows: `dropTable`, `deleteRow`, `putTriangle`, `putIndexBox`.
-/

namespace ShiftMesh.Container

/-- The tables of a container by name. -/
inductive TableName where
  | referenceSystems
  | contents
  | geometryColumns
  | metadata
  | vertices
  | triangles
  | index
  deriving Repr, BEq, DecidableEq, Inhabited

/-- The stored name of a table. -/
def TableName.name : TableName → String
  | referenceSystems => "gpkg_spatial_ref_sys"
  | contents => "gpkg_contents"
  | geometryColumns => "gpkg_geometry_columns"
  | metadata => "gpkg_metadata"
  | vertices => verticesTable
  | triangles => "triangles_def"
  | index => "rtree_triangles_geom"

namespace TableName

/-- Every table. -/
def all : List TableName :=
  [referenceSystems, contents, geometryColumns, metadata, vertices, triangles, index]

/-- The table of a stored name. -/
def ofName? (s : String) : Option TableName := all.find? fun t => t.name = s

end TableName

/-- The rows of a table that must exist. -/
def rowsOf {ρ : Type} (table : TableName) : Option ρ → Except StorageFault ρ
  | none => .error (.noSuchTable table.name)
  | some rows => .ok rows

/-- Where a column stands that must exist. -/
def VertexTable.position (t : VertexTable) (column : String) : Except StorageFault Nat :=
  match t.position? column with
  | none => .error (.noSuchColumn column)
  | some i => .ok i

namespace Database

/-! ## The header -/

/-- Replaces the header text. -/
def setHeaderText (db : Database) (s : String) : Except StorageFault Database := do
  let rows ← rowsOf .metadata db.metadata
  pure { db with metadata := some (rows.map fun r => { r with document := .text s }) }

/-- The first document, which must be a text. -/
def headerText (db : Database) : Except StorageFault String := do
  match ← rowsOf .metadata db.metadata with
  | ⟨_, _, _, _, .text s⟩ :: _ => pure s
  | _ => .error (.wrongCell "metadata")

/-- Sets and removes keys of the header; a header that is no JSON object stays as it is. -/
def editHeader (db : Database) (set : List (String × Json.Value)) (remove : List String) :
    Except StorageFault Database := do
  let text ← db.headerText
  match (Json.parse text).toOption.bind Json.Value.fields? with
  | none => pure db
  | some fields =>
    let changed := set.foldl (fun (f : Json.Fields) p => f.set p.1 p.2) fields
    let kept := remove.foldl Json.Fields.erase changed
    db.setHeaderText (Json.print (.object kept))

/-- The entries of documents under standards, with keys from `id` on. -/
def documentEntries : (id : Int) → List (Cell × Cell) → List MetadataEntry
  | _, [] => []
  | id, (uri, document) :: rest =>
    ⟨id, "dataset", uri, "text/xml", document⟩ :: documentEntries (id + 1) rest

/-- Replaces all documents. -/
def setDocuments (db : Database) (documents : List (Cell × Cell)) : Database :=
  { db with metadata := some (documentEntries 1 documents) }

/-- Adds a copy of the first document under another standard. -/
def copyHeader (db : Database) (uri : String) : Except StorageFault Database := do
  match ← rowsOf .metadata db.metadata with
  | [] => pure db
  | r :: rest =>
    let last := rest.foldl (fun n row => max n row.id) r.id
    let copy := { r with id := last + 1, standardUri := .text uri }
    pure { db with metadata := some (r :: rest ++ [copy]) }

/-! ## The table of contents -/

/-- Changes every entry of the table of contents. -/
def mapContents (db : Database) (f : ContentsEntry → ContentsEntry) :
    Except StorageFault Database := do
  let rows ← rowsOf .contents db.contents
  pure { db with contents := some (rows.map f) }

/-- Replaces the stored extent. -/
def setExtent (db : Database) (minX minY maxX maxY : Cell) : Except StorageFault Database :=
  db.mapContents fun r =>
    { r with
      minX := minX.inColumn "DOUBLE"
      minY := minY.inColumn "DOUBLE"
      maxX := maxX.inColumn "DOUBLE"
      maxY := maxY.inColumn "DOUBLE" }

/-- Lists the vertices under another name. -/
def renameContents (db : Database) (name : String) : Except StorageFault Database :=
  db.mapContents fun r => { r with tableName := name }

/-! ## The vertices -/

/-- Changes the vertices. -/
def mapVertices (db : Database) (f : VertexTable → Except StorageFault VertexTable) :
    Except StorageFault Database := do
  let t ← rowsOf .vertices db.vertices
  pure { db with vertices := some (← f t) }

/-- Removes a column of the vertices. -/
def dropColumn (db : Database) (column : String) : Except StorageFault Database :=
  db.mapVertices fun t => do
    let i ← t.position column
    pure ⟨t.columns.eraseIdx i, t.rows.map fun r => { r with cells := r.cells.eraseIdx i }⟩

/-- Adds a column of doubles with one value for every vertex. -/
def addColumn (db : Database) (column : String) (value : Cell) : Except StorageFault Database :=
  db.mapVertices fun t =>
    if (t.position? column).isSome || VertexTable.sameName column VertexTable.keyColumn then
      .error (.duplicateColumn column)
    else
      .ok ⟨t.columns ++ [⟨column, "DOUBLE"⟩],
        t.rows.map fun r => { r with cells := r.cells ++ [value.inColumn "DOUBLE"] }⟩

/-- Gives a vertex another key, which must be a whole number that no other vertex has. -/
def setVertexKey (t : VertexTable) (fid : Int) (value : Cell) : Except StorageFault VertexTable :=
  match t.row? fid with
  | none => .ok t
  | some row =>
    match value.preferWhole with
    | .integer key =>
      let others := t.rows.filter fun r => r.fid ≠ fid
      if others.any fun r => r.fid = key then .error (.duplicateKey key)
      else .ok { t with rows := putByKey VertexEntry.fid { row with fid := key } others }
    | _ => .error (.wrongCell VertexTable.keyColumn)

/-- Sets one cell of a vertex. -/
def setVertexCell (db : Database) (fid : Int) (column : String) (value : Cell) :
    Except StorageFault Database :=
  db.mapVertices fun t =>
    if VertexTable.sameName column VertexTable.keyColumn then setVertexKey t fid value
    else do
      let i ← t.position column
      let stored := value.inColumn ((t.columns[i]?.map (·.declaredType)).getD "")
      let changed (r : VertexEntry) : VertexEntry := { r with cells := r.cells.set i stored }
      pure { t with rows := t.rows.map fun r => if r.fid = fid then changed r else r }

/-! ## Tables and rows -/

/-- The database without a table. -/
def withoutTable (db : Database) : TableName → Database
  | .referenceSystems => { db with referenceSystems := none }
  | .contents => { db with contents := none }
  | .geometryColumns => { db with geometryColumns := none }
  | .metadata => { db with metadata := none }
  | .vertices => { db with vertices := none }
  | .triangles => { db with triangles := none }
  | .index => { db with index := none }

/-- Whether a table exists. -/
def hasTable (db : Database) : TableName → Bool
  | .referenceSystems => db.referenceSystems.isSome
  | .contents => db.contents.isSome
  | .geometryColumns => db.geometryColumns.isSome
  | .metadata => db.metadata.isSome
  | .vertices => db.vertices.isSome
  | .triangles => db.triangles.isSome
  | .index => db.index.isSome

/-- Removes a table. -/
def dropTable (db : Database) (table : TableName) : Except StorageFault Database :=
  if db.hasTable table then .ok (db.withoutTable table) else .error (.noSuchTable table.name)

/-- Removes the row of a key from the vertices, the triangles or the index; other tables keep their
rows. -/
def deleteRow (db : Database) (table : TableName) (fid : Int) : Except StorageFault Database :=
  match table with
  | .vertices => db.mapVertices fun t => .ok { t with rows := t.rows.filter fun r => r.fid ≠ fid }
  | .triangles => do
    let rows ← rowsOf .triangles db.triangles
    pure { db with triangles := some (rows.filter fun t => t.fid ≠ fid) }
  | .index => do
    let rows ← rowsOf .index db.index
    pure { db with index := some (rows.filter fun e => e.id ≠ fid) }
  | _ => .ok db

/-- Puts a triangle. -/
def putTriangle (db : Database) (fid : Int) (vertices : Corners Int) :
    Except StorageFault Database := do
  let rows ← rowsOf .triangles db.triangles
  pure { db with triangles := some (putByKey TriangleEntry.fid ⟨fid, vertices⟩ rows) }

/-- Puts the box of a triangle into the index; a box whose lower bound exceeds the upper one is
refused. -/
def putIndexBox (db : Database) (fid : Int) (lo hi : Point Float) :
    Except StorageFault Database := do
  let rows ← rowsOf .index db.index
  let entry := IndexEntry.ofBox fid lo hi
  if entry.isInverted then .error .invertedBox
  else pure { db with index := some (putByKey IndexEntry.id entry rows) }

end Database

end ShiftMesh.Container
