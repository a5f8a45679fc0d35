import ShiftMesh.Container.Edit

/-!
# ShiftMesh.Container.Rows — every table as rows of cells

* `cells`, `ofCells?`: a row of each table as its cells in the order of the columns, and back.
* `Database.rows`: the rows of a table by its name.
* `Database.ofRows?`: the database of given tables; a row that does not fit its table is refused.
-/

namespace ShiftMesh.Container

/-! ## Rows -/

namespace Cell

/-- A text that may be absent. -/
def ofText? : Option String → Cell
  | none => null
  | some s => text s

end Cell

namespace ReferenceSystem

/-- The cells of a reference system. -/
def cells (r : ReferenceSystem) : List Cell :=
  [.text r.name, .integer r.id, .text r.organization, .integer r.organizationId, .text r.definition,
    .ofText? r.description]

/-- The reference system of cells. -/
def ofCells? : List Cell → Option ReferenceSystem
  | [.text name, .integer id, .text organization, .integer code, .text definition, last] =>
    match last with
    | .null => some ⟨name, id, organization, code, definition, none⟩
    | .text description => some ⟨name, id, organization, code, definition, some description⟩
    | _ => none
  | _ => none

end ReferenceSystem

namespace ContentsEntry

/-- The cells of an entry of the table of contents. -/
def cells (r : ContentsEntry) : List Cell :=
  [.text r.tableName, .text r.dataType, .text r.identifier, .text r.description, r.minX, r.minY,
    r.maxX, r.maxY, .integer r.srsId]

/-- The entry of cells. -/
def ofCells? : List Cell → Option ContentsEntry
  | [.text tableName, .text dataType, .text identifier, .text description, minX, minY, maxX, maxY,
      .integer srsId] =>
    some ⟨tableName, dataType, identifier, description, minX, minY, maxX, maxY, srsId⟩
  | _ => none

end ContentsEntry

namespace GeometryColumn

/-- The cells of a geometry column. -/
def cells (r : GeometryColumn) : List Cell :=
  [.text r.tableName, .text r.columnName, .text r.geometryType, .integer r.srsId, .integer r.z,
    .integer r.m]

/-- The geometry column of cells. -/
def ofCells? : List Cell → Option GeometryColumn
  | [.text tableName, .text columnName, .text geometryType, .integer srsId, .integer z,
      .integer m] =>
    some ⟨tableName, columnName, geometryType, srsId, z, m⟩
  | _ => none

end GeometryColumn

namespace MetadataEntry

/-- The cells of a document. -/
def cells (r : MetadataEntry) : List Cell :=
  [.integer r.id, .text r.scope, r.standardUri, .text r.mimeType, r.document]

/-- The document of cells. -/
def ofCells? : List Cell → Option MetadataEntry
  | [.integer id, .text scope, standardUri, .text mimeType, document] =>
    some ⟨id, scope, standardUri, mimeType, document⟩
  | _ => none

end MetadataEntry

namespace Column

/-- The cells that describe a column. -/
def cells (c : Column) : List Cell := [.text c.name, .text c.declaredType]

/-- The column that cells describe. -/
def ofCells? : List Cell → Option Column
  | [.text name, .text declaredType] => some ⟨name, declaredType⟩
  | _ => none

end Column

namespace VertexEntry

/-- The key of a vertex, and its cells. -/
def allCells (r : VertexEntry) : List Cell := .integer r.fid :: r.cells

/-- The vertex of a key and cells. -/
def ofCells? : List Cell → Option VertexEntry
  | .integer fid :: cells => some ⟨fid, cells⟩
  | _ => none

end VertexEntry

namespace TriangleEntry

/-- The cells of a triangle. -/
def cells (t : TriangleEntry) : List Cell := (t.fid :: t.vertices.toList).map .integer

/-- The triangle of cells. -/
def ofCells? : List Cell → Option TriangleEntry
  | [.integer fid, .integer a, .integer b, .integer c] => some ⟨fid, ⟨a, b, c⟩⟩
  | _ => none

end TriangleEntry

namespace IndexEntry

/-- The cells of an index entry. -/
def cells (e : IndexEntry) : List Cell :=
  [.integer e.id, .real e.minX, .real e.maxX, .real e.minY, .real e.maxY]

/-- The index entry of cells. -/
def ofCells? : List Cell → Option IndexEntry
  | [.integer id, .real minX, .real maxX, .real minY, .real maxY] =>
    some ⟨id, minX, maxX, minY, maxY⟩
  | _ => none

end IndexEntry

/-! ## Tables -/

namespace Database

/-- The columns of the vertices, the key first. -/
def vertexColumnRows (t : VertexTable) : List (List Cell) :=
  (⟨"fid", "INTEGER"⟩ :: t.columns : List Column).map Column.cells

/-- The rows of a table, which must exist. -/
def rows (db : Database) (table : TableName) : Except StorageFault (List (List Cell)) :=
  match table with
  | .referenceSystems =>
    (rowsOf table db.referenceSystems).map fun rs => rs.map ReferenceSystem.cells
  | .contents => (rowsOf table db.contents).map fun rs => rs.map ContentsEntry.cells
  | .geometryColumns => (rowsOf table db.geometryColumns).map fun rs => rs.map GeometryColumn.cells
  | .metadata => (rowsOf table db.metadata).map fun rs => rs.map MetadataEntry.cells
  | .vertices => (rowsOf table db.vertices).map fun t => t.rows.map VertexEntry.allCells
  | .triangles => (rowsOf table db.triangles).map fun ts => ts.map TriangleEntry.cells
  | .index => (rowsOf table db.index).map fun es => es.map IndexEntry.cells

/-- The database with the rows of a table; the vertices also need their columns. -/
def withRows? (db : Database) (columns : List Column) (table : TableName)
    (rows : List (List Cell)) : Option Database :=
  match table with
  | .referenceSystems =>
    (rows.mapM ReferenceSystem.ofCells?).map fun rs => { db with referenceSystems := some rs }
  | .contents => (rows.mapM ContentsEntry.ofCells?).map fun rs => { db with contents := some rs }
  | .geometryColumns =>
    (rows.mapM GeometryColumn.ofCells?).map fun rs => { db with geometryColumns := some rs }
  | .metadata => (rows.mapM MetadataEntry.ofCells?).map fun rs => { db with metadata := some rs }
  | .vertices =>
    (rows.mapM VertexEntry.ofCells?).map fun rs => { db with vertices := some ⟨columns, rs⟩ }
  | .triangles => (rows.mapM TriangleEntry.ofCells?).map fun ts => { db with triangles := some ts }
  | .index => (rows.mapM IndexEntry.ofCells?).map fun es => { db with index := some es }

end Database

end ShiftMesh.Container
