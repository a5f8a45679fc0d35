import ShiftMesh.Container.Disk
import ShiftMesh.Container.Rows

/-!
# ShiftMesh.Container.Archive — a container as a text

The text is a JSON object with the two marks of the container, the columns of the vertices, and one
list of rows for each table.  Doubles are written by their bits and bytes by two digits each, so
that every cell is read back as it was.

* `cellValue`, `cell?`: a cell as JSON, and back.
* `archiveText`, `ofArchive?`: a database as a text, and back.
* `Content.ofBytes`: what stands in a file of given bytes: the database of an archive, and any other
  text or bytes as they are.
-/

namespace ShiftMesh.Container

open Json (Value)

/-! ## Hexadecimal texts -/

/-- The last `width` hexadecimal digits of a number, the lowest first. -/
def hexAscending : (width n : Nat) → List Char
  | 0, _ => []
  | width + 1, n => Json.hexDigit (n % 16) :: hexAscending width (n / 16)

/-- A number by `width` hexadecimal digits. -/
def hexText (width n : Nat) : List Char := (hexAscending width n).reverse

/-- The number that hexadecimal digits stand for. -/
def hexNat? (cs : List Char) : Option Nat :=
  cs.foldlM (fun n c => (Json.hexDigit? c).map (n * 16 + ·)) 0

/-- The bytes that pairs of hexadecimal digits stand for. -/
def hexBytes? : List Char → Option Blob
  | [] => some []
  | a :: b :: rest => do
    let n ← hexNat? [a, b]
    let others ← hexBytes? rest
    pure (UInt8.ofNat n :: others)
  | [_] => none

/-! ## Cells -/

/-- A cell as JSON. -/
def cellValue : Cell → Value
  | .null => .null
  | .integer n => .number (.whole n)
  | .real x => .object [("real", .string (String.ofList (hexText 16 x.toBits.toNat)))]
  | .text s => .string s
  | .blob b =>
    .object [("blob", .string (String.ofList (b.flatMap fun byte => hexText 2 byte.toNat)))]

/-- The cell that JSON stands for. -/
def cell? : Value → Option Cell
  | .null => some .null
  | .number n => n.toInt?.map .integer
  | .string s => some (.text s)
  | .object [("real", .string s)] =>
    (hexNat? s.toList).map fun bits => .real (Float.ofBits (UInt64.ofNat bits))
  | .object [("blob", .string s)] => (hexBytes? s.toList).map .blob
  | _ => none

/-- Rows of cells as JSON. -/
def rowsValue (rows : List (List Cell)) : Value :=
  .array (rows.map fun row => .array (row.map cellValue))

/-- The cells of a row. -/
def row? (v : Value) : Option (List Cell) := do
  (← v.items?).mapM cell?

/-- The rows of cells that JSON stands for. -/
def rows? (v : Value) : Option (List (List Cell)) := do
  (← v.items?).mapM row?

/-! ## Databases -/

/-- The key of the columns of the vertices. -/
def columnsKey : String := "vertex_columns"

/-- The fields of the tables that exist. -/
def tableFields (db : Database) : List (String × Value) :=
  TableName.all.filterMap fun table =>
    (db.rows table).toOption.map fun rows => (table.name, rowsValue rows)

/-- A database as a text. -/
def archiveText (db : Database) : String :=
  let marks :=
    [("application_id", Value.number (.whole db.applicationId)),
      ("user_version", .number (.whole db.userVersion))]
  let columns := db.vertices.map fun t => (columnsKey, rowsValue (t.columns.map Column.cells))
  Json.print (.object (Json.Fields.ofList (marks ++ columns.toList ++ tableFields db)))

/-- Reads the tables that are present. -/
def readTables (j : Json.Fields) (columns : List Column) :
    Database → List TableName → Option Database
  | db, [] => some db
  | db, table :: rest =>
    match j.get? table.name with
    | none => readTables j columns db rest
    | some v => do
      let changed ← db.withRows? columns table (← rows? v)
      readTables j columns changed rest

/-- The database that a text stands for; nothing if the text is no archive. -/
def ofArchive? (s : String) : Option Database := do
  let j ← (← (Json.parse s).toOption).fields?
  let applicationId ← (← (← j.get? "application_id").number?).toInt?
  let userVersion ← (← (← j.get? "user_version").number?).toInt?
  let columns ← match j.get? columnsKey with
    | none => some []
    | some v => do (← rows? v).mapM Column.ofCells?
  readTables j columns { applicationId, userVersion } TableName.all

/-- What stands in a file of given bytes. -/
def Content.ofBytes (bytes : ByteArray) : Content :=
  match String.fromUTF8? bytes with
  | none => .bytes bytes.toList
  | some s =>
    match ofArchive? s with
    | none => .text s
    | some db => .database db

end ShiftMesh.Container
