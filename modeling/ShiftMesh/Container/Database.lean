import ShiftMesh.Container.Single
import ShiftMesh.Decimal.Extended
import ShiftMesh.Mesh.Source

/-!
# ShiftMesh.Container.Database — the tables of a mesh container

* `Cell`: a stored value; `Cell.inColumn` is the value after storing it in a column of a declared
  type.
* `VertexTable`: the vertices, with named columns.
* `IndexEntry`: the box of a triangle in single precision; `IndexEntry.ofBox` rounds a box outward
  and `IndexEntry.meets` compares it with a window.
* `Database`: the tables; one that is missing has no value.
* `putByKey`: the rows of a table stay in ascending order of their keys, each key once.
-/

namespace ShiftMesh.Container

/-! ## Cells -/

/-- A stored value. -/
inductive Cell where
  | null
  | integer (n : Int)
  | real (x : Float)
  | text (s : String)
  | blob (b : Blob)
  deriving Repr, BEq, DecidableEq, Inhabited

namespace Cell

/-- A double as a cell; there is no cell for a value that is no number. -/
def ofFloat (x : Float) : Cell := if x.isNaN then null else real x

/-- The blanks that may surround a number in a text. -/
def isNumberSpace (c : Char) : Bool := c == ' ' || ('\t' ≤ c && c ≤ '\x0d')

/-- A text without the blanks around it. -/
def numberBody (s : String) : List Char :=
  ((s.toList.dropWhile isNumberSpace).reverse.dropWhile isNumberSpace).reverse

/-- The number that a text looks like. -/
def numberOfText? (s : String) : Option Float :=
  let (negative, rest) := Decimal.splitSign (numberBody s)
  (Decimal.extendedUnsigned? rest).map fun x => if negative then -x else x

/-- The whole number that a text spells by digits alone. -/
def wholeOfText? (s : String) : Option Int :=
  let (negative, digits) := Decimal.splitSign (numberBody s)
  if digits.isEmpty || digits.any (!·.isDigit) then none
  else some (if negative then -(Decimal.ofDigits digits : Int) else Decimal.ofDigits digits)

/-- A double in a column that prefers doubles; zero has no sign there. -/
def toReal (x : Float) : Cell := if x == 0.0 then real 0.0 else ofFloat x

/-- A double in a column that prefers whole numbers. -/
def toWhole (x : Float) : Cell :=
  match (Decimal.Binary.ofFloat x).toInt? with
  | some n => if -Nat.pow 2 63 < n ∧ n < Nat.pow 2 63 then integer n else real x
  | none => ofFloat x

/-- A value in a column that prefers doubles; a text that looks like a number counts as one. -/
def preferReal : Cell → Cell
  | real x => toReal x
  | integer n => toReal (Float.ofInt n)
  | text s => ((numberOfText? s).map toReal).getD (text s)
  | c => c

/-- A value in a column that prefers whole numbers; a text that looks like a number counts as one,
and a text of digits alone keeps every digit as long as it fits. -/
def preferWhole : Cell → Cell
  | real x => toWhole x
  | text s =>
    match wholeOfText? s with
    | some n =>
      if -Nat.pow 2 63 ≤ n ∧ n < Nat.pow 2 63 then integer n
      else ((numberOfText? s).map toWhole).getD (text s)
    | none => ((numberOfText? s).map toWhole).getD (text s)
  | c => c

/-- The value after storing it in a column of a declared type. -/
def inColumn (declaredType : String) (c : Cell) : Cell :=
  if declaredType = "DOUBLE" then c.preferReal
  else if declaredType = "POINT" then c.preferWhole
  else c

/-- Reads stored bytes; a missing value is no bytes. -/
def toBlob (column : String) : Cell → Except StorageFault Blob
  | null => .ok []
  | blob b => .ok b
  | _ => .error (.wrongCell column)

/-- Reads a number, if there is a value. -/
def toFloat? (column : String) : Cell → Except StorageFault (Option Float)
  | null => .ok none
  | integer n => .ok (some (Float.ofInt n))
  | real x => .ok (some x)
  | _ => .error (.wrongCell column)

/-- Reads a number; a missing value is zero. -/
def toFloat (column : String) (c : Cell) : Except StorageFault Float :=
  (c.toFloat? column).map (·.getD 0.0)

/-- Reads a text, if there is a value. -/
def toText? (column : String) : Cell → Except StorageFault (Option String)
  | null => .ok none
  | text s => .ok (some s)
  | _ => .error (.wrongCell column)

end Cell

/-! ## Tables -/

/-- Puts a row at the place of its key, in the place of a row of the same key. -/
def putByKey {ρ : Type} (key : ρ → Int) (row : ρ) : List ρ → List ρ
  | [] => [row]
  | r :: rest =>
    if key row = key r then row :: rest
    else if key row < key r then row :: r :: rest
    else r :: putByKey key row rest

/-- A reference system. -/
structure ReferenceSystem where
  name : String
  id : Int
  organization : String
  organizationId : Int
  definition : String
  description : Option String
  deriving Repr, BEq, DecidableEq, Inhabited

/-- An entry of the table of contents. -/
structure ContentsEntry where
  tableName : String
  dataType : String
  identifier : String
  description : String
  minX : Cell
  minY : Cell
  maxX : Cell
  maxY : Cell
  srsId : Int
  deriving Repr, BEq, DecidableEq, Inhabited

/-- A column that holds geometries. -/
structure GeometryColumn where
  tableName : String
  columnName : String
  geometryType : String
  srsId : Int
  z : Int
  m : Int
  deriving Repr, BEq, DecidableEq, Inhabited

/-- A document about the container. -/
structure MetadataEntry where
  id : Int
  scope : String
  standardUri : Cell
  mimeType : String
  document : Cell
  deriving Repr, BEq, DecidableEq, Inhabited

/-- A column of the vertices beside their key. -/
structure Column where
  name : String
  declaredType : String
  deriving Repr, BEq, DecidableEq, Inhabited

/-- A stored vertex: its key, and a cell for each column. -/
structure VertexEntry where
  fid : Int
  cells : List Cell
  deriving Repr, BEq, DecidableEq, Inhabited

/-- The stored vertices. -/
structure VertexTable where
  columns : List Column
  rows : List VertexEntry
  deriving Repr, BEq, DecidableEq, Inhabited

/-- A stored triangle: its key, and the keys of its vertices. -/
structure TriangleEntry where
  fid : Int
  vertices : Corners Int
  deriving Repr, BEq, DecidableEq, Inhabited

/-- The box of a triangle, in single precision. -/
structure IndexEntry where
  id : Int
  minX : Float
  maxX : Float
  minY : Float
  maxY : Float
  deriving Repr, BEq, DecidableEq, Inhabited

/-- The tables of a container. -/
structure Database where
  applicationId : Int := 0
  userVersion : Int := 0
  referenceSystems : Option (List ReferenceSystem) := none
  contents : Option (List ContentsEntry) := none
  geometryColumns : Option (List GeometryColumn) := none
  metadata : Option (List MetadataEntry) := none
  vertices : Option VertexTable := none
  triangles : Option (List TriangleEntry) := none
  index : Option (List IndexEntry) := none
  deriving Repr, DecidableEq, Inhabited

namespace IndexEntry

/-- A bound as it enters the index; a bound that is no number counts as zero. -/
def bound (x : Float) : Float := if x.isNaN then 0.0 else x

/-- The entry of a box, rounded outward. -/
def ofBox (id : Int) (lo hi : Point Float) : IndexEntry where
  id
  minX := singleBelow (bound lo.x)
  maxX := singleAbove (bound hi.x)
  minY := singleBelow (bound lo.y)
  maxY := singleAbove (bound hi.y)

/-- Whether a lower bound exceeds the upper one. -/
def isInverted (e : IndexEntry) : Bool := decide (e.maxX < e.minX) || decide (e.maxY < e.minY)

/-- Whether the box of an entry meets a window. -/
def meets (e : IndexEntry) (w : Window Float) : Bool := w.meets ⟨e.minX, e.minY⟩ ⟨e.maxX, e.maxY⟩

end IndexEntry

namespace VertexTable

/-- The column of the keys. -/
def keyColumn : String := "fid"

/-- The column of the stored positions. -/
def geometryColumn : String := "geom"

/-- Whether two names mean one column: the case of their letters does not matter. -/
def sameName (a b : String) : Bool := a.toList.map Char.toLower = b.toList.map Char.toLower

/-- Where a column beside the keys stands. -/
def position? (t : VertexTable) (column : String) : Option Nat :=
  t.columns.findIdx? fun c => sameName c.name column

/-- A stored vertex. -/
def row? (t : VertexTable) (fid : Int) : Option VertexEntry := t.rows.find? fun r => r.fid = fid

end VertexTable

/-- The columns of the keys of a triangle's vertices. -/
def TriangleEntry.cornerColumns : List String := ["idx_vertex1", "idx_vertex2", "idx_vertex3"]

/-- The cell of a vertex at a column; a missing vertex has no values. -/
def VertexEntry.cellAt (row : Option VertexEntry) (position : Nat) : Cell :=
  match row with
  | none => .null
  | some r => r.cells.getD position .null

/-- The name under which the table of the vertices is listed. -/
def verticesTable : String := "vertices"

/-- The standard that a mesh header is filed under. -/
def headerStandard : String := "https://proj.org"

end ShiftMesh.Container
