import ShiftMesh.Json.Fault

/-!
# ShiftMesh.Error — what can go wrong, and how it is worded

* Each stage has a type of causes: `DecodeError` for stored points, `MetadataFault` for the header
  and the extent, `SchemaFault` for the columns of the vertices, `StorageFault` for reading tables,
  `MeshFault` for a mesh being authored, `IoFault` for the file system.
* `MeshError` is the sum of the stages; `MeshError.message` words it and `MeshError.causes` lists
  what lies beneath.
-/

namespace ShiftMesh

/-- A stored point whose length is not the fixed one. -/
structure DecodeError where
  expected : Nat
  actual : Nat
  deriving Repr, BEq, DecidableEq, Inhabited

/-- The wording of a decode error. -/
def DecodeError.message (e : DecodeError) : String :=
  "point geometry must be " ++ toString e.expected ++ " bytes long, got " ++ toString e.actual

/-- Why a table cannot be read. -/
inductive StorageFault where
  /-- The bytes are no database. -/
  | notADatabase
  /-- No table of this name. -/
  | noSuchTable (table : String)
  /-- No column of this name. -/
  | noSuchColumn (column : String)
  /-- Columns of two tables go by this name. -/
  | ambiguousColumn (column : String)
  /-- There is a column of this name already. -/
  | duplicateColumn (column : String)
  /-- There is a row of this key already. -/
  | duplicateKey (key : Int)
  /-- A cell of this column holds a value of the wrong kind. -/
  | wrongCell (column : String)
  /-- The box of a triangle has a lower bound above its upper bound. -/
  | invertedBox
  /-- No database can be opened or created at this path. -/
  | cannotOpen (path : String)
  /-- The database is only read. -/
  | readOnly
  /-- An address names an authority other than the local host. -/
  | unknownAuthority (authority : String)
  /-- An address asks for a mode of this kind that there is not. -/
  | unknownMode (kind value : String)
  /-- An address asks for an access mode that the one before it rules out. -/
  | modeRefused (value : String)
  /-- An address asks for a storage layer that there is not. -/
  | unknownLayer (layer : String)
  deriving Repr, BEq, DecidableEq, Inhabited

/-- The wording of a storage fault. -/
def StorageFault.message : StorageFault → String
  | notADatabase => "file is not a database"
  | noSuchTable table => "no such table: " ++ table
  | noSuchColumn column => "no such column: " ++ column
  | ambiguousColumn column => "ambiguous column name: " ++ column
  | duplicateColumn column => "duplicate column name: " ++ column
  | duplicateKey key => "UNIQUE constraint failed: " ++ toString key
  | wrongCell column => "Invalid column type at name: " ++ column
  | invertedBox => "rtree constraint failed"
  | cannotOpen path => "unable to open database file: " ++ path
  | readOnly => "attempt to write a readonly database"
  | unknownAuthority authority => "invalid uri authority: " ++ authority
  | unknownMode kind value => "no such " ++ kind ++ " mode: " ++ value
  | modeRefused value => "access mode not allowed: " ++ value
  | unknownLayer layer => "no such vfs: " ++ layer

/-- Why a header or an extent is not accepted. -/
inductive MetadataFault where
  /-- The header is no JSON document. -/
  | malformed (fault : Json.Fault)
  /-- The header is not an object. -/
  | notAnObject
  /-- A required key is absent. -/
  | missingKey (key : String)
  /-- The value of a key is not of the expected kind. -/
  | wrongType (key expected : String)
  /-- The file type is another one. -/
  | wrongFileType
  /-- The format version is not supported. -/
  | unsupportedVersion (version : String)
  /-- A component that is neither horizontal nor vertical. -/
  | unhandledComponent (name : String)
  /-- A component that is no string. -/
  | componentNotAString
  /-- The fallback strategy is none of the known ones. -/
  | unknownFallback
  /-- The vertex count is not a positive 32-bit number. -/
  | invalidVertexCount
  /-- The extent is empty or inverted. -/
  | invalidExtent
  /-- The header cannot be read. -/
  | unreadable (fault : StorageFault)
  /-- There is not exactly one header text. -/
  | noSingleHeader
  /-- The extent cannot be read. -/
  | extentUnreadable (fault : StorageFault)
  /-- There is not exactly one complete extent. -/
  | noSingleExtent
  deriving Repr, BEq, DecidableEq, Inhabited

/-- The wording of a metadata fault. -/
def MetadataFault.message : MetadataFault → String
  | malformed fault => "Cannot parse JSON metadata: " ++ fault.message
  | notAnObject => "JSON metadata is not an object"
  | missingKey key => "Missing \"" ++ key ++ "\" key"
  | wrongType key expected => "The value of \"" ++ key ++ "\" should be " ++ expected
  | wrongFileType => "File is not of the expected type"
  | unsupportedVersion version => "format_version = " ++ version ++ " is not supported"
  | unhandledComponent name => "transformed_components[] = " ++ name ++ " is not handled"
  | componentNotAString => "transformed_components[] item is not a string"
  | unknownFallback => "invalid fallback_strategy"
  | invalidVertexCount => "invalid value for num_vertices"
  | invalidExtent => "Invalid bounding box of vertices table"
  | unreadable fault => "Cannot get metadata: " ++ fault.message
  | noSingleHeader => "Cannot get metadata in gpkg_metadata table"
  | extentUnreadable fault => "Cannot get bounding box of vertices table: " ++ fault.message
  | noSingleExtent => "Cannot get bounding box of vertices table"

/-- Why the columns of the vertices are not accepted. -/
inductive SchemaFault where
  /-- There are no vertices to describe. -/
  | noDefinition
  /-- A horizontal mesh lacks this target column. -/
  | missingTarget (column : String)
  /-- A vertical mesh lacks the columns of either encoding. -/
  | missingHeights
  deriving Repr, BEq, DecidableEq, Inhabited

/-- The wording of a schema fault. -/
def SchemaFault.message : SchemaFault → String
  | noDefinition => "Cannot get definition of table vertices"
  | missingTarget column => column ++ " field missing in table vertices"
  | missingHeights => "(source_z and target_z) or offset_z fields missing in table vertices"

/-- Why a mesh cannot be authored. -/
inductive MeshFault where
  /-- The exchange text is no JSON document. -/
  | malformed (fault : Json.Fault)
  /-- The exchange document is not an object. -/
  | notAnObject
  /-- The file type is another one, or absent. -/
  | wrongFileType
  /-- The value of a key is not a string. -/
  | notAString (key : String)
  /-- A required key is absent. -/
  | missingKey (key : String)
  /-- The value of a key is not an array. -/
  | notAnArray (key : String)
  /-- The format version is not supported. -/
  | unsupportedVersion (version : String)
  /-- A component that is neither horizontal nor vertical, as JSON text. -/
  | unknownComponent (text : String)
  /-- A list of columns lacks a required one. -/
  | missingColumn (list column : String)
  /-- A horizontal mesh needs target columns. -/
  | noTargetColumns
  /-- A vertical mesh needs the columns of one encoding. -/
  | noHeightColumns
  /-- A vertex row is no array of numbers. -/
  | vertexNotNumbers (index : Nat)
  /-- A vertex row has another number of values than there are columns. -/
  | vertexLength (index actual expected : Nat)
  /-- A triangle row is no row of vertex indices. -/
  | triangleNotIndices (index : Nat)
  /-- There are no vertices or no triangles. -/
  | empty
  /-- A triangle refers to a vertex that does not exist. -/
  | danglingCorner (triangle vertex count : Nat)
  /-- A vertex of a horizontal mesh has no target. -/
  | noTarget (vertex : Nat)
  /-- A vertex of a vertical mesh lacks values of the encoding. -/
  | noHeights (vertex : Nat)
  /-- The advertised vertex count is zero. -/
  | zeroVertexCount
  /-- The vertices have no extent. -/
  | emptyExtent
  deriving Repr, BEq, DecidableEq, Inhabited

/-- The wording of a mesh fault. -/
def MeshFault.message : MeshFault → String
  | malformed fault => "cannot parse JSON: " ++ fault.message
  | notAnObject => "JSON TIN is not an object"
  | wrongFileType => "file_type is not triangulation_file"
  | notAString key => key ++ " should be a string"
  | missingKey key => "missing " ++ key
  | notAnArray key => key ++ " should be an array"
  | unsupportedVersion version => "format_version = " ++ version ++ " is not supported"
  | unknownComponent text => "unknown transformed component " ++ text
  | missingColumn list column => list ++ " lacks " ++ column
  | noTargetColumns => "horizontal component needs target_x and target_y columns"
  | noHeightColumns => "vertical component needs source_z and target_z, or offset_z columns"
  | vertexNotNumbers index => "vertex " ++ toString index ++ " is not an array of numbers"
  | vertexLength index actual expected =>
    "vertex " ++ toString index ++ " has " ++ toString actual ++ " values, expected " ++
      toString expected
  | triangleNotIndices index => "triangle " ++ toString index ++ " is not a row of vertex indices"
  | empty => "mesh has no triangles"
  | danglingCorner triangle vertex count =>
    "triangle " ++ toString triangle ++ " references vertex " ++ toString vertex ++
      ", but there are only " ++ toString count ++ " vertices"
  | noTarget vertex => "vertex " ++ toString vertex ++ " has no target position"
  | noHeights vertex => "vertex " ++ toString vertex ++ " has no vertical values"
  | zeroVertexCount => "num_vertices must be positive"
  | emptyExtent => "vertex extent is empty"

/-- Why the file system refuses. -/
inductive IoFault where
  /-- Nothing stands at the path. -/
  | notFound
  /-- The path names a directory. -/
  | isADirectory
  /-- The path leads through a file. -/
  | notADirectory
  /-- The path, or a name in it, is too long. -/
  | nameTooLong
  /-- The bytes are no text. -/
  | notText
  deriving Repr, BEq, DecidableEq, Inhabited

/-- The wording of a refusal of the file system. -/
def IoFault.message : IoFault → String
  | notFound => "No such file or directory (os error 2)"
  | isADirectory => "Is a directory (os error 21)"
  | notADirectory => "Not a directory (os error 20)"
  | nameTooLong => "File name too long (os error 36)"
  | notText => "stream did not contain valid UTF-8"

/-- A failure of opening, looking up or authoring a mesh.  A point outside the mesh is no error. -/
inductive MeshError where
  /-- No access path reaches the container. -/
  | unreachable (location reason : String)
  /-- The header or the extent is missing or invalid. -/
  | metadata (fault : MetadataFault)
  /-- The vertices lack columns that the header requires. -/
  | schema (fault : SchemaFault)
  /-- The candidate query cannot be prepared. -/
  | queryPreparation (fault : StorageFault)
  /-- A stored point cannot be decoded. -/
  | decode (error : DecodeError)
  /-- The storage fails while a query runs. -/
  | storage (fault : StorageFault)
  /-- A mesh being authored is inconsistent. -/
  | invalidMesh (fault : MeshFault)
  /-- The file system refuses. -/
  | io (fault : IoFault)
  deriving Repr, BEq, DecidableEq, Inhabited

namespace MeshError

/-- The wording of an error. -/
def message : MeshError → String
  | unreachable location reason => "open of " ++ location ++ " failed: " ++ reason
  | metadata fault => "invalid mesh metadata: " ++ fault.message
  | schema fault => "invalid vertices table: " ++ fault.message
  | queryPreparation fault => "cannot prepare triangle query: " ++ fault.message
  | decode error => error.message
  | storage fault => "sqlite error: " ++ fault.message
  | invalidMesh fault => "invalid mesh: " ++ fault.message
  | io fault => "I/O error: " ++ fault.message

/-- The wordings of the failures beneath an error, the nearest first. -/
def causes : MeshError → List String
  | queryPreparation fault => [fault.message]
  | storage fault => [fault.message]
  | io fault => [fault.message]
  | _ => []

end MeshError

end ShiftMesh
