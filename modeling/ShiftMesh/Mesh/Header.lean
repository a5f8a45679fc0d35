import ShiftMesh.Decimal.Binary
import ShiftMesh.Json.Reader
import ShiftMesh.Mesh.Metadata

/-!
# ShiftMesh.Mesh.Header — the JSON header of a mesh

* `Header.ofJson?`: the header that a JSON value declares.  The conditions are checked in a fixed
  order and the first one that fails decides the fault: file type, version, components, the four
  shift keys of a horizontal mesh, the fallback strategy, the vertex count of a mesh with a
  fallback, the two reference systems.  Other keys are ignored.
* `Header.parse`: the header of a text.
* `Header.toMetadata`: the metadata of a mesh with this header.
-/

namespace ShiftMesh

/-- The header of a mesh. -/
structure Header where
  horizontal : Bool
  vertical : Bool
  /-- The range of the horizontal shifts; zero without a horizontal component. -/
  shift : ShiftRange Float
  fallback : FallbackStrategy
  /-- The advertised number of vertices, if there is a fallback. -/
  vertexCount : Option VertexCount
  inputCrs : Option String
  outputCrs : Option String
  deriving Repr

/-- The components that a mesh corrects. -/
structure Components where
  horizontal : Bool := false
  vertical : Bool := false
  deriving Repr, BEq, DecidableEq, Inhabited

namespace Header

/-- The value of `file_type`. -/
def fileType : String := "triangulation_file"

/-- How a supported `format_version` begins. -/
def versionStart : String := "1."

/-- Whether a format version is supported. -/
def supportsVersion (version : String) : Bool := versionStart.toList.isPrefixOf version.toList

/-! ## Keys -/

/-- A required value. -/
def require (j : Json.Fields) (key : String) : Except MetadataFault Json.Value :=
  match j.get? key with
  | none => .error (.missingKey key)
  | some v => .ok v

/-- A value of the expected kind. -/
def expect {τ : Type} (key expected : String) : Option τ → Except MetadataFault τ
  | none => .error (.wrongType key expected)
  | some v => .ok v

/-- The text of a key that may be absent. -/
def optionalText (j : Json.Fields) (key : String) : Except MetadataFault (Option String) :=
  match j.get? key with
  | none => .ok none
  | some v => (expect key "a string" v.text?).map some

/-- The text of a required key. -/
def text (j : Json.Fields) (key : String) : Except MetadataFault String := do
  let v ← require j key
  expect key "a string" v.text?

/-- The number of a required key. -/
def number (j : Json.Fields) (key : String) : Except MetadataFault Float := do
  let v ← require j key
  expect key "a number" v.float?

/-- The whole number that a JSON number is equal to: any signed 64-bit number, and a double of at
most 32 bits. -/
def integer? (n : Json.Number) : Option Int :=
  match n.toInt? with
  | some i => some i
  | none => (Decimal.Binary.ofFloat n.toFloat).toInt?.filter fun i => i.natAbs < Nat.pow 2 32

/-- The whole number of a required key. -/
def integer (j : Json.Fields) (key : String) : Except MetadataFault Int := do
  let v ← require j key
  expect key "an integer" (v.number?.bind integer?)

/-- The items of a required key. -/
def items (j : Json.Fields) (key : String) : Except MetadataFault (List Json.Value) := do
  let v ← require j key
  expect key "an array" v.items?

/-! ## Parts -/

/-- Adds the named components. -/
def readComponents (c : Components) : List Json.Value → Except MetadataFault Components
  | [] => .ok c
  | v :: rest =>
    match v.text? with
    | none => .error .componentNotAString
    | some name =>
      if name = "horizontal" then readComponents { c with horizontal := true } rest
      else if name = "vertical" then readComponents { c with vertical := true } rest
      else .error (.unhandledComponent name)

/-- The shift range of a mesh: four required numbers of a horizontal one, and zero otherwise. -/
def readShift (j : Json.Fields) (horizontal : Bool) : Except MetadataFault (ShiftRange Float) :=
  if horizontal then do
    let minX ← number j "min_shift_x"
    let minY ← number j "min_shift_y"
    let maxX ← number j "max_shift_x"
    let maxY ← number j "max_shift_y"
    pure ⟨⟨minX, minY⟩, ⟨maxX, maxY⟩⟩
  else .ok .none

/-- The fallback strategy, none if the key is absent. -/
def readFallback (j : Json.Fields) : Except MetadataFault FallbackStrategy := do
  match ← optionalText j "fallback_strategy" with
  | none => pure .none
  | some name => FallbackStrategy.ofName? name

/-- The vertex count of a mesh with a fallback. -/
def readVertexCount (j : Json.Fields) (fallback : FallbackStrategy) :
    Except MetadataFault (Option VertexCount) :=
  match fallback with
  | .none => .ok none
  | _ => do
    let n ← integer j "num_vertices"
    match VertexCount.ofInt? n with
    | none => .error .invalidVertexCount
    | some count => pure (some count)

/-! ## Headers -/

/-- The header that the fields of an object declare. -/
def ofFields? (j : Json.Fields) : Except MetadataFault Header := do
  let type ← text j "file_type"
  if type ≠ fileType then
    throw .wrongFileType
  let version ← text j "format_version"
  if !supportsVersion version then
    throw (.unsupportedVersion version)
  let names ← items j "transformed_components"
  let components ← readComponents {} names
  let shift ← readShift j components.horizontal
  let fallback ← readFallback j
  let vertexCount ← readVertexCount j fallback
  let inputCrs ← optionalText j "input_crs"
  let outputCrs ← optionalText j "output_crs"
  pure
    { horizontal := components.horizontal
      vertical := components.vertical
      shift
      fallback
      vertexCount
      inputCrs
      outputCrs }

/-- The header that a JSON value declares. -/
def ofJson? (v : Json.Value) : Except MetadataFault Header :=
  match v.fields? with
  | none => .error .notAnObject
  | some j => ofFields? j

/-- The header of a text. -/
def parse (s : String) : Except MetadataFault Header :=
  match Json.parse s with
  | .error fault => .error (.malformed fault)
  | .ok v => ofJson? v

/-- The metadata of a mesh with this header. -/
def toMetadata (h : Header) (extent : Extent Float) (vertical : Option VerticalEncoding) :
    MeshMetadata Float :=
  { horizontal := h.horizontal
    vertical
    shift := h.shift
    fallback := h.fallback
    vertexCount := h.vertexCount
    extent
    inputCrs := h.inputCrs
    outputCrs := h.outputCrs }

end Header

/-- An extent with a positive width and height. -/
def Extent.ofCorners? (min max : Point Float) : Except MetadataFault (Extent Float) :=
  let e : Extent Float := ⟨min, max⟩
  if e.isProper then .ok e else .error .invalidExtent

end ShiftMesh
