import ShiftMesh.Command.Arguments
import ShiftMesh.Command.Transform
import ShiftMesh.Container.Access
import ShiftMesh.Mesh.Exchange

/-!
# ShiftMesh.Command.Program — the two programs

* `tinshift`: shows the metadata of a mesh, or transforms the coordinates of arguments or of the
  input text.
* `convert`: writes the container of an exchange document, and opens it again to show what it
  declares.

Both are functions from a disk to an outcome; `convert` also leaves a disk behind.
-/

namespace ShiftMesh.Command

open Container

/-- A number as text. -/
def numberText (x : Float) : String := Decimal.Layout.plain.render x

/-- The corners of an extent as text. -/
def extentText (e : Extent Float) : String :=
  "(" ++ numberText e.min.x ++ ", " ++ numberText e.min.y ++ ") - (" ++
    numberText e.max.x ++ ", " ++ numberText e.max.y ++ ")"

/-! ## Metadata -/

/-- The names of the components of a mesh. -/
def componentsText (m : MeshMetadata Float) : String :=
  ", ".intercalate
    ((if m.horizontal then ["horizontal"] else []) ++
      (if m.vertical.isSome then ["vertical"] else []))

/-- The range of the shifts as text. -/
def shiftText (s : ShiftRange Float) : String :=
  "x [" ++ numberText s.min.x ++ ", " ++ numberText s.max.x ++ "], y [" ++
    numberText s.min.y ++ ", " ++ numberText s.max.y ++ "]"

/-- The fallback strategy with the vertex count. -/
def fallbackText (m : MeshMetadata Float) : String :=
  m.fallback.name ++ ((m.vertexCount.map fun n => " (" ++ toString n.val ++ " vertices)").getD "")

/-- The lines about an open mesh. -/
def infoLines (location : String) (mesh : OpenMesh) : List String :=
  let m := mesh.store.metadata
  ["Mesh: " ++ location ++ " (" ++ mesh.access.title ++ ")",
    "  Components: " ++ componentsText m] ++
  (m.vertical.map fun v => "  Vertical encoding: " ++ v.name).toList ++
  ["  Extent: " ++ extentText m.extent] ++
  (if m.horizontal then ["  Shift: " ++ shiftText m.shift] else []) ++
  ["  Fallback: " ++ fallbackText m] ++
  (m.inputCrs.map fun crs => "  Input CRS: " ++ crs).toList ++
  (m.outputCrs.map fun crs => "  Output CRS: " ++ crs).toList

/-! ## Inspecting and transforming -/

/-- Everything a program is given beside the disk. -/
structure Setting where
  args : List String
  stdin : String := ""
  /-- The environment variables. -/
  environment : String → Option String := fun _ => none

/-- The name and version of the program. -/
def versionText : String := "tinshift 0.1.0\n"

/-- How the program is used. -/
def usageText : String := "Usage: tinshift [OPTIONS] <COMMAND>\n"

/-- The options of a request. -/
def optionsFor (setting : Setting) (network : Bool) : OpenOptions :=
  let options := OpenOptions.ofEnvironment setting.environment
  if network then { options with network := true } else options

/-- Opens the mesh of a request and goes on with it. -/
def withMesh (disk : Disk) (setting : Setting) (network : Bool) (location : String)
    (use : OpenMesh → Outcome) : Outcome :=
  match openMesh disk (optionsFor setting network) location with
  | .error e => outcome "" (some (.cannotOpen location e))
  | .ok mesh => use mesh

/-- Shows the metadata of a mesh, or transforms coordinates. -/
def tinshift (disk : Disk) (setting : Setting) : Outcome :=
  match Request.ofArguments? setting.args with
  | none => { exitCode := 2, stderr := usageText }
  | some .help => { exitCode := 0, stdout := usageText }
  | some .version => { exitCode := 0, stdout := versionText }
  | some (.info network location) =>
    withMesh disk setting network location fun mesh =>
      outcome (linesText (infoLines location mesh)) none
  | some (.transform network location inverse coordinates) =>
    withMesh disk setting network location fun mesh =>
      let items :=
        if coordinates.isEmpty then ofLines 1 (Text.lines setting.stdin.toList)
        else coordinates.map fun arg => ofArgument arg.toList
      let direction := if inverse then Direction.inverse else .forward
      transformAll (evaluator mesh.source direction) none items

/-! ## Conversion -/

/-- The failure of a conversion. -/
def conversionFailure (message : String) : Outcome :=
  { exitCode := 1, stderr := "tinshift-convert: " ++ message ++ "\n" }

/-- The lines about a converted mesh. -/
def conversionLines (output : String) (draft : MeshDraft) (m : MeshMetadata Float) : List String :=
  ["Wrote " ++ output ++ ": " ++ toString draft.vertices.length ++ " vertices, " ++
      toString draft.triangles.length ++ " triangles",
    "  horizontal: " ++ toString m.horizontal ++ ", vertical: " ++
      ((m.vertical.map VerticalEncoding.name).getD "none"),
    "  extent: " ++ extentText m.extent]

/-- Converts the document at `input` to a container at `output`. -/
def convertFile (disk : Disk) (input output : String) : Outcome × Disk :=
  match disk.readText input with
  | .error e => (conversionFailure e.message, disk)
  | .ok text =>
    match MeshDraft.ofExchange? text with
    | .error e => (conversionFailure e.message, disk)
    | .ok draft =>
      match disk.write output draft with
      | (.error e, left) => (conversionFailure e.message, left)
      | (.ok (), written) =>
        match openMesh written {} output with
        | .error e => (conversionFailure e.message, written)
        | .ok mesh =>
          let lines := conversionLines output draft mesh.store.metadata
          ({ exitCode := 0, stdout := linesText lines }, written)

/-- Converts an exchange document to a container. -/
def convert (disk : Disk) : (args : List String) → Outcome × Disk
  | input :: output :: _ => convertFile disk input output
  | _ => ({ exitCode := 1, stderr := "usage: tinshift-convert <input.json> <output.gpkg>\n" }, disk)

end ShiftMesh.Command
