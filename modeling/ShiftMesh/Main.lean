import ShiftMesh.Command.Program
import ShiftMesh.Container.Archive

/-!
# ShiftMesh.Main — the two programs on a command line

One executable holds both programs; its first argument names the one to run, `tinshift` or
`tinshift-convert`, and the others belong to that program.  What stands at the named paths is loaded
beforehand, the program runs as a function, and its outcome is written afterwards.  Containers are
kept as archive texts.
-/

namespace ShiftMesh

open Container

/-- Puts what stands at one place onto the disk. -/
def loadPlace (disk : Disk) (place : Place) : IO Disk := do
  match ← (IO.FS.readBinFile place.spelling).toBaseIO with
  | .ok bytes => return disk.put place (.ofBytes bytes)
  | .error (.inappropriateType none _ _) =>
    return { disk with directories := place :: disk.directories }
  | .error _ => return disk

/-- Puts what stands on the ways that a text may be followed onto the disk: as a path, and as the
address of a database. -/
def loadPath (disk : Disk) (text : String) : IO Disk :=
  let addressed := match Address.ofString text with
    | .ok { backing := .file path, .. } => (Path.ofString path).stops
    | _ => []
  ((Path.ofString text).stops ++ addressed).eraseDups.foldlM loadPlace disk

/-- Makes the containers on a disk, and the files missing from it, what a program has left there. -/
def storeDisk (before after : Disk) : IO Unit := do
  for (place, content) in after.files do
    if let .database db := content then IO.FS.writeFile place.spelling (archiveText db)
  for (place, _) in before.files do
    if (after.at? place).isNone then IO.FS.removeFile place.spelling

/-- Writes an outcome, and answers with its exit code. -/
def report (o : Command.Outcome) : IO UInt32 := do
  (← IO.getStdout).putStr o.stdout
  (← IO.getStderr).putStr o.stderr
  return UInt32.ofNat o.exitCode

/-- Shows the metadata of a mesh, or transforms coordinates. -/
def runTinshift (args : List String) : IO UInt32 := do
  let request := Command.Request.ofArguments? args
  let disk ← (request.bind Command.Request.mesh?).toList.foldlM loadPath {}
  let stdin ← if request.any Command.Request.readsInput then (← IO.getStdin).readToEnd else pure ""
  let network ← IO.getEnv OpenOptions.networkVariable
  let timeout ← IO.getEnv OpenOptions.timeoutVariable
  let environment (name : String) : Option String :=
    if name = OpenOptions.networkVariable then network
    else if name = OpenOptions.timeoutVariable then timeout
    else none
  report (Command.tinshift disk { args, stdin, environment })

/-- Converts an exchange document to a container. -/
def runConvert (args : List String) : IO UInt32 := do
  let here := Path.ofString (← IO.currentDir).toString
  let before ← (args.take 2).foldlM loadPath { working := here.place.names }
  let (outcome, after) := Command.convert before args
  storeDisk before after
  report outcome

end ShiftMesh

/-- Runs the program that the first argument names. -/
def main : List String → IO UInt32
  | "tinshift" :: args => ShiftMesh.runTinshift args
  | "tinshift-convert" :: args => ShiftMesh.runConvert args
  | _ => do
    (← IO.getStderr).putStr "usage: shiftmesh tinshift|tinshift-convert <arguments>\n"
    return 2
