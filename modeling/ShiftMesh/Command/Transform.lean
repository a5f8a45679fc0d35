import ShiftMesh.Command.Report
import ShiftMesh.Decimal.Layout
import ShiftMesh.Mesh.Evaluator
import ShiftMesh.Text.Blank

/-!
# ShiftMesh.Command.Transform — coordinates in, corrected coordinates out

* `parseCoordinate`: two or three numbers; the third is zero if it is missing.
* `ofLines`, `ofArguments`: the coordinates of a text, line by line without blank and comment lines,
  and of arguments.  A fault stands at its place among them.
* `transformEach`: corrects coordinates in order, with the state of the evaluator handed from one to
  the next, up to the first fault; what was corrected before it stays.
* `transformAll`: the outcome of that.
-/

namespace ShiftMesh.Command

open Decimal (ReadFault)

/-! ## Coordinates -/

/-- Reads the first fields as numbers, up to the first one that is none. -/
def readFields : List (List Char) → Except CoordinateFault (List Float)
  | [] => .ok []
  | field :: rest =>
    match Decimal.readDecimal (Text.trim field) with
    | .error fault => .error (.invalidNumber field fault)
    | .ok x => (readFields rest).map (x :: ·)

/-- A coordinate from its fields: two or three numbers, the third zero if it is missing. -/
def parseCoordinate (fields : List (List Char)) : Except CoordinateFault (Coordinate Float) :=
  match readFields (fields.take 3) with
  | .error e => .error e
  | .ok numbers =>
    match numbers with
    | [x, y] => .ok ⟨x, y, 0.0⟩
    | [x, y, z] => if fields.length ≤ 3 then .ok ⟨x, y, z⟩ else .error .tooMany
    | _ => .error (.tooFew numbers.length)

/-- A line without anything to transform. -/
def isSkipped (line : List Char) : Bool :=
  match Text.trimStart line with
  | [] => true
  | c :: _ => c == '#'

/-- What a line asks for, if it asks for anything. -/
def ofLine? (number : Nat) (line : List Char) : Option (Except CommandError (Coordinate Float)) :=
  if isSkipped line then none
  else
    match parseCoordinate (Text.words line) with
    | .error e => some (.error (.badLine number e))
    | .ok c => some (.ok c)

/-- What lines ask for, numbered from `first` on. -/
def ofLines : (first : Nat) → List (List Char) → List (Except CommandError (Coordinate Float))
  | _, [] => []
  | n, line :: rest => (ofLine? n line).toList ++ ofLines (n + 1) rest

/-- What an argument asks for. -/
def ofArgument (arg : List Char) : Except CommandError (Coordinate Float) :=
  match parseCoordinate (Text.split (· == ',') arg) with
  | .error e => .error (.badArgument e)
  | .ok c => .ok c

/-! ## Transformation -/

/-- A coordinate as text. -/
def coordinateText (c : Coordinate Float) : String :=
  let number := Decimal.Layout.plain.render
  number c.x ++ " " ++ number c.y ++ " " ++ number c.z

/-- The line written for an answer. -/
def answerText (answer : Option (Coordinate Float)) : String :=
  coordinateText (answer.getD notTransformable)

/-- The lines written before the first fault, and the fault. -/
structure Transcript where
  lines : List String
  fault : Option CommandError
  deriving Repr, BEq, DecidableEq, Inhabited

/-- Corrects coordinates in order up to the first fault. -/
def transformEach {σ : Type}
    (apply : σ → Coordinate Float → Except MeshError (Option (Coordinate Float)) × σ)
    (state : σ) : List (Except CommandError (Coordinate Float)) → Transcript
  | [] => ⟨[], none⟩
  | .error e :: _ => ⟨[], some e⟩
  | .ok c :: rest =>
    match apply state c with
    | (.error e, _) => ⟨[], some (.lookup e)⟩
    | (.ok answer, next) =>
      let after := transformEach apply next rest
      ⟨answerText answer :: after.lines, after.fault⟩

/-- The text of lines. -/
def linesText (lines : List String) : String := String.join (lines.map (· ++ "\n"))

/-- Corrects coordinates in order up to the first fault; what was corrected before it is written. -/
def transformAll {σ : Type}
    (apply : σ → Coordinate Float → Except MeshError (Option (Coordinate Float)) × σ)
    (state : σ) (items : List (Except CommandError (Coordinate Float))) : Outcome :=
  let transcript := transformEach apply state items
  outcome (linesText transcript.lines) transcript.fault

/-- The evaluator of a mesh in one direction; its state is the cached triangle. -/
def evaluator {β : Type} [StoredPoint β Float] (source : TriangleSource β Float) (d : Direction)
    (cache : Option (CachedTriangle Float)) (c : Coordinate Float) :
    Except MeshError (Option (Coordinate Float)) × Option (CachedTriangle Float) :=
  let evaluation := source.transform cache d c
  (evaluation.answer, evaluation.cache)

end ShiftMesh.Command
