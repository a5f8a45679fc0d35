import ShiftMesh.Decimal.Reader
import ShiftMesh.Error
import ShiftMesh.Text.Quoted

/-!
# ShiftMesh.Command.Report — what a command leaves behind, and how its failures are reported

* `Outcome`: the exit code and the two output texts of a command.
* `CoordinateFault`: why a list of fields is no coordinate.
* `CommandError`: why a command stops; `CommandError.chain` is its wording followed by the wordings
  of what lies beneath.
* `report`: a chain as text.  The causes are indented, and numbered if there are several.
-/

namespace ShiftMesh.Command

/-- What a command leaves behind. -/
structure Outcome where
  exitCode : Nat
  stdout : String := ""
  stderr : String := ""
  deriving Repr, BEq, DecidableEq, Inhabited

/-- Why a list of fields is no coordinate. -/
inductive CoordinateFault where
  /-- A field is no number. -/
  | invalidNumber (field : List Char) (fault : Decimal.ReadFault)
  /-- There are fewer than two fields. -/
  | tooFew (count : Nat)
  /-- There are more than three fields. -/
  | tooMany
  deriving Repr, BEq, DecidableEq, Inhabited

/-- The wording of a fault, followed by the wordings of what lies beneath. -/
def CoordinateFault.chain : CoordinateFault → List String
  | invalidNumber field fault =>
    ["invalid number " ++ String.ofList (Text.quoted field), fault.message]
  | tooFew count => ["expected x and y, got " ++ toString count ++ " value(s)"]
  | tooMany => ["expected at most three values"]

/-- Why a command stops. -/
inductive CommandError where
  /-- The mesh cannot be opened. -/
  | cannotOpen (location : String) (error : MeshError)
  /-- An argument is no coordinate. -/
  | badArgument (fault : CoordinateFault)
  /-- A line, counted from one, is no coordinate. -/
  | badLine (number : Nat) (fault : CoordinateFault)
  /-- A lookup fails. -/
  | lookup (error : MeshError)
  deriving Repr, BEq, DecidableEq, Inhabited

/-- The wording of an error, followed by the wordings of what lies beneath. -/
def CommandError.chain : CommandError → List String
  | cannotOpen location error => ("cannot open " ++ location) :: error.message :: error.causes
  | badArgument fault => fault.chain
  | badLine number fault => ("line " ++ toString number) :: fault.chain
  | lookup error => error.message :: error.causes

/-- A text whose lines after the first are indented. -/
def indentRest (indent : String) (s : String) : String :=
  String.ofList (s.toList.flatMap fun c => if c = '\n' then '\n' :: indent.toList else [c])

/-- One cause, with its number if there are several. -/
def causeText (number : Option Nat) (s : String) : String :=
  match number with
  | none => "    " ++ indentRest "    " s
  | some n =>
    let digits := toString n
    let padding := String.ofList (List.replicate (5 - digits.length) ' ')
    padding ++ digits ++ ": " ++ indentRest "       " s

/-- The causes with their numbers, from `first` on. -/
def numbered : (first : Nat) → List String → List String
  | _, [] => []
  | n, s :: rest => causeText (some n) s :: numbered (n + 1) rest

/-- A chain as text, without the line end. -/
def reportText : List String → String
  | [] => "Error: "
  | [message] => "Error: " ++ message
  | [message, cause] => "Error: " ++ message ++ "\n\nCaused by:\n" ++ causeText none cause
  | message :: causes =>
    "Error: " ++ message ++ "\n\nCaused by:\n" ++ "\n".intercalate (numbered 0 causes)

/-- The outcome of a command that has written `stdout` and then stops, or not. -/
def outcome (stdout : String) : Option CommandError → Outcome
  | none => { exitCode := 0, stdout }
  | some e => { exitCode := 1, stdout, stderr := reportText e.chain ++ "\n" }

end ShiftMesh.Command
