/-!
# ShiftMesh.Json.Fault — why a text is no JSON document

One constructor for each way in which a text can fail, with its wording in `Fault.message`.
-/

namespace ShiftMesh.Json

/-- Why a text is no JSON document. -/
inductive Fault where
  /-- The text ends inside a value. -/
  | endOfText
  /-- A character that starts no token. -/
  | unexpectedCharacter (c : Char)
  /-- A token that cannot stand where it does. -/
  | unexpectedToken
  /-- A control character inside a string. -/
  | controlCharacter
  /-- An escape that names no character. -/
  | invalidEscape
  /-- A number that breaks the number grammar. -/
  | invalidNumber
  /-- A number beyond the largest double. -/
  | numberOutOfRange
  /-- More nested arrays and objects than the limit. -/
  | tooDeep
  deriving Repr, BEq, DecidableEq, Inhabited

/-- The wording of a fault. -/
def Fault.message : Fault → String
  | endOfText => "the text ends inside a value"
  | unexpectedCharacter c => "unexpected character " ++ c.toString
  | unexpectedToken => "unexpected token"
  | controlCharacter => "control character inside a string"
  | invalidEscape => "invalid escape"
  | invalidNumber => "invalid number"
  | numberOutOfRange => "number out of range"
  | tooDeep => "recursion limit exceeded"

end ShiftMesh.Json
