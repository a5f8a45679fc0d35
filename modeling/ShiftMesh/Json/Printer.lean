import ShiftMesh.Decimal.Layout
import ShiftMesh.Json.Basic

/-!
# ShiftMesh.Json.Printer — the compact text of a JSON value

* `quote`: a string between quotes; quotes, backslashes and control characters are escaped, all else
  stands as it is.
* `print`: a value without white space, the fields of an object in the order in which it keeps them.
-/

namespace ShiftMesh.Json

/-- A hexadecimal digit. -/
def hexDigit (n : Nat) : Char :=
  if n < 10 then Char.ofNat ('0'.toNat + n) else Char.ofNat ('a'.toNat + (n - 10))

/-- The written form of a character inside a string. -/
def escape (c : Char) : List Char :=
  if c = '"' then ['\\', '"']
  else if c = '\\' then ['\\', '\\']
  else if c = '\x08' then ['\\', 'b']
  else if c = '\x0c' then ['\\', 'f']
  else if c = '\n' then ['\\', 'n']
  else if c = '\r' then ['\\', 'r']
  else if c = '\t' then ['\\', 't']
  else if c.toNat < 0x20 then
    ['\\', 'u', '0', '0', hexDigit (c.toNat / 16), hexDigit (c.toNat % 16)]
  else [c]

/-- A string between quotes. -/
def quote (s : String) : List Char := '"' :: (s.toList.flatMap escape ++ ['"'])

/-- The text of a number. -/
def Number.print : Number → List Char
  | whole n => if n < 0 then '-' :: Nat.toDigits 10 n.natAbs else Nat.toDigits 10 n.natAbs
  | double x => (Decimal.Layout.document.render x).toList

mutual

/-- The characters of a value. -/
def Value.chars : Value → List Char
  | .null => ['n', 'u', 'l', 'l']
  | .bool true => ['t', 'r', 'u', 'e']
  | .bool false => ['f', 'a', 'l', 's', 'e']
  | .number n => n.print
  | .string s => quote s
  | .array items => '[' :: (itemChars items ++ [']'])
  | .object fields => '{' :: (fieldChars fields ++ ['}'])

/-- The characters of items, a comma between each two. -/
def itemChars : List Value → List Char
  | [] => []
  | [v] => v.chars
  | v :: w :: rest => v.chars ++ ',' :: itemChars (w :: rest)

/-- The characters of fields, a comma between each two. -/
def fieldChars : List (String × Value) → List Char
  | [] => []
  | [(k, v)] => quote k ++ ':' :: v.chars
  | (k, v) :: w :: rest => quote k ++ ':' :: (v.chars ++ ',' :: fieldChars (w :: rest))

end

/-- The compact text of a value. -/
def print (v : Value) : String := String.ofList v.chars

end ShiftMesh.Json
