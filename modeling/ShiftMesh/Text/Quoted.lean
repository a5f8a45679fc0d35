import ShiftMesh.Text.Visible

/-!
# ShiftMesh.Text.Quoted — text between quotes, made readable

* `quoted`: a text between quotes.  Quotes and backslashes are escaped, tabs, line ends and the null
  character by a letter, and every other hidden character by its code point in braces.
-/

namespace ShiftMesh.Text

/-- The readable form of a character between quotes. -/
def readable (c : Char) : List Char :=
  if c = '"' then ['\\', '"']
  else if c = '\\' then ['\\', '\\']
  else if c = '\t' then ['\\', 't']
  else if c = '\r' then ['\\', 'r']
  else if c = '\n' then ['\\', 'n']
  else if c.toNat = 0 then ['\\', '0']
  else if isVisible c then [c]
  else ['\\', 'u', '{'] ++ Nat.toDigits 16 c.toNat ++ ['}']

/-- A text between quotes, hidden characters made readable. -/
def quoted (cs : List Char) : List Char := '"' :: (cs.flatMap readable ++ ['"'])

end ShiftMesh.Text
