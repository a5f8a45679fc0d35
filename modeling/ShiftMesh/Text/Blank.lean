/-!
# ShiftMesh.Text.Blank — blank characters, and cutting text at them

* `isBlank`: the characters with the white space property.
* `trim`, `words`, `splitAt`, `lines`: a text without blanks at its ends, its runs of other
  characters, its parts between separators, and its lines.
-/

namespace ShiftMesh.Text

/-- A character with the white space property. -/
def isBlank (c : Char) : Bool :=
  let n := c.toNat
  (0x09 ≤ n && n ≤ 0x0D) || n == 0x20 || n == 0x85 || n == 0xA0 || n == 0x1680 ||
    (0x2000 ≤ n && n ≤ 0x200A) || n == 0x2028 || n == 0x2029 || n == 0x202F || n == 0x205F ||
    n == 0x3000

/-- A text without the blanks at its start. -/
def trimStart (cs : List Char) : List Char := cs.dropWhile isBlank

/-- A text without the blanks at its ends. -/
def trim (cs : List Char) : List Char := (trimStart (trimStart cs).reverse).reverse

/-- The parts of a text between the characters that a test picks out; there is always at
least one. -/
def split (separates : Char → Bool) : List Char → List (List Char)
  | [] => [[]]
  | c :: rest =>
    if separates c then [] :: split separates rest
    else
      match split separates rest with
      | [] => [[c]]
      | part :: parts => (c :: part) :: parts

/-- The longest runs of characters that are not blank. -/
def words (cs : List Char) : List (List Char) := (split isBlank cs).filter (!·.isEmpty)

/-- A line without the carriage return before its end. -/
def dropReturn (line : List Char) : List Char :=
  if line.getLast? = some '\r' then line.dropLast else line

/-- The lines of a text.  A line ends at a line feed, with a carriage return before it or not; what
follows the last line feed is a line if it is not empty. -/
def lines (cs : List Char) : List (List Char) :=
  let parts := split (· == '\n') cs
  let last := parts.getLastD []
  parts.dropLast.map dropReturn ++ (if last.isEmpty then [] else [last])

end ShiftMesh.Text
