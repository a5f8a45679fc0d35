import ShiftMesh.Scalar

/-!
# ShiftMesh.Decimal.Reader — the double nearest to a written decimal

* `readDecimal`: an optional sign, then digits with an optional point and an optional exponent, or a
  word for infinity or for a value that is no number, in any case.  At least one digit must stand
  before the exponent.
* `nearest`: the double nearest to `n · 10^e`.  A magnitude beyond the range of doubles is decided
  by its exponent alone, so the size of the exponent does not matter.
* `unsignedParts?`: the digits and the exponent of an unsigned decimal; how the digits of an
  exponent are read is left to the caller.
-/

namespace ShiftMesh.Decimal

/-- Why a field is no number. -/
inductive ReadFault where
  /-- There is nothing to read. -/
  | empty
  /-- The text is no number. -/
  | invalid
  deriving Repr, BEq, DecidableEq, Inhabited

/-- The wording of a fault. -/
def ReadFault.message : ReadFault → String
  | empty => "cannot parse float from empty string"
  | invalid => "invalid float literal"

/-- The double nearest to `n · 10^e`. -/
def nearest (n : Nat) (e : Int) : Float :=
  let leading := (Nat.toDigits 10 n).length + e
  if n = 0 then 0.0
  else if 400 < leading then infinity
  else if leading < -400 then 0.0
  else if 0 ≤ e then Float.ofScientific n false e.toNat
  else Float.ofScientific n true (-e).toNat

/-- The leading decimal digits of a text and the rest. -/
def spanDigits (cs : List Char) : List Char × List Char :=
  (cs.takeWhile Char.isDigit, cs.dropWhile Char.isDigit)

/-- The number that decimal digits stand for. -/
def ofDigits (ds : List Char) : Nat := ds.foldl (fun n c => n * 10 + (c.toNat - '0'.toNat)) 0

/-- A text without its sign, and whether the sign is negative. -/
def splitSign : List Char → Bool × List Char
  | '+' :: rest => (false, rest)
  | '-' :: rest => (true, rest)
  | rest => (false, rest)

/-- The digits after a point, if there is one, and the rest. -/
def splitFraction : List Char → List Char × List Char
  | '.' :: rest => spanDigits rest
  | rest => ([], rest)

/-- The magnitude of an exponent by its digits; once it has reached `2^16`, further digits are not
looked at. -/
def exponentMagnitude (ds : List Char) : Nat :=
  ds.foldl (fun n c => if n < Nat.pow 2 16 then n * 10 + (c.toNat - '0'.toNat) else n) 0

/-- The exponent that makes up the rest of a text; nothing if the rest is no exponent. -/
def exponent? (magnitude : List Char → Nat) : List Char → Option Int
  | [] => some 0
  | c :: rest =>
    if c = 'e' ∨ c = 'E' then
      let (negative, digits) := splitSign rest
      if digits.isEmpty || digits.any (!·.isDigit) then none
      else some (if negative then -(magnitude digits : Int) else magnitude digits)
    else none

/-- The digits before and after the point of a decimal, and its exponent. -/
structure Parts where
  whole : List Char
  fraction : List Char
  exponent : Int
  deriving Repr, BEq, DecidableEq, Inhabited

/-- The parts of an unsigned decimal; `magnitude` reads the digits of the exponent. -/
def unsignedParts? (magnitude : List Char → Nat) (cs : List Char) : Option Parts :=
  let (whole, rest) := spanDigits cs
  let (fraction, rest) := splitFraction rest
  if whole.isEmpty && fraction.isEmpty then none
  else (exponent? magnitude rest).map fun exponent => { whole, fraction, exponent }

/-- The double nearest to an unsigned decimal. -/
def readUnsigned? (cs : List Char) : Option Float :=
  (unsignedParts? exponentMagnitude cs).map fun p =>
    nearest (ofDigits (p.whole ++ p.fraction)) (p.exponent - p.fraction.length)

/-- The value of a word. -/
def readWord? (cs : List Char) : Option Float :=
  let word := String.ofList (cs.map Char.toLower)
  if word = "inf" ∨ word = "infinity" then some infinity
  else if word = "nan" then some (0.0 / 0.0)
  else none

/-- The double nearest to a written decimal. -/
def readDecimal (cs : List Char) : Except ReadFault Float :=
  if cs.isEmpty then .error .empty
  else
    let (negative, rest) := splitSign cs
    match (readUnsigned? rest).or (readWord? rest) with
    | none => .error .invalid
    | some x => .ok (if negative then -x else x)

end ShiftMesh.Decimal
