import ShiftMesh.Decimal.Reader
import ShiftMesh.Decimal.Rounding

/-!
# ShiftMesh.Decimal.Extended — decimals read by products with 64 significant bits

A decimal is read here as its leading digits times powers of ten, each product rounded to 64
significant bits and the last one to a double.  The result is nearly always the nearest double, and
else a neighbour of it.

* `Extended`: a number with 64 significant bits; `Extended.mul` rounds a product, ties to even.
* `Scaled.ofDigits`: as many leading digits as stay below a bound, and the power of ten that is
  left.
* `extendedUnsigned?`: the double read for an unsigned decimal.
-/

namespace ShiftMesh.Decimal

/-- The number `significand · 2^exponent`. -/
structure Extended where
  significand : Nat
  exponent : Int
  deriving Repr, BEq, DecidableEq, Inhabited

namespace Extended

/-- The number `n · 2^q`, rounded to 64 significant bits. -/
def round (n : Nat) (q : Int) : Extended :=
  let excess := bitLength n - 64
  ⟨roundQuotient n excess, q + excess⟩

/-- A product, rounded. -/
def mul (a b : Extended) : Extended :=
  round (a.significand * b.significand) (a.exponent + b.exponent)

/-- The power `10^n`, rounded. -/
def tenPower (n : Nat) : Extended := round (Nat.pow 10 n) 0

/-- The power `10^-n`, rounded.  The last bit of the quotient tells whether the division leaves a
remainder. -/
def tenthPower (n : Nat) : Extended :=
  let shift := bitLength (Nat.pow 10 n) + 64
  let quotient := Nat.pow 2 shift / Nat.pow 10 n
  let remainder := if Nat.pow 2 shift % Nat.pow 10 n = 0 then 0 else 1
  round (2 * quotient + remainder) (-(shift + 1 : Nat))

/-- Multiplies by `factor 1` so many times, by `factor 10` for each ten, by `factor 100` for each
hundred, the largest factors first. -/
def scale (factor : Nat → Extended) (times : Nat) (x : Extended) : Extended :=
  let by100 := (times / 100).repeat (mul · (factor 100)) x
  let by10 := (times % 100 / 10).repeat (mul · (factor 10)) by100
  (times % 10).repeat (mul · (factor 1)) by10

/-- The greatest finite double. -/
def greatest : Nat := (Nat.pow 2 53 - 1) * Nat.pow 2 971

/-- Whether a number exceeds the greatest finite double. -/
def isTooLarge (x : Extended) : Bool :=
  1024 < x.exponent || (0 ≤ x.exponent && greatest < x.significand * Nat.pow 2 x.exponent.toNat)

/-- The double nearest to a number; a number beyond the greatest double is infinite. -/
def toFloat (x : Extended) : Float :=
  if x.isTooLarge then infinity
  else if 0 ≤ x.exponent then nearest (x.significand * Nat.pow 2 x.exponent.toNat) 0
  else if x.exponent < -1300 then 0.0
  else nearest (x.significand * Nat.pow 5 (-x.exponent).toNat) x.exponent

end Extended

/-- The decimal `significand · 10^exponent`. -/
structure Scaled where
  significand : Nat
  exponent : Int
  deriving Repr, BEq, DecidableEq, Inhabited

namespace Scaled

/-- A significand that has reached this bound takes no further digit. -/
def fullAt : Nat := (Nat.pow 2 64 - 1 - 9) / 10

/-- Takes digits into a significand until it is full; also the digits left over. -/
def take (n : Nat) : List Char → Nat × List Char
  | [] => (n, [])
  | c :: rest => if fullAt ≤ n then (n, c :: rest) else take (n * 10 + (c.toNat - '0'.toNat)) rest

/-- The decimal of digits before and after the point. -/
def ofDigits (whole fraction : List Char) (exponent : Int) : Scaled :=
  let (n, dropped) := take 0 whole
  let (n, unused) := take n fraction
  ⟨n, exponent + dropped.length - (fraction.length - unused.length : Nat)⟩

/-- Takes factors of ten into the significand while it is small. -/
def absorb : (times : Nat) → (n : Nat) → Nat × Nat
  | 0, n => (n, 0)
  | times + 1, n => if n < (Nat.pow 2 64 - 1) / 10 then absorb times (n * 10) else (n, times + 1)

/-- Takes factors of ten out of the significand while it has them. -/
def release : (times : Nat) → (n : Nat) → Nat × Nat
  | 0, n => (n, 0)
  | times + 1, n => if n % 10 = 0 then release times (n / 10) else (n, times + 1)

/-- The double read for a decimal. -/
def toFloat (d : Scaled) : Float :=
  if d.significand = 0 then 0.0
  else if 0 ≤ d.exponent then
    let (n, times) := absorb d.exponent.toNat d.significand
    (Extended.scale Extended.tenPower times ⟨n, 0⟩).toFloat
  else
    let (n, times) := release (-d.exponent).toNat d.significand
    (Extended.scale Extended.tenthPower times ⟨n, 0⟩).toFloat

end Scaled

/-- The magnitude of an exponent by its digits; each digit that follows a magnitude of five digits
makes it `10^4`. -/
def extendedMagnitude (ds : List Char) : Nat :=
  ds.foldl (fun n c => if n < Nat.pow 10 4 then n * 10 + (c.toNat - '0'.toNat) else Nat.pow 10 4) 0

/-- The double read for an unsigned decimal. -/
def extendedUnsigned? (cs : List Char) : Option Float :=
  (unsignedParts? extendedMagnitude cs).map fun p =>
    (Scaled.ofDigits p.whole p.fraction p.exponent).toFloat

end ShiftMesh.Decimal
