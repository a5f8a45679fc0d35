/-!
# ShiftMesh.Decimal.Binary — what the 64 bits of a double stand for

* `Binary`: a double as not a number, an infinity, or a signed multiple `m · 2^q`.
* `Binary.ofFloat`: the reading of the bits; subnormal doubles have the exponent `-1074` and a
  significand below `2^52`.
* `Binary.toInt?`: the whole number that a double is equal to.
-/

namespace ShiftMesh.Decimal

/-- What a double stands for. -/
inductive Binary where
  | nan
  | infinite (negative : Bool)
  /-- The value `significand · 2^exponent`, with a sign. -/
  | finite (negative : Bool) (significand : Nat) (exponent : Int)
  deriving Repr, BEq, DecidableEq, Inhabited

namespace Binary

/-- The sign bit of a double. -/
def signBit (bits : Nat) : Bool := bits / Nat.pow 2 63 % 2 = 1

/-- The exponent field of a double. -/
def exponentField (bits : Nat) : Nat := bits / Nat.pow 2 52 % Nat.pow 2 11

/-- The fraction field of a double. -/
def fractionField (bits : Nat) : Nat := bits % Nat.pow 2 52

/-- What the bits of a double stand for. -/
def ofBits (bits : Nat) : Binary :=
  if exponentField bits = Nat.pow 2 11 - 1 then
    if fractionField bits = 0 then infinite (signBit bits) else nan
  else if exponentField bits = 0 then finite (signBit bits) (fractionField bits) (-1074)
  else finite (signBit bits) (Nat.pow 2 52 + fractionField bits) (exponentField bits - 1075)

/-- What a double stands for. -/
def ofFloat (x : Float) : Binary := ofBits x.toBits.toNat

/-- A number with a sign. -/
def signed (negative : Bool) (n : Nat) : Int := if negative then -(n : Int) else n

/-- The whole number that a double is equal to. -/
def toInt? : Binary → Option Int
  | finite negative m q =>
    if 0 ≤ q then some (signed negative (m * Nat.pow 2 q.toNat))
    else if m % Nat.pow 2 (-q).toNat = 0 then some (signed negative (m / Nat.pow 2 (-q).toNat))
    else none
  | _ => none

end Binary

end ShiftMesh.Decimal
