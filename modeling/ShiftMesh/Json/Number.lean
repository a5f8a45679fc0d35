import ShiftMesh.Json.Basic
import ShiftMesh.Json.Fault

/-!
# ShiftMesh.Json.Number — the value of a written number

A written number has a sign, whole digits, fraction digits and an exponent.  Whole numbers of at
most 64 bits are kept as they are.  Any other number becomes a double by a short rule that is not
always the nearest one:

* `takeDigits` collects digits while they fit an unsigned 64-bit significand; later whole digits
  only raise the exponent, later fraction digits are dropped;
* `scaleByPower` rounds the significand to a double and multiplies or divides it once by a power of
  ten, after divisions by `10^308` for exponents beyond the table.
-/

namespace ShiftMesh.Json

/-- A number as it is written. -/
structure WrittenNumber where
  negative : Bool
  /-- The digits before the point. -/
  whole : List Nat
  /-- The digits after the point, if there is a point. -/
  fraction : Option (List Nat)
  /-- The exponent, if one is written. -/
  exponent : Option Int
  deriving Repr, BEq, DecidableEq, Inhabited

namespace WrittenNumber

/-- Appends digits to a significand while the result stays below `2^64`; also the digits
left over. -/
def takeDigits : (significand : Nat) → List Nat → Nat × List Nat
  | significand, [] => (significand, [])
  | significand, d :: rest =>
    if significand * 10 + d < Nat.pow 2 64 then takeDigits (significand * 10 + d) rest
    else (significand, d :: rest)

/-- The power of ten as the nearest double. -/
def power (k : Nat) : Float := Float.ofScientific 1 false k

/-- Divides by `10^308` until the exponent is in the table or the value is zero.  Three divisions
bring every 64-bit significand to zero. -/
def scaleDown : (rounds : Nat) → (f : Float) → (exponent : Nat) → Float
  | 0, f, _ => f
  | rounds + 1, f, exponent =>
    if exponent ≤ 308 then f / power exponent
    else if f == 0.0 then f
    else scaleDown rounds (f / power 308) (exponent - 308)

/-- A significand times a power of ten, rounded at each step; nothing if the result is infinite. -/
def scaleByPower (significand : Nat) (exponent : Int) : Option Float :=
  let f := Float.ofNat significand
  if 0 ≤ exponent then
    if exponent ≤ 308 then
      let product := f * power exponent.toNat
      if product.isInf then none else some product
    else if f == 0.0 then some f
    else none
  else some (scaleDown 4 f (-exponent).toNat)

/-- The unsigned double that a written number stands for. -/
def magnitude (w : WrittenNumber) : Option Float :=
  let (significand, dropped) := takeDigits 0 w.whole
  let fraction := w.fraction.getD []
  let (significand, unread) := takeDigits significand fraction
  let kept := fraction.length - unread.length
  scaleByPower significand (dropped.length - kept + w.exponent.getD 0)

/-- The number that a written number stands for: a whole number if it is written without a point and
an exponent and fits 64 bits, and a double otherwise.  A negative zero is a double. -/
def toNumber (w : WrittenNumber) : Except Fault Number :=
  let asDouble : Except Fault Number :=
    match w.magnitude with
    | none => .error .numberOutOfRange
    | some f => .ok (.double (if w.negative then -f else f))
  match w.fraction, w.exponent, takeDigits 0 w.whole with
  | none, none, (n, []) =>
    if w.negative then
      if 0 < n ∧ n ≤ Nat.pow 2 63 then .ok (.whole (-(n : Int))) else asDouble
    else .ok (.whole n)
  | _, _, _ => asDouble

end WrittenNumber

end ShiftMesh.Json
