import ShiftMesh.Decimal.Binary
import ShiftMesh.Decimal.Rounding
import ShiftMesh.Scalar

/-!
# ShiftMesh.Container.Single — single-precision bounds that enclose double-precision ones

* `nearestSingle`: the single-precision value nearest to a double, ties to the even significand; a
  double beyond the range of singles becomes infinite.
* `singleBelow`, `singleAbove`: a single-precision value at most, or at least, a double.  Where the
  nearest single lies on the wrong side, the double is first moved by about one unit of the single's
  last place.
-/

namespace ShiftMesh.Container

open Decimal (Binary bitLength roundQuotient)

/-- The double `2^e`, for exponents of normal doubles. -/
def twoPower (e : Int) : Float := Float.ofBits (UInt64.ofNat ((e + 1023).toNat * Nat.pow 2 52))

/-- The single-precision value nearest to `m · 2^q`. -/
def nearestMagnitude (m : Nat) (q : Int) : Float :=
  let unit := max (q + bitLength m - 24) (-149)
  let (n, e) := if unit ≤ q then (m, q) else (roundQuotient m (unit - q).toNat, unit)
  if 128 < e + bitLength n then infinity else Float.ofNat n * twoPower e

/-- The single-precision value nearest to a double. -/
def nearestSingle (x : Float) : Float :=
  match Binary.ofFloat x with
  | .finite negative m q =>
    if m = 0 then x
    else if negative then -nearestMagnitude m q
    else nearestMagnitude m q
  | _ => x

/-- One unit of the last place of a single, relative to one. -/
def singleUnit : Float := 1.0 / 8388608.0

/-- A single-precision value at most `d`. -/
def singleBelow (d : Float) : Float :=
  let f := nearestSingle d
  if d < f then nearestSingle (d * (if d < 0.0 then 1.0 + singleUnit else 1.0 - singleUnit)) else f

/-- A single-precision value at least `d`. -/
def singleAbove (d : Float) : Float :=
  let f := nearestSingle d
  if f < d then nearestSingle (d * (if d < 0.0 then 1.0 - singleUnit else 1.0 + singleUnit)) else f

end ShiftMesh.Container
