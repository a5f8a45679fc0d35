/-!
# ShiftMesh.Decimal.Rounding — rounding to a number of binary digits

* `bitLength`: the number of binary digits.
* `roundQuotient`: a quotient by a power of two, rounded to nearest, ties to even.
-/

namespace ShiftMesh.Decimal

/-- The number of binary digits. -/
def bitLength (n : Nat) : Nat := if n = 0 then 0 else n.log2 + 1

/-- The quotient by a power of two, rounded to nearest, ties to even. -/
def roundQuotient (m shift : Nat) : Nat :=
  let quotient := m / Nat.pow 2 shift
  let twice := 2 * (m % Nat.pow 2 shift)
  if twice < Nat.pow 2 shift then quotient
  else if Nat.pow 2 shift < twice then quotient + 1
  else quotient + quotient % 2

end ShiftMesh.Decimal
