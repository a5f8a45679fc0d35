/-!
# ShiftMesh.Scalar — the arithmetic a mesh is evaluated in

Every geometric definition of the library is written over a `Scalar`, so that the definition which
runs on binary doubles is the same one that is reasoned about over an exact field.

* `Scalar`: the operations and comparisons, with no law attached.
* `Scalar.lesser`, `Scalar.greater`: the smaller and the larger of two values, where an operand that
  is not comparable with itself loses against the other one.
* `Scalar.pickLess`, `Scalar.pickGreater`: the same by one comparison, where the second operand wins
  unless the first one is strictly better.
* `Float` is a scalar.
-/

namespace ShiftMesh

/-- The operations that geometry, search and interpolation use.  No law is assumed: a statement over
every `Scalar` holds in every arithmetic. -/
class Scalar (α : Type) extends Add α, Sub α, Mul α, Div α, Neg α, LT α, LE α where
  /-- Strict comparison is decided. -/
  decLt : DecidableLT α
  /-- Weak comparison is decided. -/
  decLe : DecidableLE α
  /-- The value of a count. -/
  ofNat : Nat → α
  /-- The square root. -/
  sqrt : α → α
  /-- The absolute value. -/
  abs : α → α
  /-- The tolerance of degeneracy, of containment and of windows around a point. -/
  tolerance : α
  /-- Whether a value lies below positive infinity; true of every value where there is no infinity.
  -/
  belowTop : α → Bool

attribute [reducible, instance] Scalar.decLt Scalar.decLe

namespace Scalar

variable {α : Type} [Scalar α]

/-- The smaller of two values; an operand that is not at most itself is passed over. -/
def lesser (a b : α) : α :=
  if a < b then a else if b ≤ b then b else a

/-- The larger of two values; an operand that is not at most itself is passed over. -/
def greater (a b : α) : α :=
  if b < a then a else if b ≤ b then b else a

/-- The first value if it is strictly smaller, otherwise the second. -/
def pickLess (a b : α) : α :=
  if a < b then a else b

/-- The first value if it is strictly larger, otherwise the second. -/
def pickGreater (a b : α) : α :=
  if b < a then a else b

end Scalar

/-- Positive infinity of the binary doubles. -/
def infinity : Float := 1.0 / 0.0

/-- Binary doubles, each operation rounded once. -/
instance : Scalar Float where
  decLt := inferInstance
  decLe := inferInstance
  ofNat := Float.ofNat
  sqrt := Float.sqrt
  abs := Float.abs
  tolerance := 1e-10
  belowTop x := x < infinity

end ShiftMesh
