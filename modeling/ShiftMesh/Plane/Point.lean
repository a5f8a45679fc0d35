import ShiftMesh.Scalar

/-!
# ShiftMesh.Plane.Point — points of the plane, coordinates with a height, and triples of corners

* `Point`: a pair of coordinates with componentwise arithmetic.
* `Point.lower`, `Point.upper`, `Point.clamp`: componentwise choice by one comparison; the second
  operand wins unless the first is strictly better, so a value that compares with nothing hands the
  choice to the second operand.
* `Point.words`, `Point.ofWords`: the doubles of a point as words.
* `Corners`: one value for each corner of a triangle.
-/

namespace ShiftMesh

/-- A position in the plane. -/
structure Point (α : Type) where
  x : α
  y : α
  deriving Repr, BEq, DecidableEq, Inhabited

/-- A position in the plane with a height. -/
structure Coordinate (α : Type) where
  x : α
  y : α
  z : α
  deriving Repr, BEq, DecidableEq, Inhabited

/-- One value for each corner of a triangle. -/
structure Corners (β : Type) where
  first : β
  second : β
  third : β
  deriving Repr, BEq, DecidableEq, Inhabited

/-- A triangle is given by the positions of its corners. -/
abbrev Triangle (α : Type) := Corners (Point α)

namespace Corners

variable {β γ : Type}

/-- The same value at each corner. -/
def all (b : β) : Corners β := ⟨b, b, b⟩

/-- Applies a function at each corner. -/
def map (f : β → γ) (c : Corners β) : Corners γ := ⟨f c.first, f c.second, f c.third⟩

/-- Pairs the values of two triples, corner by corner. -/
def zip (f : β → β → γ) (c d : Corners β) : Corners γ :=
  ⟨f c.first d.first, f c.second d.second, f c.third d.third⟩

/-- The corners in order. -/
def toList (c : Corners β) : List β := [c.first, c.second, c.third]

/-- Reads each corner in order; the first corner that fails decides the failure. -/
def mapM? {ε : Type} (f : β → Except ε γ) (c : Corners β) : Except ε (Corners γ) :=
  match f c.first with
  | .error e => .error e
  | .ok a =>
    match f c.second with
    | .error e => .error e
    | .ok b =>
      match f c.third with
      | .error e => .error e
      | .ok d => .ok ⟨a, b, d⟩

end Corners

namespace Point

variable {α : Type} [Scalar α]

instance : Add (Point α) := ⟨fun p q => ⟨p.x + q.x, p.y + q.y⟩⟩
instance : Sub (Point α) := ⟨fun p q => ⟨p.x - q.x, p.y - q.y⟩⟩
instance : Neg (Point α) := ⟨fun p => ⟨-p.x, -p.y⟩⟩

/-- The point with both coordinates equal. -/
def diagonal (a : α) : Point α := ⟨a, a⟩

/-- The point whose coordinates are both zero. -/
def origin : Point α := diagonal (Scalar.ofNat 0)

/-- Both coordinates times a factor. -/
def scale (p : Point α) (a : α) : Point α := ⟨p.x * a, p.y * a⟩

/-- Both coordinates over a divisor. -/
def divide (p : Point α) (a : α) : Point α := ⟨p.x / a, p.y / a⟩

/-- The scalar product. -/
def dot (p q : Point α) : α := p.x * q.x + p.y * q.y

/-- The squared distance of two points. -/
def sqDistance (p q : Point α) : α := (p - q).dot (p - q)

/-- The smaller value in each coordinate. -/
def lower (p q : Point α) : Point α := ⟨Scalar.pickLess p.x q.x, Scalar.pickLess p.y q.y⟩

/-- The larger value in each coordinate. -/
def upper (p q : Point α) : Point α := ⟨Scalar.pickGreater p.x q.x, Scalar.pickGreater p.y q.y⟩

/-- Moves a point into the box from `lo` to `hi`, one coordinate at a time. -/
def clamp (p lo hi : Point α) : Point α := (p.upper lo).lower hi

end Point

namespace Point

/-- The words of a point of doubles. -/
def words (p : Point Float) : Point UInt64 := ⟨p.x.toBits, p.y.toBits⟩

/-- The point of doubles with these words; all words of values that are no number give one point. -/
def ofWords (w : Point UInt64) : Point Float := ⟨Float.ofBits w.x, Float.ofBits w.y⟩

end Point

namespace Coordinate

variable {α : Type}

/-- The position below a coordinate. -/
def position (c : Coordinate α) : Point α := ⟨c.x, c.y⟩

/-- A position lifted to a height. -/
def ofPosition (p : Point α) (z : α) : Coordinate α := ⟨p.x, p.y, z⟩

end Coordinate

end ShiftMesh
