import ShiftMesh.Plane.Point

/-!
# ShiftMesh.Plane.Triangle — barycentric weights and distances of a triangle

* `Triangle.weights?`: the weights of a point, unless the triangle's determinant is below the
  tolerance.  The third weight is one less the other two, so the weights sum to one by construction.
* `Weights.isInside`: every weight within the tolerance of `[0, 1]`.
* `Weights.blend`, `Weights.blendPoint`: the weighted sum of corner values and of corner positions.
* `Triangle.sqDistanceToEdges`, `Triangle.centroid`: the two measures by which a nearest triangle is
  chosen.
* `Triangle.isDegenerate`: an edge of nearly no length, or a determinant below the tolerance.
* `Triangle.boxWithin`: whether the bounding box comes within a distance of a point on both axes.
-/

namespace ShiftMesh

/-- The barycentric weights of a point with respect to the three corners. -/
structure Weights (α : Type) where
  first : α
  second : α
  third : α
  deriving Repr, BEq, DecidableEq, Inhabited

variable {α : Type} [Scalar α]

namespace Weights

/-- A weight within the tolerance of the interval from zero to one. -/
def admits (l : α) : Bool :=
  decide (-(Scalar.tolerance : α) ≤ l) && decide (l ≤ Scalar.ofNat 1 + Scalar.tolerance)

/-- Every weight lies within the tolerance of the interval from zero to one. -/
def isInside (w : Weights α) : Bool :=
  admits w.first && admits w.second && admits w.third

/-- The weighted sum of corner values. -/
def blend (w : Weights α) (values : Corners α) : α :=
  w.first * values.first + w.second * values.second + w.third * values.third

/-- The weighted sum of corner positions. -/
def blendPoint (w : Weights α) (v : Triangle α) : Point α :=
  v.first.scale w.first + v.second.scale w.second + v.third.scale w.third

end Weights

namespace Triangle

/-- Twice the signed area. -/
def det (v : Triangle α) : α :=
  (v.second.y - v.third.y) * (v.first.x - v.third.x) +
    (v.third.x - v.second.x) * (v.first.y - v.third.y)

/-- The weights of a point, or nothing if the triangle's determinant is below the tolerance. -/
def weights? (v : Triangle α) (p : Point α) : Option (Weights α) :=
  if Scalar.abs (det v) < Scalar.tolerance then none
  else
    let l1 :=
      ((v.second.y - v.third.y) * (p.x - v.third.x) +
        (v.third.x - v.second.x) * (p.y - v.third.y)) / det v
    let l2 :=
      ((v.third.y - v.first.y) * (p.x - v.third.x) +
        (v.first.x - v.third.x) * (p.y - v.third.y)) / det v
    some ⟨l1, l2, Scalar.ofNat 1 - l1 - l2⟩

/-- The weights of a point that the triangle contains, with tolerance. -/
def inside? (v : Triangle α) (p : Point α) : Option (Weights α) :=
  (weights? v p).filter Weights.isInside

/-- The squared distance from `p` to the segment from `a` to `b`, whose squared length is
`sqLength`. -/
def sqDistanceToSegment (p a b : Point α) (sqLength : α) : α :=
  let t := (p - a).dot (b - a) / sqLength
  if t ≤ Scalar.ofNat 0 then p.sqDistance a
  else if Scalar.ofNat 1 ≤ t then p.sqDistance b
  else p.sqDistance (a + (b - a).scale t)

/-- The squared lengths of the edges from first to second, second to third and first to third
corner. -/
def sqEdgeLengths (v : Triangle α) : Corners α :=
  ⟨v.first.sqDistance v.second, v.second.sqDistance v.third, v.first.sqDistance v.third⟩

/-- The smallest squared distance from a point to an edge. -/
def sqDistanceToEdges (v : Triangle α) (p : Point α) : α :=
  Scalar.lesser
    (Scalar.lesser (sqDistanceToSegment p v.first v.second (sqEdgeLengths v).first)
      (sqDistanceToSegment p v.second v.third (sqEdgeLengths v).second))
    (sqDistanceToSegment p v.first v.third (sqEdgeLengths v).third)

/-- The mean of the corners. -/
def centroid (v : Triangle α) : Point α :=
  (v.first + v.second + v.third).divide (Scalar.ofNat 3)

/-- Some edge has a squared length below the tolerance. -/
def hasShortEdge (v : Triangle α) : Bool :=
  (sqEdgeLengths v).toList.any fun d => decide (d < Scalar.tolerance)

/-- An edge of nearly no length, or nearly no area. -/
def isDegenerate (v : Triangle α) : Bool :=
  hasShortEdge v || (weights? v v.first).isNone

/-- The lower corner of the bounding box. -/
def boxMin (v : Triangle α) : Point α := (v.first.lower v.second).lower v.third

/-- The upper corner of the bounding box. -/
def boxMax (v : Triangle α) : Point α := (v.first.upper v.second).upper v.third

/-- Whether the bounding box comes within `distance` of `p` on both axes. -/
def boxWithin (v : Triangle α) (p : Point α) (distance : α) : Bool :=
  !(decide (p.x + distance < (boxMin v).x) || decide ((boxMax v).x < p.x - distance) ||
    decide (p.y + distance < (boxMin v).y) || decide ((boxMax v).y < p.y - distance))

end Triangle

end ShiftMesh
