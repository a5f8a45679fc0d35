import ShiftMesh.Mesh.Locator

/-!
# ShiftMesh.Mesh.Evaluator — applying the corrections of the triangle that answers

* `TriangleMatch.apply`: the corrected coordinate: the weighted output corners, or the position
  itself without horizontal corrections, and the height plus or minus the weighted offsets.
* `TriangleSource.transform`: a lookup at the position followed by the correction.
* `TriangleSource.transformAll`: a run of transformations, the cached triangle handed from one to
  the next.
-/

namespace ShiftMesh

variable {β α : Type} [Scalar α] [StoredPoint β α]

/-- The factor of a height correction: it is added going forward and subtracted going back. -/
def Direction.sign : Direction → α
  | .forward => Scalar.ofNat 1
  | .inverse => -Scalar.ofNat 1

/-- The coordinate corrected by a match. -/
def TriangleMatch.apply (m : TriangleMatch α) (d : Direction) (c : Coordinate α) : Coordinate α :=
  let position := match m.corrections.horizontal with
    | some corners => m.weights.blendPoint corners
    | none => c.position
  let z := match m.corrections.vertical with
    | some values => c.z + d.sign * m.weights.blend values.offsets
    | none => c.z
  .ofPosition position z

/-- Everything a transformation leaves behind. -/
structure Evaluation (α : Type) where
  /-- The corrected coordinate, nothing outside the mesh, or a failure. -/
  answer : Except MeshError (Option (Coordinate α))
  /-- The triangle kept for the next lookup. -/
  cache : Option (CachedTriangle α)
  /-- The stage that ended the lookup. -/
  stage : Stage
  /-- The queries issued, in order. -/
  queries : List (Query α)

namespace TriangleSource

/-- Corrects a coordinate by the triangle that answers for its position. -/
def transform (s : TriangleSource β α) (cache : Option (CachedTriangle α)) (d : Direction)
    (c : Coordinate α) : Evaluation α :=
  let lookup := s.find cache c.position d
  { answer := lookup.answer.map fun found => found.map fun m => m.apply d c
    cache := lookup.cache
    stage := lookup.stage
    queries := lookup.queries }

/-- A run of transformations, the cached triangle handed from one to the next. -/
def transformAll (s : TriangleSource β α) (cache : Option (CachedTriangle α)) :
    List (Direction × Coordinate α) → List (Evaluation α)
  | [] => []
  | (d, c) :: rest =>
    let evaluation := s.transform cache d c
    evaluation :: s.transformAll evaluation.cache rest

end TriangleSource

/-- The marker for a coordinate that cannot be transformed. -/
def notTransformable : Coordinate Float := ⟨infinity, infinity, infinity⟩

end ShiftMesh
