import ShiftMesh.Plane.Triangle

/-!
# ShiftMesh.Plane.Window — query windows, extents and ranges of shifts

* `Window`: an axis-aligned query window, inclusive on every side; `Window.meets` tells whether a
  box meets it.
* `Extent`: the box of the mesh's vertices; `Extent.isProper` asks for a positive width and height.
* `ShiftRange`: the least and the greatest horizontal shift over the vertices, with its midpoint.
-/

namespace ShiftMesh

/-- An axis-aligned query window, inclusive on every side. -/
structure Window (α : Type) where
  min : Point α
  max : Point α
  deriving Repr, BEq, DecidableEq, Inhabited

/-- The axis-aligned extent of the vertices of a mesh. -/
structure Extent (α : Type) where
  min : Point α
  max : Point α
  deriving Repr, BEq, DecidableEq, Inhabited

/-- The range of the horizontal shifts, target less source, over the vertices of a mesh. -/
structure ShiftRange (α : Type) where
  min : Point α
  max : Point α
  deriving Repr, BEq, DecidableEq, Inhabited

variable {α : Type} [Scalar α]

namespace Window

/-- The square window of half-width `radius` around a centre. -/
def around (center : Point α) (radius : α) : Window α :=
  ⟨center - .diagonal radius, center + .diagonal radius⟩

/-- Whether the box from `lo` to `hi` meets the window. -/
def meets (w : Window α) (lo hi : Point α) : Bool :=
  decide (w.min.x ≤ hi.x) && decide (lo.x ≤ w.max.x) &&
    decide (w.min.y ≤ hi.y) && decide (lo.y ≤ w.max.y)

/-- Whether the bounding box of a triangle meets the window. -/
def meetsTriangle (w : Window α) (v : Triangle α) : Bool :=
  w.meets v.boxMin v.boxMax

end Window

namespace Extent

/-- The lower corner is strictly below the upper one on both axes. -/
def isProper (e : Extent α) : Bool :=
  decide (e.min.x < e.max.x) && decide (e.min.y < e.max.y)

/-- The extent along the first axis. -/
def width (e : Extent α) : α := e.max.x - e.min.x

/-- The extent along the second axis. -/
def height (e : Extent α) : α := e.max.y - e.min.y

/-- The larger of width and height. -/
def longerSide (e : Extent α) : α := Scalar.greater e.width e.height

/-- Moves a point into the extent. -/
def clamp (e : Extent α) (p : Point α) : Point α := p.clamp e.min e.max

end Extent

namespace ShiftRange

/-- The range of a mesh without horizontal shifts. -/
def none : ShiftRange α := ⟨.origin, .origin⟩

/-- The point halfway between the least and the greatest shift. -/
def midpoint (s : ShiftRange α) : Point α :=
  (s.min + s.max).scale (Scalar.ofNat 1 / Scalar.ofNat 2)

/-- Widens a range to hold one more shift. -/
def widen (s : ShiftRange α) (shift : Point α) : ShiftRange α :=
  ⟨s.min.lower shift, s.max.upper shift⟩

/-- The smallest range that holds the given shifts. -/
def ofShifts : List (Point α) → ShiftRange α
  | [] => none
  | s :: rest => rest.foldl widen ⟨s, s⟩

end ShiftRange

end ShiftMesh
