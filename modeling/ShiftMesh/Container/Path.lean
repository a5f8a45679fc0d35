import ShiftMesh.Text.Blank

/-!
# ShiftMesh.Container.Path — written paths, and the places that they name

* `Place`: names below the root, or below the working directory or a directory above it.
* `Path`: where a written path starts, and the parts between its separators.
* `Path.place`: the place that a path names by its words alone; two dots take back the name before
  them.
* `Place.spelling`: a path that names a place.
-/

namespace ShiftMesh.Container

/-- The directories from which places are named. -/
inductive Anchor where
  /-- The root. -/
  | root
  /-- The directory so many levels above the working directory. -/
  | working (levels : Nat)
  deriving Repr, BEq, DecidableEq, Inhabited

/-- A place: the names that lead to it from its anchor. -/
structure Place where
  anchor : Anchor := .working 0
  names : List String := []
  deriving Repr, BEq, DecidableEq, Inhabited

namespace Place

/-- The directory of a place; the root is its own. -/
def parent : Place → Place
  | ⟨.root, []⟩ => ⟨.root, []⟩
  | ⟨.working levels, []⟩ => ⟨.working (levels + 1), []⟩
  | ⟨anchor, names⟩ => ⟨anchor, names.dropLast⟩

/-- The place of a name in a directory. -/
def child (p : Place) (name : String) : Place := ⟨p.anchor, p.names ++ [name]⟩

/-- The last name of a place; an anchor has none. -/
def name (p : Place) : String := p.names.getLastD ""

/-- Follows one part of a path: an empty part and a dot stay, two dots go up, and any other part is
a name. -/
def enter (p : Place) (part : String) : Place :=
  if part = "" ∨ part = "." then p
  else if part = ".." then p.parent
  else p.child part

/-- The places that the parts of a path come through from a place on, the last one at the end. -/
def trail (here : Place) : List String → List Place
  | [] => [here]
  | part :: rest => here :: trail (here.enter part) rest

/-- A path that names a place. -/
def spelling : Place → String
  | ⟨.root, names⟩ => "/" ++ "/".intercalate names
  | ⟨.working levels, names⟩ => "/".intercalate ("." :: List.replicate levels ".." ++ names)

end Place

/-- A written path. -/
structure Path where
  start : Place
  /-- The parts between the separators; the empty path has none. -/
  parts : List String
  deriving Repr, BEq, DecidableEq, Inhabited

namespace Path

/-- Takes a written path apart. -/
def ofString (s : String) : Path where
  start := if s.toList.head? = some '/' then { anchor := .root } else {}
  parts := if s.isEmpty then [] else (Text.split (· == '/') s.toList).map String.ofList

/-- The place that a path names by its words alone, whether or not the names on the way are
there. -/
def place (p : Path) : Place := p.parts.foldl Place.enter p.start

/-- The places that a path comes through by its words alone, its own place last. -/
def stops (p : Path) : List Place := p.start.trail p.parts

end Path

end ShiftMesh.Container
