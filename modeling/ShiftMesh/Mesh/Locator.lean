import ShiftMesh.Mesh.Source

/-!
# ShiftMesh.Mesh.Locator — the triangle that answers for a point

A lookup tests the triangle that answered the last one, then queries a tight window around the
point, and then, if the mesh declares a fallback strategy, searches outward with a doubling radius
for the nearest usable triangle.

* `cachedMatch?`, `exactSearch`, `fallbackSearch`: the three stages, each with the queries it
  issues.
* `TriangleSource.find`: the lookup.  It is a function from the cached triangle to an answer, the
  next cached triangle, the stage that ended it, and the queries issued.
* `TriangleSource.findAll`: a run of lookups, the cached triangle handed from one to the next.
-/

namespace ShiftMesh

/-- The greatest number of windows that an outward search queries. -/
def maxFallbackRounds : Nat := 20

/-- The answer of a lookup: weights at the corners and the values to be weighted. -/
structure TriangleMatch (α : Type) where
  weights : Weights α
  corrections : CorrectionSet α
  deriving Repr, BEq, DecidableEq

/-- The triangle that answered a lookup, kept for the next one. -/
structure CachedTriangle (α : Type) where
  direction : Direction
  vertices : Triangle α
  corrections : CorrectionSet α
  deriving Repr, BEq, DecidableEq

/-- The nearest triangle seen so far by an outward search. -/
structure Candidate (α : Type) where
  sqDistance : α
  vertices : Triangle α
  corrections : CorrectionSet α
  deriving Repr, BEq, DecidableEq

/-- A query that was issued, and how many of its rows were read. -/
structure Query (α : Type) where
  window : Window α
  visited : Nat
  deriving Repr, BEq, DecidableEq

/-- The stage that ended a lookup. -/
inductive Stage where
  | cache
  | exact
  | fallback
  deriving Repr, BEq, DecidableEq, Inhabited

/-- Everything a lookup leaves behind. -/
structure Lookup (α : Type) where
  /-- The match, nothing if no triangle answers, or a failure. -/
  answer : Except MeshError (Option (TriangleMatch α))
  /-- The triangle kept for the next lookup. -/
  cache : Option (CachedTriangle α)
  /-- The stage that ended the lookup. -/
  stage : Stage
  /-- The queries issued, in order. -/
  queries : List (Query α)

variable {β α : Type} [Scalar α] [StoredPoint β α]

/-! ## The cached triangle -/

/-- The match by the cached triangle, if it was found in the same direction and contains
the point. -/
def cachedMatch? (cache : Option (CachedTriangle α)) (p : Point α) (d : Direction) :
    Option (TriangleMatch α) :=
  match cache with
  | none => none
  | some c =>
    if c.direction = d then (c.vertices.inside? p).map fun w => ⟨w, c.corrections⟩ else none

/-! ## The exact search -/

/-- The window in which a triangle that contains `p` must lie.  Windows are compared with source
boxes, so a search of the target side is moved back by the range of the shifts. -/
def exactWindow (m : MeshMetadata α) (side : Side) (p : Point α) : Window α :=
  match side with
  | .target =>
    ⟨p - m.shift.max - .diagonal Scalar.tolerance, p - m.shift.min + .diagonal Scalar.tolerance⟩
  | .source => .around p Scalar.tolerance

/-- A row that contains the point. -/
structure Hit (α : Type) where
  weights : Weights α
  vertices : Triangle α
  corrections : CorrectionSet α
  deriving Repr, BEq, DecidableEq

/-- Reads rows up to the first one that contains `p`. -/
def exactStep (side : Side) (p : Point α) (_ : Option (Hit α)) (r : TriangleRow β α) :
    Except MeshError (Signal (Option (Hit α))) :=
  match r.vertices side with
  | .error e => .error (.decode e)
  | .ok v =>
    match v.inside? p with
    | none => .ok (.more none)
    | some w =>
      match r.corrections side with
      | .error e => .error (.decode e)
      | .ok c => .ok (.stop (some ⟨w, v, c⟩))

/-- The first row of the exact window that contains `p`. -/
def exactSearch (s : TriangleSource β α) (side : Side) (p : Point α) :
    Query α × Except MeshError (Option (Hit α)) :=
  let window := exactWindow s.metadata side p
  let (visited, hit) := (s.query window).scan (exactStep side p) none
  (⟨window, visited⟩, hit)

/-! ## The outward search -/

/-- Whether a triangle's box comes near enough to beat the best one so far; with none so far, every
box does. -/
def withinBest (best : Option (Candidate α)) (p : Point α) (v : Triangle α) : Bool :=
  match best with
  | none => true
  | some b => v.boxWithin p (Scalar.sqrt b.sqDistance)

/-- Whether a distance beats the best one so far; with none so far, every distance below infinity
does. -/
def beatsBest (best : Option (Candidate α)) (sqDistance : α) : Bool :=
  match best with
  | none => Scalar.belowTop sqDistance
  | some b => decide (sqDistance < b.sqDistance)

/-- Keeps the nearer of the best triangle so far and the row's triangle; degenerate triangles are
passed over. -/
def fallbackStep (strategy : FallbackStrategy) (side : Side) (p : Point α)
    (best : Option (Candidate α)) (r : TriangleRow β α) :
    Except MeshError (Signal (Option (Candidate α))) :=
  match r.vertices side with
  | .error e => .error (.decode e)
  | .ok v =>
    if !withinBest best p v || v.isDegenerate then .ok (.more best)
    else if beatsBest best (strategy.sqDistance p v) then
      match r.corrections side with
      | .error e => .error (.decode e)
      | .ok c => .ok (.more (some ⟨strategy.sqDistance p v, v, c⟩))
    else .ok (.more best)

/-- Queries windows of doubling radius until one of them holds a usable triangle, the radius exceeds
the limit, or the rounds are used up. -/
def searchOutward (s : TriangleSource β α) (side : Side) (p center : Point α) (limit : α) :
    (rounds : Nat) → (radius : α) → List (Query α) × Except MeshError (Option (Candidate α))
  | 0, _ => ([], .ok none)
  | rounds + 1, radius =>
    if limit < radius then ([], .ok none)
    else
      let window := Window.around center radius
      match (s.query window).scan (fallbackStep s.metadata.fallback side p) none with
      | (visited, .error e) => ([⟨window, visited⟩], .error e)
      | (visited, .ok (some best)) => ([⟨window, visited⟩], .ok (some best))
      | (visited, .ok none) =>
        let wider := radius * Scalar.ofNat 2
        let (queries, result) := searchOutward s side p center limit rounds wider
        (⟨window, visited⟩ :: queries, result)

/-- The centre of the outward search: the point, moved back by the middle of the shift range if the
target side is searched, and then into the extent. -/
def searchCenter (m : MeshMetadata α) (side : Side) (p : Point α) : Point α :=
  let offset := match side with
    | .target => -m.shift.midpoint
    | .source => .origin
  m.extent.clamp (p + offset)

/-- The first radius of the outward search: the expected spacing of the vertices. -/
def firstRadius (m : MeshMetadata α) (n : VertexCount) : α :=
  Scalar.sqrt (m.extent.width * m.extent.height / Scalar.ofNat n.val)

/-- The match by the nearest usable triangle, if the outward search meets one. -/
def fallbackSearch (s : TriangleSource β α) (side : Side) (p : Point α) :
    List (Query α) × Except MeshError (Option (TriangleMatch α)) :=
  match s.metadata.vertexCount with
  | none => ([], .ok none)
  | some n =>
    let m := s.metadata
    let (queries, result) := searchOutward s side p (searchCenter m side p) m.extent.longerSide
      maxFallbackRounds (firstRadius m n)
    (queries, result.map fun best =>
      best.bind fun b => (b.vertices.weights? p).map fun w => ⟨w, b.corrections⟩)

/-! ## Lookups -/

namespace TriangleSource

/-- Finds the triangle that answers for a point.  Only a hit of the exact search replaces the cached
triangle. -/
def find (s : TriangleSource β α) (cache : Option (CachedTriangle α)) (p : Point α)
    (d : Direction) : Lookup α :=
  match cachedMatch? cache p d with
  | some m => ⟨.ok (some m), cache, .cache, []⟩
  | none =>
    let side := s.metadata.searchedSide d
    match exactSearch s side p with
    | (query, .error e) => ⟨.error e, cache, .exact, [query]⟩
    | (query, .ok (some hit)) =>
      ⟨.ok (some ⟨hit.weights, hit.corrections⟩), some ⟨d, hit.vertices, hit.corrections⟩, .exact,
        [query]⟩
    | (query, .ok none) =>
      match s.metadata.fallback with
      | .none => ⟨.ok none, cache, .exact, [query]⟩
      | _ =>
        let (queries, answer) := fallbackSearch s side p
        ⟨answer, cache, .fallback, query :: queries⟩

/-- A run of lookups, the cached triangle handed from one to the next. -/
def findAll (s : TriangleSource β α) (cache : Option (CachedTriangle α)) :
    List (Point α × Direction) → List (Lookup α)
  | [] => []
  | (p, d) :: rest =>
    let lookup := s.find cache p d
    lookup :: s.findAll lookup.cache rest

end TriangleSource

end ShiftMesh
