import ShiftMesh.Proofs.Evaluation
import ShiftMesh.Proofs.Reach
import ShiftMesh.Proofs.Double.Absorption

/-!
# ShiftMesh.Proofs.NonFinite — points with a coordinate that is no number or infinite

* `Point.OutOfReach`: no triangle contains the point, and no distance from it is below infinity.  In any
  arithmetic no lookup answers for such a point (`OutOfReach.find`).
* `Triangle.inside?_of_not_finite`: the first weight of a point that is not finite is not finite.
* `FallbackStrategy.sqDistance_atTop`: its squared distance to any point is no number or infinite, and
  so is either measure of a triangle.
* `not_finite_never_transformed`: hence such a point is never transformed.
-/

namespace ShiftMesh

/-! ## Points that are out of reach -/

section Any

variable {β α : Type} [Scalar α] [StoredPoint β α]

/-- No triangle contains the point, and it is nowhere near any of them. -/
structure Point.OutOfReach (p : Point α) : Prop where
  inside : ∀ v : Triangle α, v.inside? p = none
  distance : ∀ (strategy : FallbackStrategy) (v : Triangle α),
    Scalar.belowTop (strategy.sqDistance p v) = false

namespace Point.OutOfReach

variable {p : Point α}

/-- No row of a window becomes a candidate. -/
theorem scan_ne_some (h : p.OutOfReach) (strategy : FallbackStrategy) (side : Side)
    (stream : RowStream β α) (n : Nat) (b : Candidate α) :
    stream.scan (fallbackStep strategy side p) none ≠ (n, .ok (some b)) := by
  intro hscan
  have hread := readRows_of_scan (fun _ _ _ => fallbackStep_ne_stop) hscan
  -- there is no candidate before a row, so the row would have to come below infinity
  have hinv := readRows_inv (I := fun (_ : List (TriangleRow β α)) best => best = none)
    (fun pre best r next hbest hstep => ?_) stream.rows [] none rfl hread
  · cases hinv
  · subst hbest
    rcases fallbackStep_cases strategy side p none r with
      ⟨_, -, -, hmore⟩ | ⟨b', ho, -, hbeats, -⟩ | ⟨_, -, herror⟩
    · rw [hmore] at hstep
      injection hstep with hstep
      injection hstep with hstep
      exact hstep.symm
    · rw [beatsBest, ho.sqDistance, h.distance] at hbeats
      cases hbeats
    · rw [herror] at hstep
      cases hstep

/-- No lookup answers for such a point, whatever triangle is cached, and the cached triangle stays. -/
theorem find (h : p.OutOfReach) (s : TriangleSource β α) (cache : Option (CachedTriangle α))
    (d : Direction) :
    (∀ found, (s.find cache p d).answer ≠ .ok (some found)) ∧ (s.find cache p d).cache = cache := by
  have hends := s.find_ends cache p d
  generalize s.find cache p d = lookup at hends ⊢
  cases hends with
  | cached hmatch =>
    obtain ⟨c, -, -, hin, -⟩ := cachedMatch?_eq_some hmatch
    rw [h.inside] at hin
    cases hin
  | failed _ _ => exact ⟨nofun, rfl⟩
  | hit _ hexact =>
    obtain ⟨r, -, hhit⟩ := exists_hits_of_exactSearch hexact
    have hin := hhit.inside
    rw [h.inside] at hin
    cases hin
  | missed _ _ _ => exact ⟨nofun, rfl⟩
  | outward _ _ _ =>
    refine ⟨fun found hfound => ?_, rfl⟩
    obtain ⟨_, _, n, b, -, -, -, hscan, -⟩ := fallbackSearch_some hfound
    exact h.scan_ne_some _ _ _ n b hscan

end Point.OutOfReach

end Any

/-! ## Points that are not finite -/

open Double

variable {p : Point Float}

/-- The coordinates of a point are not both finite. -/
def Point.NotFinite (p : Point Float) : Prop := p.x.isFinite = false ∨ p.y.isFinite = false

/-- A weight within the tolerance of the interval from zero to one is finite. -/
theorem Weights.isFinite_of_admits {l : Float} (h : Weights.admits l = true) : l.isFinite = true := by
  rw [admits, Bool.and_eq_true, decide_eq_true_iff, decide_eq_true_iff] at h
  have hlow : (-(Scalar.tolerance : Float)).isFinite = true := by decide +kernel
  have hhigh : (Scalar.ofNat 1 + Scalar.tolerance : Float).isFinite = true := by decide +kernel
  exact isFinite_of_between hlow hhigh h.1 h.2

theorem Triangle.inside?_of_not_finite (h : p.NotFinite) (v : Triangle Float) :
    v.inside? p = none := by
  cases hin : v.inside? p with
  | none => rfl
  | some w =>
    exfalso
    obtain ⟨hw, hinside⟩ := Triangle.inside?_eq_some.mp hin
    rw [Weights.isInside, Bool.and_eq_true, Bool.and_eq_true] at hinside
    have hfinite := Weights.isFinite_of_admits hinside.1.1
    rw [Triangle.weights?] at hw
    split_ifs at hw
    injection hw with hw
    -- an edge of the triangle may be axis-parallel: zero times an infinity is no number
    have hsum := not_finite_add (h.imp
      (fun hx => not_finite_mul (v.second.y - v.third.y) (not_finite_sub hx v.third.x))
      (fun hy => not_finite_mul (v.third.x - v.second.x) (not_finite_sub hy v.third.y)))
    rw [← hw, not_finite_div hsum] at hfinite
    cases hfinite

theorem Point.sqDistance_atTop (h : p.NotFinite) (q : Point Float) : AtTop (p.sqDistance q) :=
  .add_squares (h.imp (fun hx => not_finite_sub hx q.x) fun hy => not_finite_sub hy q.y)

/-- Whatever place on a segment is taken for the nearest one. -/
theorem Triangle.sqDistanceToSegment_atTop (h : p.NotFinite) (a b : Point Float) (l : Float) :
    AtTop (sqDistanceToSegment p a b l) := by
  rw [sqDistanceToSegment]
  split_ifs <;> exact p.sqDistance_atTop h _

/-- The lesser of two values is one of them. -/
theorem atTop_lesser {a b : Float} (ha : AtTop a) (hb : AtTop b) : AtTop (Scalar.lesser a b) := by
  rw [Scalar.lesser]
  split_ifs <;> assumption

theorem FallbackStrategy.sqDistance_atTop (h : p.NotFinite) (strategy : FallbackStrategy)
    (v : Triangle Float) : AtTop (strategy.sqDistance p v) := by
  have hedges : AtTop (v.sqDistanceToEdges p) :=
    atTop_lesser (atTop_lesser (Triangle.sqDistanceToSegment_atTop h _ _ _)
      (Triangle.sqDistanceToSegment_atTop h _ _ _)) (Triangle.sqDistanceToSegment_atTop h _ _ _)
  cases strategy with
  | none => exact hedges
  | nearestSide => exact hedges
  | nearestCentroid => exact p.sqDistance_atTop h _

theorem Point.NotFinite.outOfReach (h : p.NotFinite) : p.OutOfReach where
  inside := Triangle.inside?_of_not_finite h
  distance strategy v := decide_eq_false (strategy.sqDistance_atTop h v).not_lt

/-- **A point that is not finite is never transformed**, going forward or back, by any source of rows with
any coordinates, whatever triangle is cached: no lookup answers for it, and the cached triangle stays.  If
the rows can be read, it is reported to be outside the mesh. -/
theorem not_finite_never_transformed {β : Type} [StoredPoint β Float] (h : p.NotFinite)
    (s : TriangleSource β Float) (cache : Option (CachedTriangle Float)) (d : Direction) (z : Float) :
    (∀ found, (s.find cache p d).answer ≠ .ok (some found)) ∧
      (s.find cache p d).cache = cache ∧
      (∀ q, (s.transform cache d (.ofPosition p z)).answer ≠ .ok (some q)) ∧
      (s.Readable → (s.find cache p d).answer = .ok none ∧
        (s.transform cache d (.ofPosition p z)).answer = .ok none) := by
  obtain ⟨hfind, hcache⟩ := h.outOfReach.find s cache d
  refine ⟨hfind, hcache, fun q hq => ?_, fun hread => ?_⟩
  · obtain ⟨found, hfound, -⟩ := TriangleSource.transform_answer.mp hq
    exact hfind found hfound
  · obtain ⟨found, hanswer⟩ := hread.exists_answer cache p d
    cases found with
    | some found => exact absurd hanswer (hfind found)
    | none => exact ⟨hanswer, congrArg (Except.map _) hanswer⟩

/-! ## One triangle with a fallback -/

section Outpost

/-- One triangle, with offsets at its corners. -/
def outpostRow : TriangleRow Blob Float where
  geometry := Corners.map (PointBlob.encodeWords PointBlob.stored (-1))
    ⟨⟨0, 0⟩, ⟨0x4020000000000000, 0⟩, ⟨0, 0x4020000000000000⟩⟩
  target := none
  vertical := some (.offset ⟨1, 2, 4⟩)

/-- The triangle answers for the points around it too. -/
def outpostStore : TriangleSource Blob Float :=
  .ofRows
    { horizontal := false, vertical := some .offset, shift := .none, fallback := .nearestSide,
      vertexCount := some ⟨3, by decide, by decide⟩, extent := ⟨⟨0, 0⟩, ⟨8, 8⟩⟩, inputCrs := none,
      outputCrs := none }
    [outpostRow]

/-- A point outside is transformed, but none that is infinitely far to the left, and none without a second
coordinate. -/
theorem outpost_not_finite :
    (outpostStore.transform none .forward ⟨-2, 4, 0⟩).answer.toOption = some (some ⟨-2, 4, 2.25⟩) ∧
      (outpostStore.transform none .forward ⟨-infinity, 4, 0⟩).answer = .ok none ∧
      (outpostStore.transform none .inverse ⟨-2, 0.0 / 0.0, 0⟩).answer = .ok none := by
  have hread : outpostStore.Readable := TriangleSource.ofRows_readable fun r hr => by
    rw [List.mem_singleton.mp hr]
    exact ⟨_, rfl⟩
  have hleft : Point.NotFinite ⟨-infinity, 4⟩ := Or.inl (by decide +kernel)
  have hnan : Point.NotFinite ⟨-2, 0.0 / 0.0⟩ := Or.inr (by decide +kernel)
  exact ⟨by decide +kernel,
    ((not_finite_never_transformed hleft outpostStore none .forward 0).2.2.2 hread).2,
    ((not_finite_never_transformed hnan outpostStore none .inverse 0).2.2.2 hread).2⟩

end Outpost

end ShiftMesh
