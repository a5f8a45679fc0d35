import ShiftMesh.Proofs.Coverage

/-!
# ShiftMesh.Proofs.History — what the cached triangle adds to a lookup

A lookup with a cached triangle tests the triangle itself; a lookup without one tests only rows whose
source boxes meet the exact window.  The two tests have different slack: the first is relative to the
triangle, the second is the tolerance itself.

* `found_iff`: without a fallback, a point is found from an empty cache if and only if some row of the
  exact window hits.
* `cache_adds_only_band`: after any run a point is found if it is found from an empty cache; if it is
  found only after the run, it lies just outside the cached triangle, and that triangle is large.
* `found_only_after_run`: there is such a point.
-/

namespace ShiftMesh

variable {β : Type} [StoredPoint β ℝ] {m : MeshMetadata ℝ} {rows : List (TriangleRow β ℝ)}
  {cache : Option (CachedTriangle ℝ)} {p : Point ℝ} {d : Direction}

/-- Without a cached triangle and without a fallback, a point is found if and only if some row whose
source box meets the exact window hits. -/
theorem found_iff (hdecode : ∀ r ∈ rows, ∃ t, r.triangle = .ok t) (hfallback : m.fallback = .none) :
    ((TriangleSource.ofRows m rows).find none p d).Found ↔
      ∃ r ∈ rows, r.meets (exactWindow m (m.searchedSide d) p) = true ∧
        ∃ hit, r.Hits (m.searchedSide d) p hit := by
  have hends := (TriangleSource.ofRows m rows).find_ends none p d
  generalize (TriangleSource.ofRows m rows).find none p d = lookup at hends ⊢
  cases hends with
  | cached hcache => cases hcache
  | failed _ hexact =>
    obtain ⟨q', found, hok⟩ := (TriangleSource.ofRows_streamsMeeting m rows).exists_exactSearch hdecode
      (m.searchedSide d) p
    rw [TriangleSource.ofRows_metadata, hok] at hexact
    cases hexact
  | hit _ hexact =>
    obtain ⟨r, hr, hhit⟩ := exists_hits_of_exactSearch hexact
    rw [exactSearch_window hexact, TriangleSource.ofRows_metadata] at hr
    rw [TriangleSource.ofRows_metadata] at hhit
    obtain ⟨hr, hmeets⟩ := TriangleSource.mem_query_ofRows.mp hr
    exact ⟨fun _ => ⟨r, hr, hmeets, _, hhit⟩, fun _ => ⟨_, rfl⟩⟩
  | missed _ hexact _ =>
    have hmiss := exactSearch_none hexact
    simp only [TriangleSource.ofRows_metadata] at hmiss
    constructor
    · rintro ⟨_, h⟩
      cases h
    · rintro ⟨r, hr, hmeets, hit, hhit⟩
      exact absurd (hmiss r (TriangleSource.mem_query_ofRows.mpr ⟨hr, hmeets⟩)) hhit.not_misses
  | outward _ _ hne => exact absurd hfallback hne

/-- Some weight is negative: the point lies beyond an edge. -/
def Weights.Beyond (w : Weights ℝ) : Prop := w.first < 0 ∨ w.second < 0 ∨ w.third < 0

/-- The box of a triangle and the shifts of a side extend together over more than a length, on some
axis. -/
def MeshMetadata.Spans (m : MeshMetadata ℝ) (side : Side) (t : Triangle ℝ) (length : ℝ) : Prop :=
  length < t.boxMax.x - t.boxMin.x + ((m.sideShift side).max.x - (m.sideShift side).min.x) ∨
    length < t.boxMax.y - t.boxMin.y + ((m.sideShift side).max.y - (m.sideShift side).min.y)

/-- The exact window of a point leaves out a triangle that contains the point only if the point lies
beyond an edge and the triangle is large. -/
theorem beyond_and_spans {side : Side} {t v : Triangle ℝ} (hshift : (m.sideShift side).Bounds t v)
    {w : Weights ℝ} (hw : v.inside? p = some w)
    (hmeets : (exactWindow m side p).meetsTriangle t = false) : w.Beyond ∧ m.Spans side t (1 / 2) := by
  have hweights := (Triangle.inside?_eq_some.mp hw).1
  have hmeets' := Bool.eq_false_iff.mp hmeets
  constructor
  · by_contra hnot
    simp only [Weights.Beyond, not_or, not_lt] at hnot
    exact hmeets' (meetsTriangle_exactWindow_of_nonneg hshift hweights hnot.1 hnot.2.1 hnot.2.2)
  · by_contra hnot
    simp only [MeshMetadata.Spans, not_or, not_lt] at hnot
    have hpos := Scalar.tolerance_pos
    have hsmall : ∀ {a : ℝ}, a ≤ 1 / 2 → 2 * Scalar.tolerance * a ≤ Scalar.tolerance := fun ha => by
      nlinarith
    refine hmeets' ?_
    rw [← Triangle.blendPoint_of_weights? hweights]
    exact meetsTriangle_exactWindow hshift (Triangle.above_of_inside? hw) hpos.le (hsmall hnot.1)
      (hsmall hnot.2)

/-- **The cached triangle adds no more than a thin band.**  Without a fallback, after any run over rows
that can be read, a point is found if it is found from an empty cache.  If it is found only after the
run, the cached triangle answers: it is that of a row whose corners contain the point and whose source
box the exact window misses.  If the metadata's range bounds the row's shifts, the point lies beyond an
edge, and box and shifts extend together over more than one half. -/
theorem cache_adds_only_band (hdecode : ∀ r ∈ rows, ∃ t, r.triangle = .ok t)
    (hfallback : m.fallback = .none)
    (hcache : CacheReachable (· = TriangleSource.ofRows m rows) cache) (p : Point ℝ) (d : Direction) :
    (((TriangleSource.ofRows m rows).find none p d).Found →
      ((TriangleSource.ofRows m rows).find cache p d).Found) ∧
    (((TriangleSource.ofRows m rows).find cache p d).Found →
      ¬ ((TriangleSource.ofRows m rows).find none p d).Found →
      ((TriangleSource.ofRows m rows).find cache p d).stage = .cache ∧
        ∃ c, cache = some c ∧ c.direction = d ∧
          ∃ r ∈ rows, ∃ t w, r.triangle = .ok t ∧ r.vertices (m.searchedSide d) = .ok c.vertices ∧
            c.vertices.inside? p = some w ∧ r.meets (exactWindow m (m.searchedSide d) p) = false ∧
            ((m.sideShift (m.searchedSide d)).Bounds t c.vertices →
              w.Beyond ∧ m.Spans (m.searchedSide d) t (1 / 2))) := by
  cases hmatch : cachedMatch? cache p d with
  | none =>
    -- the cached triangle has no part in the answer
    have hsame : ((TriangleSource.ofRows m rows).find cache p d).Found ↔
        ((TriangleSource.ofRows m rows).find none p d).Found := by
      rw [Lookup.Found, Lookup.Found, TriangleSource.find_answer_eq hmatch]
    exact ⟨hsame.mpr, fun hwarm hfresh => absurd (hsame.mp hwarm) hfresh⟩
  | some found =>
    have hfind := (Lookup.Ends.cached (s := TriangleSource.ofRows m rows) hmatch).find_eq
    refine ⟨fun _ => ⟨found, by rw [hfind]⟩, fun _ hfresh => ⟨by rw [hfind], ?_⟩⟩
    obtain ⟨c, hc, hd, hin, -⟩ := cachedMatch?_eq_some hmatch
    have hdraws : ∀ s, s = TriangleSource.ofRows m rows → s.DrawsFrom m rows := fun s hs =>
      hs ▸ TriangleSource.ofRows_drawsFrom m rows
    obtain ⟨r, hr, hprovides⟩ := (hcache.mono hdraws).provided c hc
    rw [hd] at hprovides
    obtain ⟨t, ht⟩ := hdecode r hr
    -- the row of the cached triangle would hit, so its box misses the window
    have hmisses : r.meets (exactWindow m (m.searchedSide d) p) = false := by
      by_contra hmeets
      rw [Bool.not_eq_false] at hmeets
      exact hfresh ((found_iff hdecode hfallback).mpr ⟨r, hr, hmeets, ⟨found.weights, c.vertices,
        c.corrections⟩, hprovides.vertices, hin, hprovides.corrections⟩)
    refine ⟨c, hc, hd, r, hr, t, found.weights, ht, hprovides.vertices, hin, hmisses,
      fun hshift => ?_⟩
    rw [TriangleRow.meets_eq ht] at hmisses
    exact beyond_and_spans hshift hin hmisses

/-! ## A point of the band -/

section Band

/-- Five times the tolerance below the lower edge of the wedge. -/
noncomputable def belowEdge : Point ℝ := Point.whole 5 0 - (Point.whole 0 5).scale Scalar.tolerance

theorem belowEdge_weights : wedgeCorners.weights? belowEdge =
    some ⟨1 / 2 + 1 / (2 * 10 ^ 10), 1 / 2, -1 / (2 * 10 ^ 10)⟩ := by
  refine Triangle.weights?_eq_some_of ?_ (by norm_num) (Point.eq_of_coordinates ?_ ?_)
  · exact Triangle.not_lt_of_weights? wedgeCorners_weights
  · norm_num [Weights.blendPoint, wedgeCorners, belowEdge, Scalar.tolerance_real]
  · norm_num [Weights.blendPoint, wedgeCorners, belowEdge, Scalar.tolerance_real]

/-- The wedge contains the point with tolerance. -/
theorem belowEdge_inside : wedgeCorners.inside? belowEdge =
    some ⟨1 / 2 + 1 / (2 * 10 ^ 10), 1 / 2, -1 / (2 * 10 ^ 10)⟩ := by
  refine Triangle.inside?_eq_some.mpr ⟨belowEdge_weights, Weights.isInside_iff.mpr ?_⟩
  norm_num [Scalar.tolerance_real]

/-- The exact window of the point misses the box of the wedge. -/
theorem belowEdge_not_meets : wedge.meets (exactWindow wedgeMesh .source belowEdge) = false := by
  rw [Bool.eq_false_iff, ne_eq, TriangleRow.meets_eq (t := wedgeCorners) rfl, Window.meetsTriangle,
    Window.meets_iff]
  norm_num [exactWindow, Window.around, Triangle.boxMin_y, wedgeCorners, belowEdge,
    Scalar.tolerance_real]

/-- A run of one lookup, which caches the wedge. -/
theorem wedge_run :
    CacheReachable (· = wedgeStore) (wedgeStore.find none ⟨1, 1⟩ .forward).cache :=
  .find (.start : CacheReachable (· = wedgeStore) none) rfl ⟨1, 1⟩ .forward

/-- After that run the cached wedge answers for the point. -/
theorem belowEdge_find :
    wedgeStore.find (wedgeStore.find none ⟨1, 1⟩ .forward).cache belowEdge .forward =
      ⟨.ok (some ⟨⟨1 / 2 + 1 / (2 * 10 ^ 10), 1 / 2, -1 / (2 * 10 ^ 10)⟩,
        ⟨some wedgeTarget, wedge.vertical⟩⟩), (wedgeStore.find none ⟨1, 1⟩ .forward).cache, .cache,
        []⟩ := by
  refine (Lookup.Ends.cached ?_).find_eq
  rw [wedgeStore_find_forward]
  simp [cachedMatch?, belowEdge_inside]

theorem belowEdge_found :
    (wedgeStore.find (wedgeStore.find none ⟨1, 1⟩ .forward).cache belowEdge .forward).Found :=
  ⟨_, congrArg Lookup.answer belowEdge_find⟩

/-- From an empty cache it is not. -/
theorem belowEdge_not_found : ¬ (wedgeStore.find none belowEdge .forward).Found := by
  rw [wedgeStore, found_iff wedge_triangle rfl]
  rintro ⟨r, hr, hmeets, -⟩
  rw [List.mem_singleton.mp hr] at hmeets
  rw [show wedgeMesh.searchedSide .forward = .source from rfl, belowEdge_not_meets] at hmeets
  cases hmeets

/-- A point of the band: the wedge is read, contains the point, and is left out by the exact window. -/
theorem belowEdge_cache_adds_only_band :
    (wedgeStore.find (wedgeStore.find none ⟨1, 1⟩ .forward).cache belowEdge .forward).stage =
        .cache ∧
      ∃ c, (wedgeStore.find none ⟨1, 1⟩ .forward).cache = some c ∧ c.direction = .forward ∧
        ∃ r ∈ [wedge], ∃ t w, r.triangle = .ok t ∧ r.vertices .source = .ok c.vertices ∧
          c.vertices.inside? belowEdge = some w ∧
          r.meets (exactWindow wedgeMesh .source belowEdge) = false ∧
          w.Beyond ∧ wedgeMesh.Spans .source t (1 / 2) := by
  obtain ⟨hstage, c, hc, hd, r, hr, t, w, ht, hv, hin, hmeets, hband⟩ :=
    (cache_adds_only_band wedge_triangle rfl wedge_run belowEdge .forward).2 belowEdge_found
      belowEdge_not_found
  obtain ⟨hbeyond, hspans⟩ := hband (TriangleRow.bounds_source wedgeMesh ht hv)
  exact ⟨hstage, c, hc, hd, r, hr, t, w, ht, hv, hin, hmeets, hbeyond, hspans⟩

/-- Whether a point is found can depend on the lookups before. -/
theorem found_only_after_run :
    CacheReachable (· = wedgeStore) (wedgeStore.find none ⟨1, 1⟩ .forward).cache ∧
      ¬ ((wedgeStore.find (wedgeStore.find none ⟨1, 1⟩ .forward).cache belowEdge .forward).Found ↔
        (wedgeStore.find none belowEdge .forward).Found) :=
  ⟨wedge_run, fun h => belowEdge_not_found (h.mp belowEdge_found)⟩

end Band

end ShiftMesh
