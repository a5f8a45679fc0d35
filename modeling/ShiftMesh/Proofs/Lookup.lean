import ShiftMesh.Proofs.Window
import ShiftMesh.Proofs.Outward

/-!
# ShiftMesh.Proofs.Lookup — the ways in which a lookup ends, and the cache along a run

* `Lookup.Ends`: the five ways in which a lookup ends; `TriangleSource.find_ends` says that there is
  no other.
* `Lookup.FoundBy`: the three ways in which it finds a match, with the row that the match is read off.
* `CacheReachable`: the caches that runs of lookups reach from an empty cache.
* `CacheReachable.inv`: what every hit of the exact search establishes holds of the cached triangle
  after any run.
* `find_reads_one_row`: over a source with fixed rows, every match of every run is read off one row
  whose triangle has an area.
-/

namespace ShiftMesh

variable {β α : Type} [Scalar α] [StoredPoint β α]

/-! ## One lookup -/

/-- The ways in which a lookup ends, with everything it leaves behind. -/
inductive Lookup.Ends (s : TriangleSource β α) (cache : Option (CachedTriangle α)) (p : Point α)
    (d : Direction) : Lookup α → Prop
  | cached {found} (hcache : cachedMatch? cache p d = some found) :
      Ends s cache p d ⟨.ok (some found), cache, .cache, []⟩
  | failed {q e} (hcache : cachedMatch? cache p d = none)
      (hexact : exactSearch s (s.metadata.searchedSide d) p = (q, .error e)) :
      Ends s cache p d ⟨.error e, cache, .exact, [q]⟩
  | hit {q hit} (hcache : cachedMatch? cache p d = none)
      (hexact : exactSearch s (s.metadata.searchedSide d) p = (q, .ok (some hit))) :
      Ends s cache p d ⟨.ok (some ⟨hit.weights, hit.corrections⟩),
        some ⟨d, hit.vertices, hit.corrections⟩, .exact, [q]⟩
  | missed {q} (hcache : cachedMatch? cache p d = none)
      (hexact : exactSearch s (s.metadata.searchedSide d) p = (q, .ok none))
      (hfallback : s.metadata.fallback = .none) :
      Ends s cache p d ⟨.ok none, cache, .exact, [q]⟩
  | outward {q} (hcache : cachedMatch? cache p d = none)
      (hexact : exactSearch s (s.metadata.searchedSide d) p = (q, .ok none))
      (hfallback : s.metadata.fallback ≠ .none) :
      Ends s cache p d ⟨(fallbackSearch s (s.metadata.searchedSide d) p).2, cache, .fallback,
        q :: (fallbackSearch s (s.metadata.searchedSide d) p).1⟩

theorem TriangleSource.find_ends (s : TriangleSource β α) (cache : Option (CachedTriangle α))
    (p : Point α) (d : Direction) : Lookup.Ends s cache p d (s.find cache p d) := by
  unfold TriangleSource.find
  cases hcache : cachedMatch? cache p d with
  | some found => exact .cached hcache
  | none =>
    cases hexact : exactSearch s (s.metadata.searchedSide d) p with
    | mk q result =>
      cases result with
      | error e => simp only [hexact]; exact .failed hcache hexact
      | ok found =>
        cases found with
        | some hit => simp only [hexact]; exact .hit hcache hexact
        | none =>
          simp only [hexact]
          cases hfallback : s.metadata.fallback with
          | none => exact .missed hcache hexact hfallback
          | nearestSide => exact .outward hcache hexact (by rw [hfallback]; decide)
          | nearestCentroid => exact .outward hcache hexact (by rw [hfallback]; decide)

/-- A lookup ends in one way only. -/
theorem Lookup.Ends.find_eq {s : TriangleSource β α} {cache : Option (CachedTriangle α)}
    {p : Point α} {d : Direction} {lookup : Lookup α} (h : Lookup.Ends s cache p d lookup) :
    s.find cache p d = lookup := by
  unfold TriangleSource.find
  cases h with
  | cached hcache => simp only [hcache]
  | failed hcache hexact => simp only [hcache, hexact]
  | hit hcache hexact => simp only [hcache, hexact]
  | missed hcache hexact hfallback => simp only [hcache, hexact, hfallback]
  | outward hcache hexact hfallback => simp only [hcache, hexact]

/-- The ways in which a lookup finds its match, with everything it leaves behind: the match is that of the
cached triangle, or it is read off a row of the exact window, or off a usable row of a later one. -/
inductive Lookup.FoundBy (s : TriangleSource β α) (cache : Option (CachedTriangle α)) (p : Point α)
    (d : Direction) (found : TriangleMatch α) : Lookup α → Prop
  | cached (hcache : cachedMatch? cache p d = some found) :
      FoundBy s cache p d found ⟨.ok (some found), cache, .cache, []⟩
  | hit {q v r} (hr : r ∈ (s.query q.window).rows)
      (hhit : r.Hits (s.metadata.searchedSide d) p ⟨found.weights, v, found.corrections⟩) :
      FoundBy s cache p d found
        ⟨.ok (some found), some ⟨d, v, found.corrections⟩, .exact, [q]⟩
  | outward {first queries q r v} (hq : q ∈ queries) (hr : r ∈ (s.query q.window).rows)
      (husable : r.Usable (s.metadata.searchedSide d) v) (hw : v.weights? p = some found.weights)
      (hcorr : r.corrections (s.metadata.searchedSide d) = .ok found.corrections) :
      FoundBy s cache p d found ⟨.ok (some found), cache, .fallback, first :: queries⟩

theorem TriangleSource.find_foundBy {s : TriangleSource β α} {cache : Option (CachedTriangle α)}
    {p : Point α} {d : Direction} {found : TriangleMatch α}
    (h : (s.find cache p d).answer = .ok (some found)) :
    Lookup.FoundBy s cache p d found (s.find cache p d) := by
  have hends := s.find_ends cache p d
  generalize s.find cache p d = lookup at hends h ⊢
  cases hends with
  | cached hcache =>
    injection h with h
    injection h with h
    subst h
    exact .cached hcache
  | failed _ _ => cases h
  | hit _ hexact =>
    injection h with h
    injection h with h
    subst h
    obtain ⟨r, hr, hhit⟩ := exists_hits_of_exactSearch hexact
    exact .hit hr hhit
  | missed _ _ _ => cases h
  | outward _ _ _ =>
    obtain ⟨q, hq, r, hr, v, husable, hw, hcorr⟩ := exists_row_of_fallbackSearch h
    change (fallbackSearch s (s.metadata.searchedSide d) p).2 = .ok (some found) at h
    rw [h]
    exact .outward hq hr husable hw hcorr

/-- The outward search is reached only after an exact search that finds nothing; its answer is the answer,
and its queries follow the exact one. -/
theorem TriangleSource.find_of_stage_fallback {s : TriangleSource β α} {cache : Option (CachedTriangle α)}
    {p : Point α} {d : Direction} (h : (s.find cache p d).stage = .fallback) :
    ∃ q, exactSearch s (s.metadata.searchedSide d) p = (q, .ok none) ∧
      (s.find cache p d).answer = (fallbackSearch s (s.metadata.searchedSide d) p).2 ∧
      (s.find cache p d).queries = q :: (fallbackSearch s (s.metadata.searchedSide d) p).1 := by
  have hends := s.find_ends cache p d
  generalize s.find cache p d = lookup at hends h ⊢
  cases hends with
  | cached _ => cases h
  | failed _ _ => cases h
  | hit _ _ => cases h
  | missed _ _ _ => cases h
  | @outward q _ hexact _ => exact ⟨q, hexact, rfl, rfl⟩

omit [StoredPoint β α] in
/-- A match by the cached triangle: it was found in the same direction and contains the point. -/
theorem cachedMatch?_eq_some {cache : Option (CachedTriangle α)} {p : Point α} {d : Direction}
    {found : TriangleMatch α} (h : cachedMatch? cache p d = some found) :
    ∃ c, cache = some c ∧ c.direction = d ∧ c.vertices.inside? p = some found.weights ∧
      found.corrections = c.corrections := by
  unfold cachedMatch? at h
  cases cache with
  | none => cases h
  | some c =>
    by_cases hd : c.direction = d
    · simp only [if_pos hd, Option.map_eq_some_iff] at h
      obtain ⟨w, hw, rfl⟩ := h
      exact ⟨c, rfl, hd, hw, rfl⟩
    · simp only [if_neg hd] at h
      cases h

/-- The lookup answers with a match. -/
def Lookup.Found (lookup : Lookup α) : Prop := ∃ found, lookup.answer = .ok (some found)

/-- If the cached triangle does not answer, the answer is that of a lookup without one. -/
theorem TriangleSource.find_answer_eq {s : TriangleSource β α} {cache : Option (CachedTriangle α)}
    {p : Point α} {d : Direction} (h : cachedMatch? cache p d = none) :
    (s.find cache p d).answer = (s.find none p d).answer := by
  have hends := s.find_ends none p d
  generalize s.find none p d = lookup at hends ⊢
  cases hends with
  | cached hcache => cases hcache
  | failed _ hexact => rw [(Lookup.Ends.failed h hexact).find_eq]
  | hit _ hexact => rw [(Lookup.Ends.hit h hexact).find_eq]
  | missed _ hexact hfallback => rw [(Lookup.Ends.missed h hexact hfallback).find_eq]
  | outward _ hexact hfallback => rw [(Lookup.Ends.outward h hexact hfallback).find_eq]

/-! ## Runs of lookups -/

/-- The caches that a run of lookups reaches from an empty cache.  Each lookup of the run may meet
another source of the class `S`, so the streams may change from one lookup to the next. -/
inductive CacheReachable (S : TriangleSource β α → Prop) : Option (CachedTriangle α) → Prop
  | start : CacheReachable S none
  | find {cache s} (hcache : CacheReachable S cache) (hs : S s) (p : Point α) (d : Direction) :
      CacheReachable S (s.find cache p d).cache

/-- What every hit of the exact search establishes holds of the cached triangle after any run. -/
theorem CacheReachable.inv {S : TriangleSource β α → Prop} {I : CachedTriangle α → Prop}
    (hhit : ∀ s p d q hit, S s → exactSearch s (s.metadata.searchedSide d) p = (q, .ok (some hit)) →
      I ⟨d, hit.vertices, hit.corrections⟩)
    {cache : Option (CachedTriangle α)} (h : CacheReachable S cache) :
    ∀ c, cache = some c → I c := by
  induction h with
  | start => intro c hc; cases hc
  | @find cache s _ hs p d ih =>
    intro c hc
    have hends := s.find_ends cache p d
    generalize s.find cache p d = lookup at hends hc
    cases hends with
    | cached _ => exact ih c hc
    | failed _ _ => exact ih c hc
    | missed _ _ _ => exact ih c hc
    | outward _ _ _ => exact ih c hc
    | @hit q hit _ hexact =>
      injection hc with hc
      rw [← hc]
      exact hhit s p d q hit hs hexact

/-- A run over sources of a class is one over sources of a wider class. -/
theorem CacheReachable.mono {S S' : TriangleSource β α → Prop} (hS : ∀ s, S s → S' s)
    {cache : Option (CachedTriangle α)} (h : CacheReachable S cache) : CacheReachable S' cache := by
  induction h with
  | start => exact .start
  | find _ hs p d ih => exact .find ih (hS _ hs) p d

/-! ## Sources over fixed rows -/

@[simp] theorem TriangleSource.ofRows_metadata (m : MeshMetadata α) (rows : List (TriangleRow β α)) :
    (TriangleSource.ofRows m rows).metadata = m := rfl

theorem TriangleSource.mem_query_ofRows {m : MeshMetadata α} {rows : List (TriangleRow β α)}
    {w : Window α} {r : TriangleRow β α} :
    r ∈ ((TriangleSource.ofRows m rows).query w).rows ↔ r ∈ rows ∧ r.meets w = true :=
  List.mem_filter

/-- The source has this metadata and streams none but these rows, whatever the window; it may leave
rows out and it may fail. -/
structure TriangleSource.DrawsFrom (m : MeshMetadata α) (rows : List (TriangleRow β α))
    (s : TriangleSource β α) : Prop where
  metadata : s.metadata = m
  subset : ∀ w, ∀ r ∈ (s.query w).rows, r ∈ rows

theorem TriangleSource.ofRows_drawsFrom (m : MeshMetadata α) (rows : List (TriangleRow β α)) :
    (TriangleSource.ofRows m rows).DrawsFrom m rows :=
  ⟨rfl, fun _ _ hr => (TriangleSource.mem_query_ofRows.mp hr).1⟩

/-- Corners and corrections are those of the row for the side, and the corners span an area. -/
structure TriangleRow.Provides (r : TriangleRow β α) (side : Side) (v : Triangle α)
    (c : CorrectionSet α) : Prop where
  vertices : r.vertices side = .ok v
  corrections : r.corrections side = .ok c
  area : ¬ Scalar.abs v.det < Scalar.tolerance

theorem TriangleRow.Hits.provides {r : TriangleRow β α} {side : Side} {p : Point α} {hit : Hit α}
    (h : r.Hits side p hit) : r.Provides side hit.vertices hit.corrections :=
  ⟨h.vertices, h.corrections, Triangle.not_lt_of_weights? (Triangle.inside?_eq_some.mp h.inside).1⟩

variable {m : MeshMetadata α} {rows : List (TriangleRow β α)}

/-- After any run the cached triangle is that of a row that some source of the run streams, read for the
side that its direction searches. -/
theorem CacheReachable.streamed {S : TriangleSource β α → Prop} {cache : Option (CachedTriangle α)}
    (h : CacheReachable S cache) :
    ∀ c, cache = some c → ∃ s, S s ∧ ∃ w, ∃ r ∈ (s.query w).rows,
      r.Provides (s.metadata.searchedSide c.direction) c.vertices c.corrections := by
  refine h.inv fun s p d q hit hs hexact => ?_
  obtain ⟨r, hr, hhit⟩ := exists_hits_of_exactSearch hexact
  exact ⟨s, hs, q.window, r, hr, hhit.provides⟩

/-- Over fixed rows the cached triangle is that of one of them. -/
theorem CacheReachable.provided {cache : Option (CachedTriangle α)}
    (h : CacheReachable (TriangleSource.DrawsFrom m rows) cache) :
    ∀ c, cache = some c →
      ∃ r ∈ rows, r.Provides (m.searchedSide c.direction) c.vertices c.corrections := by
  intro c hc
  obtain ⟨s, hs, w, r, hr, hprovides⟩ := h.streamed c hc
  rw [hs.metadata] at hprovides
  exact ⟨r, hs.subset w r hr, hprovides⟩

/-- **One row answers.**  Over sources with fixed metadata and rows, whatever each query streams of
the rows and wherever it fails: every match of every run has the weights of the point in the corners
of one row and the corrections of that same row, both read for the side that the direction searches;
the triangle has an area, it contains the point unless the outward search found it, and then it has
no short edge. -/
theorem find_reads_one_row {cache : Option (CachedTriangle α)}
    (hcache : CacheReachable (TriangleSource.DrawsFrom m rows) cache)
    {s : TriangleSource β α} (hs : s.DrawsFrom m rows) {p : Point α} {d : Direction}
    {found : TriangleMatch α} (h : (s.find cache p d).answer = .ok (some found)) :
    ∃ r ∈ rows, ∃ v, r.vertices (m.searchedSide d) = .ok v ∧
      v.weights? p = some found.weights ∧
      r.corrections (m.searchedSide d) = .ok found.corrections ∧
      ¬ Scalar.abs v.det < Scalar.tolerance ∧
      ((s.find cache p d).stage ≠ .fallback → found.weights.isInside = true) ∧
      ((s.find cache p d).stage = .fallback →
        ∀ l ∈ v.sqEdgeLengths.toList, ¬ l < Scalar.tolerance) := by
  have hfound := TriangleSource.find_foundBy h
  generalize s.find cache p d = lookup at hfound ⊢
  cases hfound with
  | cached hmatch =>
    obtain ⟨c, hc, hd, hw, hcorr⟩ := cachedMatch?_eq_some hmatch
    obtain ⟨hw, hin⟩ := Triangle.inside?_eq_some.mp hw
    obtain ⟨r, hr, hprov⟩ := hcache.provided c hc
    rw [hd] at hprov
    exact ⟨r, hr, c.vertices, hprov.vertices, hw, hcorr ▸ hprov.corrections, hprov.area,
      fun _ => hin, fun hstage => by cases hstage⟩
  | @hit q v r hr hhit =>
    rw [hs.metadata] at hhit
    obtain ⟨hw, hin⟩ := Triangle.inside?_eq_some.mp hhit.inside
    exact ⟨r, hs.subset q.window r hr, v, hhit.vertices, hw, hhit.corrections, hhit.provides.area,
      fun _ => hin, fun hstage => by cases hstage⟩
  | @outward _ _ q r v _ hr husable hw hcorr =>
    rw [hs.metadata] at husable hcorr
    obtain ⟨hshort, harea⟩ := Triangle.isDegenerate_eq_false_iff.mp husable.usable
    exact ⟨r, hs.subset q.window r hr, v, husable.vertices, hw, hcorr, harea,
      fun hstage => absurd rfl hstage, fun _ => hshort⟩

/-! ## A mesh of one triangle -/

section Wedge

/-- The source corners of the wedge. -/
def wedgeCorners : Triangle ℝ := ⟨.whole 0 0, .whole 10 0, .whole 0 10⟩

/-- The target corners of the wedge: each corner is shifted by another amount. -/
def wedgeTarget : Triangle ℝ := ⟨.whole 1 2, .whole 13 2, .whole 1 11⟩

/-- One triangle with horizontal and vertical corrections. -/
def wedge : TriangleRow (Point ℝ) ℝ :=
  ⟨wedgeCorners, some wedgeTarget, some (.offset ⟨1, 0, -1⟩)⟩

/-- The mesh of the wedge, without a fallback. -/
noncomputable def wedgeMesh : MeshMetadata ℝ where
  horizontal := true
  vertical := some .offset
  shift := .ofShifts (wedgeTarget.zip (· - ·) wedgeCorners).toList
  fallback := .none
  vertexCount := none
  extent := ⟨.whole 0 0, .whole 10 10⟩
  inputCrs := none
  outputCrs := none

noncomputable def wedgeStore : TriangleSource (Point ℝ) ℝ := .ofRows wedgeMesh [wedge]

theorem wedge_triangle : ∀ r ∈ [wedge], ∃ t, r.triangle = .ok t := fun r hr =>
  ⟨wedgeCorners, by rw [List.mem_singleton.mp hr]; rfl⟩

theorem wedge_bounds : wedgeMesh.shift.Bounds wedgeCorners wedgeTarget :=
  ShiftRange.holds_ofShifts _

theorem wedgeCorners_weights :
    wedgeCorners.weights? ⟨1, 1⟩ = some ⟨4 / 5, 1 / 10, 1 / 10⟩ := by
  refine Triangle.weights?_eq_some_of ?_ (by norm_num) (Point.eq_of_coordinates ?_ ?_)
  · rw [Scalar.tolerance_real, Triangle.det_real, Scalar.abs_real]
    norm_num [wedgeCorners]
  · norm_num [Weights.blendPoint, wedgeCorners]
  · norm_num [Weights.blendPoint, wedgeCorners]

theorem wedgeTarget_weights :
    wedgeTarget.weights? ⟨4, 17 / 4⟩ = some ⟨1 / 2, 1 / 4, 1 / 4⟩ := by
  refine Triangle.weights?_eq_some_of ?_ (by norm_num) (Point.eq_of_coordinates ?_ ?_)
  · rw [Scalar.tolerance_real, Triangle.det_real, Scalar.abs_real]
    norm_num [wedgeTarget]
  · norm_num [Weights.blendPoint, wedgeTarget]
  · norm_num [Weights.blendPoint, wedgeTarget]

/-- A point in the closed triangle of the searched corners is found by the exact search. -/
theorem wedgeStore_find {cache : Option (CachedTriangle ℝ)} {p : Point ℝ} {d : Direction}
    {v : Triangle ℝ} {c : CorrectionSet ℝ} {w : Weights ℝ} (hcache : cachedMatch? cache p d = none)
    (hv : wedge.vertices (wedgeMesh.searchedSide d) = .ok v)
    (hshift : (wedgeMesh.sideShift (wedgeMesh.searchedSide d)).Bounds wedgeCorners v)
    (hc : wedge.corrections (wedgeMesh.searchedSide d) = .ok c) (hw : v.weights? p = some w)
    (hunit : ∀ l ∈ [w.first, w.second, w.third], 0 ≤ l ∧ l ≤ 1) :
    wedgeStore.find cache p d = ⟨.ok (some ⟨w, c⟩), some ⟨d, v, c⟩, .exact,
      [⟨exactWindow wedgeMesh (wedgeMesh.searchedSide d) p, 1⟩]⟩ := by
  have hhit : wedge.Hits (wedgeMesh.searchedSide d) p ⟨w, v, c⟩ :=
    ⟨hv, Triangle.inside?_of_mem_unit hw hunit, hc⟩
  simp only [List.forall_mem_cons] at hunit
  have hmeets := meetsTriangle_exactWindow_of_nonneg hshift hw hunit.1.1 hunit.2.1.1 hunit.2.2.1.1
  have hrows : (wedgeStore.query (exactWindow wedgeMesh (wedgeMesh.searchedSide d) p)).rows =
      [] ++ wedge :: [] :=
    List.filter_eq_self.mpr fun r hr => by rw [List.mem_singleton.mp hr]; exact hmeets
  exact (Lookup.Ends.hit hcache (exactSearch_of_hits hrows (by simp) hhit rfl)).find_eq

/-- The lookup of a point of the wedge, from an empty cache. -/
theorem wedgeStore_find_forward :
    wedgeStore.find none ⟨1, 1⟩ .forward =
      ⟨.ok (some ⟨⟨4 / 5, 1 / 10, 1 / 10⟩, ⟨some wedgeTarget, wedge.vertical⟩⟩),
        some ⟨.forward, wedgeCorners, ⟨some wedgeTarget, wedge.vertical⟩⟩, .exact,
        [⟨exactWindow wedgeMesh .source ⟨1, 1⟩, 1⟩]⟩ := by
  refine wedgeStore_find rfl rfl (ShiftRange.none_bounds wedgeCorners) rfl wedgeCorners_weights ?_
  simp only [List.forall_mem_cons]
  norm_num

/-- The way back from a point of the shifted wedge, with the triangle of the way forth cached. -/
theorem wedgeStore_find_inverse :
    wedgeStore.find (wedgeStore.find none ⟨1, 1⟩ .forward).cache ⟨4, 17 / 4⟩ .inverse =
      ⟨.ok (some ⟨⟨1 / 2, 1 / 4, 1 / 4⟩, ⟨some wedgeCorners, wedge.vertical⟩⟩),
        some ⟨.inverse, wedgeTarget, ⟨some wedgeCorners, wedge.vertical⟩⟩, .exact,
        [⟨exactWindow wedgeMesh .target ⟨4, 17 / 4⟩, 1⟩]⟩ := by
  rw [wedgeStore_find_forward]
  refine wedgeStore_find rfl rfl wedge_bounds (TriangleRow.corrections_target rfl rfl)
    wedgeTarget_weights ?_
  simp only [List.forall_mem_cons]
  norm_num

/-- After a forward lookup the wedge is cached with the corrections of that direction; going back, its
target corners are searched and its source corners answer. -/
theorem wedge_find_reads_one_row :
    (wedgeStore.find (wedgeStore.find none ⟨1, 1⟩ .forward).cache ⟨4, 17 / 4⟩ .inverse).answer =
      .ok (some ⟨⟨1 / 2, 1 / 4, 1 / 4⟩, ⟨some wedgeCorners, wedge.vertical⟩⟩) ∧
    ∃ r ∈ [wedge], ∃ v, r.vertices .target = .ok v ∧
      v.weights? ⟨4, 17 / 4⟩ = some ⟨1 / 2, 1 / 4, 1 / 4⟩ ∧
      r.corrections .target = .ok ⟨some wedgeCorners, wedge.vertical⟩ ∧
      ¬ Scalar.abs v.det < Scalar.tolerance ∧
      (⟨1 / 2, 1 / 4, 1 / 4⟩ : Weights ℝ).isInside = true := by
  have hdraws : wedgeStore.DrawsFrom wedgeMesh [wedge] := TriangleSource.ofRows_drawsFrom _ _
  have hanswer := congrArg Lookup.answer wedgeStore_find_inverse
  have hstage : (wedgeStore.find (wedgeStore.find none ⟨1, 1⟩ .forward).cache ⟨4, 17 / 4⟩
      .inverse).stage ≠ .fallback := by
    rw [wedgeStore_find_inverse]
    decide
  obtain ⟨r, hr, v, hv, hw, hc, harea, hin, -⟩ :=
    find_reads_one_row (CacheReachable.find .start hdraws ⟨1, 1⟩ .forward) hdraws hanswer
  exact ⟨hanswer, r, hr, v, hv, hw, hc, harea, hin hstage⟩

end Wedge

end ShiftMesh
