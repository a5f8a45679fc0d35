import ShiftMesh.Proofs.Lookup
import ShiftMesh.Mesh.Evaluator

/-!
# ShiftMesh.Proofs.Evaluation — where the match of a transformation comes from, and what it does

* `TriangleRow.Answers`: a match is read off one row: its weights are those of the point in the row's
  searched corners, and its corrections are the row's.
* `TriangleSource.find_answers`: a match that does not come from the cache is read off a row streamed
  for one of the lookup's windows.
* `CacheReachable.streams_answer`: every match of every run is read off a row that some source of the
  run streams; `CacheReachable.exists_answers`: over sources with fixed rows it is one of those.
* `TriangleMatch.rise`: the weighted height correction; a match adds it going forward and subtracts it
  going back.
* `TriangleRow.Answers.apply_back`: a match going back undoes a match going forward if both are read off
  one row with the same weights.
-/

namespace ShiftMesh

section Any

variable {β α : Type} [Scalar α] [StoredPoint β α]

/-! ## The side that is searched -/

omit [Scalar α] in
theorem MeshMetadata.searchedSide_inverse {m : MeshMetadata α} (h : m.horizontal = true) :
    m.searchedSide .inverse = .target := by
  unfold searchedSide
  rw [h]

omit [Scalar α] in
theorem MeshMetadata.searchedSide_flat {m : MeshMetadata α} (h : m.horizontal = false)
    (d : Direction) : m.searchedSide d = .source := by
  unfold searchedSide
  rw [h]
  cases d <;> rfl

omit [Scalar α] in
/-- Forward the corrections need no reading. -/
theorem TriangleRow.corrections_source (r : TriangleRow β α) :
    r.corrections .source = .ok ⟨r.target, r.vertical⟩ := by
  cases htarget : r.target <;> simp only [corrections, htarget]

/-! ## The row of a match -/

/-- A match is read off the row for a side. -/
def TriangleRow.Answers (r : TriangleRow β α) (side : Side) (p : Point α) (found : TriangleMatch α) :
    Prop :=
  ∃ v, r.vertices side = .ok v ∧ v.weights? p = some found.weights ∧
    r.corrections side = .ok found.corrections

theorem TriangleRow.Hits.answers {r : TriangleRow β α} {side : Side} {p : Point α} {hit : Hit α}
    (h : r.Hits side p hit) : r.Answers side p ⟨hit.weights, hit.corrections⟩ :=
  ⟨hit.vertices, h.vertices, (Triangle.inside?_eq_some.mp h.inside).1, h.corrections⟩

/-- A match that does not come from the cache is read off a row that the source streams for a window of
the lookup. -/
theorem TriangleSource.find_answers {s : TriangleSource β α} {cache : Option (CachedTriangle α)}
    {p : Point α} {d : Direction} {found : TriangleMatch α}
    (h : (s.find cache p d).answer = .ok (some found)) :
    cachedMatch? cache p d = some found ∨
      ∃ q ∈ (s.find cache p d).queries, ∃ r ∈ (s.query q.window).rows,
        r.Answers (s.metadata.searchedSide d) p found := by
  have hfound := TriangleSource.find_foundBy h
  generalize s.find cache p d = lookup at hfound
  cases hfound with
  | cached hcache => exact Or.inl hcache
  | hit hr hhit => exact Or.inr ⟨_, List.mem_singleton.mpr rfl, _, hr, hhit.answers⟩
  | outward hq hr husable hw hcorr =>
    exact Or.inr ⟨_, List.mem_cons_of_mem _ hq, _, hr, _, husable.vertices, hw, hcorr⟩

/-- Every match of every run is read off a row that some source of the run streams. -/
theorem CacheReachable.streams_answer {S : TriangleSource β α → Prop}
    {cache : Option (CachedTriangle α)} (hcache : CacheReachable S cache) {s : TriangleSource β α}
    (hs : S s) {p : Point α} {d : Direction} {found : TriangleMatch α}
    (h : (s.find cache p d).answer = .ok (some found)) :
    ∃ s', S s' ∧ ∃ w, ∃ r ∈ (s'.query w).rows, r.Answers (s'.metadata.searchedSide d) p found := by
  rcases TriangleSource.find_answers h with hmatch | ⟨q, -, r, hr, hanswers⟩
  · obtain ⟨c, hc, hd, hin, hcorr⟩ := cachedMatch?_eq_some hmatch
    obtain ⟨s', hs', w, r, hr, hprovides⟩ := hcache.streamed c hc
    rw [hd] at hprovides
    exact ⟨s', hs', w, r, hr, c.vertices, hprovides.vertices, (Triangle.inside?_eq_some.mp hin).1,
      hcorr ▸ hprovides.corrections⟩
  · exact ⟨s, hs, q.window, r, hr, hanswers⟩

/-- Over sources with fixed metadata and rows every match of every run is read off one of the rows. -/
theorem CacheReachable.exists_answers {m : MeshMetadata α} {rows : List (TriangleRow β α)}
    {cache : Option (CachedTriangle α)}
    (hcache : CacheReachable (TriangleSource.DrawsFrom m rows) cache) {s : TriangleSource β α}
    (hs : s.DrawsFrom m rows) {p : Point α} {d : Direction} {found : TriangleMatch α}
    (h : (s.find cache p d).answer = .ok (some found)) :
    ∃ r ∈ rows, r.Answers (m.searchedSide d) p found := by
  obtain ⟨s', hs', w, r, hr, hanswers⟩ := hcache.streams_answer hs h
  rw [hs'.metadata] at hanswers
  exact ⟨r, hs'.subset w r hr, hanswers⟩

namespace TriangleRow.Answers

variable {r : TriangleRow β α} {side : Side} {p : Point α} {found : TriangleMatch α}

/-- A match on the source side: the row's source corners, with its target corners to answer with. -/
theorem of_source (h : r.Answers .source p found) :
    ∃ t, r.triangle = .ok t ∧ t.weights? p = some found.weights ∧
      found.corrections = ⟨r.target, r.vertical⟩ := by
  obtain ⟨t, ht, hw, hc⟩ := h
  rw [corrections_source] at hc
  injection hc with hc
  exact ⟨t, ht, hw, hc.symm⟩

/-- A match on the target side: the row's target corners, with its source corners to answer with. -/
theorem of_target (h : r.Answers .target p found) {v : Triangle α} (hv : r.target = some v) :
    v.weights? p = some found.weights ∧
      ∃ t, r.triangle = .ok t ∧ found.corrections = ⟨some t, r.vertical⟩ := by
  obtain ⟨v', hv', hw, hc⟩ := h
  rw [vertices_target hv] at hv'
  injection hv' with hv'
  cases ht : r.triangle with
  | error e => simp [corrections, hv, ht, Except.map] at hc
  | ok t =>
    rw [corrections_target ht hv] at hc
    injection hc with hc
    exact ⟨hv' ▸ hw, t, rfl, hc.symm⟩

/-- Without target corners a match is read off the source corners on either side. -/
theorem of_untargeted (h : r.Answers side p found) (hnone : r.target = none) :
    r.Answers .source p found := by
  cases side with
  | source => exact h
  | target =>
    obtain ⟨t, ht, hw, hc⟩ := h
    refine ⟨t, ?_, hw, ?_⟩
    · simpa only [vertices, hnone] using ht
    · simpa only [corrections, hnone] using hc

end TriangleRow.Answers

/-- What a first lookup keeps does not answer in the other direction. -/
theorem TriangleSource.cachedMatch?_find_of_ne (s : TriangleSource β α) {p q : Point α}
    {d d' : Direction} (h : d ≠ d') : cachedMatch? (s.find none p d).cache q d' = none := by
  have hends := s.find_ends none p d
  generalize s.find none p d = lookup at hends ⊢
  cases hends with
  | cached hcache => cases hcache
  | failed _ _ => rfl
  | hit _ _ => simp only [cachedMatch?, if_neg h]
  | missed _ _ _ => rfl
  | outward _ _ _ => rfl

/-! ## Transformations -/

theorem TriangleSource.transform_answer {s : TriangleSource β α} {cache : Option (CachedTriangle α)}
    {d : Direction} {c q : Coordinate α} :
    (s.transform cache d c).answer = .ok (some q) ↔
      ∃ found, (s.find cache c.position d).answer = .ok (some found) ∧ found.apply d c = q := by
  show ((s.find cache c.position d).answer.map fun found => found.map fun m => m.apply d c) = _ ↔ _
  cases (s.find cache c.position d).answer with
  | error e => simp [Except.map]
  | ok found => simp [Except.map]

theorem TriangleSource.transform_of_find {s : TriangleSource β α} {cache : Option (CachedTriangle α)}
    {d : Direction} {c : Coordinate α} {found : TriangleMatch α}
    (h : (s.find cache c.position d).answer = .ok (some found)) :
    (s.transform cache d c).answer = .ok (some (found.apply d c)) :=
  transform_answer.mpr ⟨found, h, rfl⟩

theorem TriangleMatch.apply_position_some {found : TriangleMatch α} {v : Triangle α}
    (h : found.corrections.horizontal = some v) (d : Direction) (c : Coordinate α) :
    (found.apply d c).position = found.weights.blendPoint v := by
  simp only [apply, h]
  rfl

theorem TriangleMatch.apply_position_none {found : TriangleMatch α}
    (h : found.corrections.horizontal = none) (d : Direction) (c : Coordinate α) :
    (found.apply d c).position = c.position := by
  simp only [apply, h]
  rfl

omit [Scalar α] in
theorem Coordinate.eq_of_position {c e : Coordinate α} (hposition : c.position = e.position)
    (hz : c.z = e.z) : c = e := by
  obtain ⟨hx, hy⟩ := Point.mk.inj hposition
  cases c
  cases e
  exact (Coordinate.mk.injEq ..).mpr ⟨hx, hy, hz⟩

end Any

/-! ## Heights in exact arithmetic -/

variable {β : Type} [StoredPoint β ℝ]

namespace TriangleMatch

/-- The weighted height correction; none counts as zero. -/
noncomputable def rise (found : TriangleMatch ℝ) : ℝ :=
  match found.corrections.vertical with
  | some values => found.weights.blend values.offsets
  | none => 0

theorem rise_eq {found found' : TriangleMatch ℝ} (hweights : found'.weights = found.weights)
    (hvertical : found'.corrections.vertical = found.corrections.vertical) :
    found'.rise = found.rise := by
  rw [rise, rise, hweights, hvertical]

theorem apply_forward_z (found : TriangleMatch ℝ) (c : Coordinate ℝ) :
    (found.apply .forward c).z = c.z + found.rise := by
  rw [rise, apply]
  cases found.corrections.vertical with
  | none => simp [Coordinate.ofPosition]
  | some values => simp [Coordinate.ofPosition, Direction.sign]

theorem apply_inverse_z (found : TriangleMatch ℝ) (c : Coordinate ℝ) :
    (found.apply .inverse c).z = c.z - found.rise := by
  rw [rise, apply]
  cases found.corrections.vertical with
  | none => simp [Coordinate.ofPosition]
  | some values => simp [Coordinate.ofPosition, Direction.sign, sub_eq_add_neg]

/-- A match going back that restores the position undoes a match going forward with the same weights and
heights. -/
theorem apply_back {found found' : TriangleMatch ℝ} {c : Coordinate ℝ}
    (hposition : (found'.apply .inverse (found.apply .forward c)).position = c.position)
    (hweights : found'.weights = found.weights)
    (hvertical : found'.corrections.vertical = found.corrections.vertical) :
    found'.apply .inverse (found.apply .forward c) = c := by
  refine Coordinate.eq_of_position hposition ?_
  rw [apply_inverse_z, apply_forward_z, rise_eq hweights hvertical, add_sub_cancel_right]

end TriangleMatch

/-- A match going back undoes a match going forward, if both are read off one row with the same
weights. -/
theorem TriangleRow.Answers.apply_back {r : TriangleRow β ℝ} {side : Side} {c : Coordinate ℝ}
    {q : Point ℝ} {found found' : TriangleMatch ℝ} (h : r.Answers .source c.position found)
    (h' : r.Answers side q found') (hside : r.target = none ∨ side = .target)
    (hweights : found'.weights = found.weights) :
    found'.apply .inverse (found.apply .forward c) = c := by
  obtain ⟨t, ht, hw, hcorr⟩ := h.of_source
  cases htarget : r.target with
  | none =>
    -- neither match moves the position
    obtain ⟨-, -, -, hcorr'⟩ := (h'.of_untargeted htarget).of_source
    rw [htarget] at hcorr hcorr'
    refine TriangleMatch.apply_back ?_ hweights (by rw [hcorr, hcorr'])
    rw [TriangleMatch.apply_position_none (by rw [hcorr']),
      TriangleMatch.apply_position_none (by rw [hcorr])]
  | some v =>
    -- the match going back recombines the source corners
    rw [htarget, or_iff_right (by simp)] at hside
    subst hside
    obtain ⟨-, t', ht', hcorr'⟩ := h'.of_target htarget
    rw [ht] at ht'
    injection ht' with ht'
    refine TriangleMatch.apply_back ?_ hweights (by rw [hcorr, hcorr'])
    rw [TriangleMatch.apply_position_some (v := t) (by rw [hcorr', ht']), hweights]
    exact Triangle.blendPoint_of_weights? hw

/-! ## A point of the wedge, there and back -/

section Wedge

theorem wedge_transform_forward :
    (wedgeStore.transform none .forward ⟨1, 1, 5⟩).answer =
      .ok (some ⟨11 / 5, 29 / 10, 57 / 10⟩) := by
  refine TriangleSource.transform_answer.mpr
    ⟨_, congrArg Lookup.answer wedgeStore_find_forward, Coordinate.eq_of_position ?_ ?_⟩
  · rw [TriangleMatch.apply_position_some rfl]
    refine Point.eq_of_coordinates ?_ ?_ <;>
      norm_num [Weights.blendPoint, wedgeTarget, Coordinate.position]
  · rw [TriangleMatch.apply_forward_z]
    norm_num [TriangleMatch.rise, wedge, VerticalValues.offsets, Weights.blend_real]

/-- The weights of the shifted point are those of the point before the shift. -/
theorem wedgeTarget_weights_shifted :
    wedgeTarget.weights? ⟨11 / 5, 29 / 10⟩ = some ⟨4 / 5, 1 / 10, 1 / 10⟩ := by
  refine Triangle.weights?_eq_some_of (Triangle.not_lt_of_weights? wedgeTarget_weights) (by norm_num)
    (Point.eq_of_coordinates ?_ ?_) <;> norm_num [Weights.blendPoint, wedgeTarget]

/-- The lookup back from the shifted point, with the triangle of the way forth cached. -/
theorem wedgeStore_find_back :
    (wedgeStore.find (wedgeStore.transform none .forward ⟨1, 1, 5⟩).cache ⟨11 / 5, 29 / 10⟩
      .inverse).answer =
      .ok (some ⟨⟨4 / 5, 1 / 10, 1 / 10⟩, ⟨some wedgeCorners, wedge.vertical⟩⟩) := by
  have hcache : cachedMatch? (wedgeStore.transform none .forward ⟨1, 1, 5⟩).cache
      (⟨11 / 5, 29 / 10⟩ : Point ℝ) .inverse = none := by
    show cachedMatch? (wedgeStore.find none ⟨1, 1⟩ .forward).cache _ _ = none
    rw [wedgeStore_find_forward]
    rfl
  refine congrArg Lookup.answer (wedgeStore_find hcache rfl wedge_bounds
    (TriangleRow.corrections_target rfl rfl) wedgeTarget_weights_shifted ?_)
  simp only [List.forall_mem_cons]
  norm_num

end Wedge

end ShiftMesh
