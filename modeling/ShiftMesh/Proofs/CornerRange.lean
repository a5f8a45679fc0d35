import ShiftMesh.Proofs.Evaluation
import ShiftMesh.Proofs.History
import ShiftMesh.Proofs.Retention

/-!
# ShiftMesh.Proofs.CornerRange — how far a correction can leave the values at the corners

A point inside a triangle has weights that sum to one and fall below zero by at most the tolerance, so a
weighted sum leaves the range of its corner values by at most twice the tolerance times the length of the
range.

* `Corners.least`, `Corners.greatest`, `Corners.Reaches`: the range of three values, with a slack that is
  a share of its length.
* `TriangleMatch.Within`: what a match does to a coordinate keeps to the values at the corners.
* `TriangleMatch.within_of_above`: it does, up to twice the share by which weights fall below zero.
* `corrections_within_corner_range`: hence so does every answer of a run that does not come from the
  outward search.
-/

namespace ShiftMesh

/-! ## The range of three values -/

namespace Corners

noncomputable def least (values : Corners ℝ) : ℝ := min (min values.first values.second) values.third

noncomputable def greatest (values : Corners ℝ) : ℝ :=
  max (max values.first values.second) values.third

/-- A value lies in the range of the corner values, widened on both sides by a share of its length. -/
structure Reaches (values : Corners ℝ) (slack a : ℝ) : Prop where
  lower : values.least - slack * (values.greatest - values.least) ≤ a
  upper : a ≤ values.greatest + slack * (values.greatest - values.least)

theorem mem_range (values : Corners ℝ) :
    ∀ a ∈ values.toList, values.least ≤ a ∧ a ≤ values.greatest := by
  unfold least greatest
  refine forall_mem_toList.mpr ⟨⟨?_, ?_⟩, ⟨?_, ?_⟩, ⟨?_, ?_⟩⟩ <;> simp

end Corners

/-- A weighted sum reaches beyond the corner values by at most twice the share by which weights fall
below zero. -/
theorem Weights.Above.reaches {w : Weights ℝ} {δ : ℝ} (hw : w.Above δ) (hδ : 0 ≤ δ)
    (values : Corners ℝ) : values.Reaches (2 * δ) (w.blend values) :=
  ⟨Weights.blend_ge hw hδ values.mem_range, Weights.blend_le hw hδ values.mem_range⟩

/-! ## One match -/

/-- What a match makes of the coordinate `c`, going in direction `d`: a position within the output
corners and a height correction within the offsets, up to a slack.  What the triangle does not correct
stays. -/
structure TriangleMatch.Within (found : TriangleMatch ℝ) (d : Direction) (c q : Coordinate ℝ)
    (slack : ℝ) : Prop where
  position : ∀ v, found.corrections.horizontal = some v →
    (v.map Point.x).Reaches slack q.x ∧ (v.map Point.y).Reaches slack q.y
  unmoved : found.corrections.horizontal = none → q.position = c.position
  /-- The correction is added going forward and subtracted going back. -/
  rise : ∀ values, found.corrections.vertical = some values → ∃ a, values.offsets.Reaches slack a ∧
    (d = .forward → q.z = c.z + a) ∧ (d = .inverse → q.z = c.z - a)
  level : found.corrections.vertical = none → q.z = c.z

namespace TriangleMatch

variable {found : TriangleMatch ℝ} {δ : ℝ}

theorem rise_of_vertical {values : VerticalValues ℝ} (h : found.corrections.vertical = some values) :
    found.rise = found.weights.blend values.offsets := by
  simp only [rise, h]

theorem rise_of_level (h : found.corrections.vertical = none) : found.rise = 0 := by
  simp only [rise, h]

theorem within_of_above (hw : found.weights.Above δ) (hδ : 0 ≤ δ) (d : Direction) (c : Coordinate ℝ) :
    found.Within d c (found.apply d c) (2 * δ) where
  position v hv := by
    have hposition := apply_position_some hv d c
    have hx : (found.apply d c).x = found.weights.blend (v.map Point.x) := by
      rw [← Weights.blendPoint_x, ← hposition]
      rfl
    have hy : (found.apply d c).y = found.weights.blend (v.map Point.y) := by
      rw [← Weights.blendPoint_y, ← hposition]
      rfl
    rw [hx, hy]
    exact ⟨hw.reaches hδ _, hw.reaches hδ _⟩
  unmoved hnone := apply_position_none hnone d c
  rise values hvalues := by
    refine ⟨found.rise, ?_, ?_, ?_⟩
    · rw [rise_of_vertical hvalues]
      exact hw.reaches hδ _
    · rintro rfl
      exact apply_forward_z found c
    · rintro rfl
      exact apply_inverse_z found c
  level hnone := by
    cases d with
    | forward => rw [apply_forward_z, rise_of_level hnone, add_zero]
    | inverse => rw [apply_inverse_z, rise_of_level hnone, sub_zero]

end TriangleMatch

/-! ## Runs -/

/-- **Corrections keep to the range of the corners.**  After any run over any sources, a transformation
that the cached triangle or the exact search answers is read off a row that one of those sources streams.
Each quantity of the answer exceeds the range of its values at the corners by at most twice the tolerance
times the length of that range, and not at all if no weight is negative. -/
theorem corrections_within_corner_range {β : Type} [StoredPoint β ℝ] {S : TriangleSource β ℝ → Prop}
    {cache : Option (CachedTriangle ℝ)} (hcache : CacheReachable S cache) {s : TriangleSource β ℝ}
    (hs : S s) {d : Direction} {c q : Coordinate ℝ}
    (hanswer : (s.transform cache d c).answer = .ok (some q))
    (hstage : (s.transform cache d c).stage ≠ .fallback) :
    ∃ s', S s' ∧ ∃ w, ∃ r ∈ (s'.query w).rows, ∃ found,
      (s.find cache c.position d).answer = .ok (some found) ∧
      r.Answers (s'.metadata.searchedSide d) c.position found ∧
      found.Within d c q (2 * Scalar.tolerance) ∧
      (0 ≤ found.weights.first → 0 ≤ found.weights.second → 0 ≤ found.weights.third →
        found.Within d c q 0) := by
  obtain ⟨found, hfound, rfl⟩ := TriangleSource.transform_answer.mp hanswer
  obtain ⟨s', hs', w, r, hr, hanswers⟩ := hcache.streams_answer hs hfound
  -- the triangle that answers contains the point
  obtain ⟨t, -, -, hin, -⟩ := TriangleSource.find_cache_of_answer hfound hstage
  have habove := Triangle.above_of_inside? hin
  refine ⟨s', hs', w, r, hr, found, hfound, hanswers,
    TriangleMatch.within_of_above habove Scalar.tolerance_pos.le d c, fun h1 h2 h3 => ?_⟩
  have hunit : found.weights.Above 0 :=
    ⟨habove.sum, by rwa [neg_zero], by rwa [neg_zero], by rwa [neg_zero]⟩
  have hwithin := TriangleMatch.within_of_above hunit le_rfl d c
  rwa [mul_zero] at hwithin

/-! ## Below the lower edge of the wedge -/

section Band

/-- The point of the band below the wedge goes beyond the target corners: on the second axis all of them
lie at two or more. -/
theorem belowEdge_transform :
    (wedgeStore.transform (wedgeStore.find none ⟨1, 1⟩ .forward).cache .forward
      (.ofPosition belowEdge 5)).answer =
        .ok (some ⟨7, 2 - 9 / (2 * 10 ^ 10), 11 / 2 + 1 / 10 ^ 10⟩) := by
  refine TriangleSource.transform_answer.mpr
    ⟨_, congrArg Lookup.answer belowEdge_find, Coordinate.eq_of_position ?_ ?_⟩
  · rw [TriangleMatch.apply_position_some rfl]
    refine Point.eq_of_coordinates ?_ ?_ <;>
      norm_num [Weights.blendPoint, wedgeTarget, Coordinate.position]
  · rw [TriangleMatch.apply_forward_z]
    norm_num [TriangleMatch.rise, wedge, VerticalValues.offsets, Weights.blend_real,
      Coordinate.ofPosition]

/-- The position leaves the range of the target corners, and stays within the slack. -/
theorem belowEdge_within_corner_range :
    ∃ found, (wedgeStore.find (wedgeStore.find none ⟨1, 1⟩ .forward).cache belowEdge
        .forward).answer = .ok (some found) ∧
      found.corrections.horizontal = some wedgeTarget ∧
      found.Within .forward (.ofPosition belowEdge 5)
        ⟨7, 2 - 9 / (2 * 10 ^ 10), 11 / 2 + 1 / 10 ^ 10⟩ (2 * Scalar.tolerance) ∧
      ¬ (wedgeTarget.map Point.y).Reaches 0 (2 - 9 / (2 * 10 ^ 10)) := by
  have hstage : (wedgeStore.transform (wedgeStore.find none ⟨1, 1⟩ .forward).cache .forward
      (.ofPosition belowEdge 5)).stage ≠ .fallback := by
    show (wedgeStore.find (wedgeStore.find none ⟨1, 1⟩ .forward).cache belowEdge .forward).stage ≠ _
    rw [belowEdge_find]
    decide
  obtain ⟨-, -, -, -, -, found, hfound, -, hwithin, -⟩ :=
    corrections_within_corner_range wedge_run rfl belowEdge_transform hstage
  have hanswer : (wedgeStore.find (wedgeStore.find none ⟨1, 1⟩ .forward).cache belowEdge
      .forward).answer = .ok (some found) := hfound
  refine ⟨found, hanswer, ?_, hwithin, fun hrange => ?_⟩
  · rw [belowEdge_find] at hanswer
    injection hanswer with hanswer
    injection hanswer with hanswer
    rw [← hanswer]
  · have hlower := hrange.lower
    norm_num [Corners.least, Corners.map, wedgeTarget] at hlower

end Band

end ShiftMesh
