import ShiftMesh.Proofs.Exact
import ShiftMesh.Proofs.Scan

/-!
# ShiftMesh.Proofs.Barycentric — barycentric weights in exact arithmetic

* `Triangle.cramer`: the weights of a point by Cramer's rule, for every triangle that is not flat.
* `Triangle.sum_of_weights?`, `Triangle.blendPoint_of_weights?`: the weights of a point sum to one
  and recombine the corners into the point, inside the triangle and outside.
* `Triangle.weights?_eq_some_of`: no other weights do.
* `Weights.Above`: weights that sum to one and do not fall below a bound; `Weights.blend_ge` and
  `Weights.blend_le` say how far a weighted sum can leave the range of the corner values, and
  `Weights.blend_mem` that it does not with weights that are not negative.
-/

namespace ShiftMesh

/-! ## Weighted sums -/

namespace Weights

theorem blend_real (w : Weights ℝ) (values : Corners ℝ) :
    w.blend values =
      w.first * values.first + w.second * values.second + w.third * values.third := rfl

theorem blendPoint_x (w : Weights ℝ) (v : Triangle ℝ) :
    (w.blendPoint v).x = w.blend (v.map Point.x) := by
  simp only [blendPoint, Point.add_x, Point.scale_x, blend_real, Corners.map]
  ring

theorem blendPoint_y (w : Weights ℝ) (v : Triangle ℝ) :
    (w.blendPoint v).y = w.blend (v.map Point.y) := by
  simp only [blendPoint, Point.add_y, Point.scale_y, blend_real, Corners.map]
  ring

theorem admits_real {l : ℝ} :
    admits l = true ↔ -Scalar.tolerance ≤ l ∧ l ≤ 1 + Scalar.tolerance := by
  simp [admits]

theorem isInside_iff {w : Weights ℝ} :
    w.isInside = true ↔ (-Scalar.tolerance ≤ w.first ∧ w.first ≤ 1 + Scalar.tolerance) ∧
      (-Scalar.tolerance ≤ w.second ∧ w.second ≤ 1 + Scalar.tolerance) ∧
      -Scalar.tolerance ≤ w.third ∧ w.third ≤ 1 + Scalar.tolerance := by
  simp only [isInside, Bool.and_eq_true, admits_real, and_assoc]

/-- Weights that sum to one, none of them below `-δ`. -/
structure Above (w : Weights ℝ) (δ : ℝ) : Prop where
  sum : w.first + w.second + w.third = 1
  first : -δ ≤ w.first
  second : -δ ≤ w.second
  third : -δ ≤ w.third

/-- A weighted sum falls below the corner values by at most twice the bound times their range: of
weights that sum to one at most two are negative. -/
theorem blend_ge {w : Weights ℝ} {δ : ℝ} (hw : w.Above δ) (hδ : 0 ≤ δ) {values : Corners ℝ}
    {lo hi : ℝ} (h : ∀ a ∈ values.toList, lo ≤ a ∧ a ≤ hi) :
    lo - 2 * δ * (hi - lo) ≤ w.blend values := by
  obtain ⟨h1, h2, h3⟩ := Corners.forall_mem_toList.mp h
  -- one weighted value, counted from `lo`
  have term : ∀ {l a : ℝ}, -δ ≤ l → lo ≤ a ∧ a ≤ hi → -(δ * (hi - lo)) ≤ l * (a - lo) := by
    intro l a hl ha
    have hbelow : -δ * (a - lo) ≤ l * (a - lo) :=
      mul_le_mul_of_nonneg_right hl (sub_nonneg.mpr ha.1)
    have hrange : δ * (a - lo) ≤ δ * (hi - lo) :=
      mul_le_mul_of_nonneg_left (by linarith [ha.2]) hδ
    linarith
  have t1 := term hw.first h1
  have t2 := term hw.second h2
  have t3 := term hw.third h3
  have hsum : w.blend values = lo + (w.first * (values.first - lo) +
      w.second * (values.second - lo) + w.third * (values.third - lo)) := by
    have hone : w.third = 1 - w.first - w.second := by linarith [hw.sum]
    rw [blend_real, hone]
    ring
  rw [hsum]
  -- some weight is not negative
  have hpos : 0 ≤ w.first ∨ 0 ≤ w.second ∨ 0 ≤ w.third := by
    by_contra hneg
    simp only [not_or, not_le] at hneg
    linarith [hw.sum, hneg.1, hneg.2.1, hneg.2.2]
  rcases hpos with hp | hp | hp
  · have := mul_nonneg hp (sub_nonneg.mpr h1.1)
    linarith
  · have := mul_nonneg hp (sub_nonneg.mpr h2.1)
    linarith
  · have := mul_nonneg hp (sub_nonneg.mpr h3.1)
    linarith

theorem blend_le {w : Weights ℝ} {δ : ℝ} (hw : w.Above δ) (hδ : 0 ≤ δ) {values : Corners ℝ}
    {lo hi : ℝ} (h : ∀ a ∈ values.toList, lo ≤ a ∧ a ≤ hi) :
    w.blend values ≤ hi + 2 * δ * (hi - lo) := by
  have hneg : ∀ a ∈ (values.map fun a => -a).toList, -hi ≤ a ∧ a ≤ -lo := by
    obtain ⟨h1, h2, h3⟩ := Corners.forall_mem_toList.mp h
    exact Corners.forall_mem_toList.mpr ⟨⟨neg_le_neg h1.2, neg_le_neg h1.1⟩,
      ⟨neg_le_neg h2.2, neg_le_neg h2.1⟩, ⟨neg_le_neg h3.2, neg_le_neg h3.1⟩⟩
  have hblend : w.blend (values.map fun a => -a) = -w.blend values := by
    simp only [blend_real, Corners.map]
    ring
  have := blend_ge hw hδ hneg
  rw [hblend] at this
  linarith

/-- With weights that are not negative a weighted sum keeps to the range of the corner values. -/
theorem blend_mem {w : Weights ℝ} (hw : w.Above 0) {values : Corners ℝ} {lo hi : ℝ}
    (h : ∀ a ∈ values.toList, lo ≤ a ∧ a ≤ hi) : lo ≤ w.blend values ∧ w.blend values ≤ hi := by
  have hge := blend_ge hw le_rfl h
  have hle := blend_le hw le_rfl h
  simp only [mul_zero, zero_mul, sub_zero, add_zero] at hge hle
  exact ⟨hge, hle⟩

end Weights

/-! ## Weights of a point -/

namespace Triangle

variable {v : Triangle ℝ} {p : Point ℝ} {w : Weights ℝ}

theorem det_ne_zero (h : ¬ Scalar.abs v.det < Scalar.tolerance) : v.det ≠ 0 := by
  intro h0
  rw [h0, Scalar.abs_real, abs_zero] at h
  exact h Scalar.tolerance_pos

/-- The weights by Cramer's rule; they mean nothing if the triangle is flat. -/
noncomputable def cramer (v : Triangle ℝ) (p : Point ℝ) : Weights ℝ :=
  let l1 := ((v.second.y - v.third.y) * (p.x - v.third.x) +
    (v.third.x - v.second.x) * (p.y - v.third.y)) / v.det
  let l2 := ((v.third.y - v.first.y) * (p.x - v.third.x) +
    (v.first.x - v.third.x) * (p.y - v.third.y)) / v.det
  ⟨l1, l2, 1 - l1 - l2⟩

theorem sum_cramer (v : Triangle ℝ) (p : Point ℝ) :
    (v.cramer p).first + (v.cramer p).second + (v.cramer p).third = 1 := by
  simp only [cramer]
  ring

/-- They recombine the corners into the point, however small the triangle is. -/
theorem blendPoint_cramer (hdet : v.det ≠ 0) : (v.cramer p).blendPoint v = p := by
  refine Point.eq_of_coordinates ?_ ?_
  · rw [Weights.blendPoint_x, Weights.blend_real]
    simp only [cramer, Corners.map]
    field_simp
    rw [det_real]
    ring
  · rw [Weights.blendPoint_y, Weights.blend_real]
    simp only [cramer, Corners.map]
    field_simp
    rw [det_real]
    ring

/-- The three weights, if there are any. -/
theorem weights?_real (h : v.weights? p = some w) : v.det ≠ 0 ∧ w = v.cramer p := by
  have hdet := not_lt_of_weights? h
  rw [weights?, if_neg hdet] at h
  injection h with h
  refine ⟨det_ne_zero hdet, ?_⟩
  rw [← h]
  simp [cramer]

theorem sum_of_weights? (h : v.weights? p = some w) : w.first + w.second + w.third = 1 := by
  rw [(weights?_real h).2, sum_cramer]

/-- The weights recombine the corners into the point. -/
theorem blendPoint_of_weights? (h : v.weights? p = some w) : w.blendPoint v = p := by
  obtain ⟨hdet, hw⟩ := weights?_real h
  rw [hw, blendPoint_cramer hdet]

/-- Weights that sum to one and recombine the corners into the point are the weights of the
point. -/
theorem weights?_eq_some_of (hdet : ¬ Scalar.abs v.det < Scalar.tolerance)
    (hsum : w.first + w.second + w.third = 1) (hblend : w.blendPoint v = p) :
    v.weights? p = some w := by
  have hne := det_ne_zero hdet
  have h3 : w.third = 1 - w.first - w.second := by linarith
  have hx : p.x = w.blend (v.map Point.x) := by rw [← hblend, Weights.blendPoint_x]
  have hy : p.y = w.blend (v.map Point.y) := by rw [← hblend, Weights.blendPoint_y]
  simp only [Weights.blend_real, Corners.map, h3] at hx hy
  have h1 : ((v.second.y - v.third.y) * (p.x - v.third.x) +
      (v.third.x - v.second.x) * (p.y - v.third.y)) / v.det = w.first := by
    rw [div_eq_iff hne, hx, hy, det_real]
    ring
  have h2 : ((v.third.y - v.first.y) * (p.x - v.third.x) +
      (v.first.x - v.third.x) * (p.y - v.third.y)) / v.det = w.second := by
    rw [div_eq_iff hne, hx, hy, det_real]
    ring
  rw [weights?, if_neg hdet]
  cases w
  simp only at h1 h2 h3
  simp only [h1, h2, h3, Scalar.ofNat_real, Nat.cast_one]

/-- The weights of a point inside the triangle fall below zero by at most the tolerance. -/
theorem above_of_inside? (h : v.inside? p = some w) : w.Above Scalar.tolerance := by
  obtain ⟨hw, hin⟩ := inside?_eq_some.mp h
  obtain ⟨h1, h2, h3⟩ := Weights.isInside_iff.mp hin
  exact ⟨sum_of_weights? hw, h1.1, h2.1, h3.1⟩

/-- A point with weights between zero and one is inside. -/
theorem inside?_of_mem_unit (h : v.weights? p = some w)
    (hunit : ∀ l ∈ [w.first, w.second, w.third], 0 ≤ l ∧ l ≤ 1) : v.inside? p = some w := by
  have hpos := Scalar.tolerance_pos
  simp only [List.forall_mem_cons] at hunit
  obtain ⟨h1, h2, h3, -⟩ := hunit
  refine inside?_eq_some.mpr ⟨h, Weights.isInside_iff.mpr ⟨⟨?_, ?_⟩, ⟨?_, ?_⟩, ?_, ?_⟩⟩ <;> linarith

end Triangle

end ShiftMesh
