import ShiftMesh.Proofs.Affine

/-!
# ShiftMesh.Proofs.AffineCoordinates — the weights of a point are its affine coordinates

* `Triangle.region`, `Triangle.area`: the closed triangle and its area.  The closed triangle is the image of
  the unit triangle under the linear map of two edges, whence `Triangle.abs_det_eq`: the determinant is twice
  the area, up to its sign.
* `Weights.Recombine`: weights that sum to one and recombine the corners into the point.
* `Triangle.weights?_eq_some_iff`: a triangle with enough area has these weights and no others; no other
  triangle has any.
* `affine_coordinates`: when there are weights, which ones, what they do to affine functions, and when the
  point is inside.
-/

namespace ShiftMesh

open MeasureTheory

/-! ## The area of a triangle -/

/-- A point as a pair of coordinates. -/
def Point.pair (q : Point ℝ) : ℝ × ℝ := (q.x, q.y)

/-- The triangle between the origin and the two unit points. -/
def unitTriangle : Set (ℝ × ℝ) := {q | 0 ≤ q.1 ∧ 0 ≤ q.2 ∧ q.1 + q.2 ≤ 1}

theorem measurableSet_unitTriangle : MeasurableSet unitTriangle :=
  (measurableSet_le measurable_const measurable_fst).inter
    ((measurableSet_le measurable_const measurable_snd).inter
      (measurableSet_le (measurable_fst.add measurable_snd) measurable_const))

/-- What the unit triangle leaves of a vertical line. -/
theorem volume_slice_unitTriangle (s : ℝ) : volume (Set.preimage (Prod.mk s) unitTriangle) =
    (Set.Icc (0 : ℝ) 1).indicator (fun s => ENNReal.ofReal (1 - s)) s := by
  by_cases hs : s ∈ Set.Icc (0 : ℝ) 1
  · have hslice : Set.preimage (Prod.mk s) unitTriangle = Set.Icc 0 (1 - s) := by
      ext t
      constructor
      · rintro ⟨-, ht, hsum⟩
        exact ⟨ht, le_sub_iff_add_le'.mpr hsum⟩
      · rintro ⟨ht, hsum⟩
        exact ⟨hs.1, ht, le_sub_iff_add_le'.mp hsum⟩
    rw [hslice, Real.volume_Icc, Set.indicator_of_mem hs, sub_zero]
  · have hslice : Set.preimage (Prod.mk s) unitTriangle = ∅ := by
      refine Set.eq_empty_of_forall_notMem fun t ht => hs ?_
      obtain ⟨h0, ht, hsum⟩ : 0 ≤ s ∧ 0 ≤ t ∧ s + t ≤ 1 := ht
      exact ⟨h0, by linarith⟩
    rw [hslice, measure_empty, Set.indicator_of_notMem hs]

theorem volume_unitTriangle : volume unitTriangle = ENNReal.ofReal (1 / 2) := by
  have hintegral : ∫ s in Set.Icc (0 : ℝ) 1, (1 - s) = 1 / 2 := by
    rw [integral_Icc_eq_integral_Ioc, ← intervalIntegral.integral_of_le zero_le_one,
      intervalIntegral.integral_sub intervalIntegrable_const intervalIntegral.intervalIntegrable_id,
      intervalIntegral.integral_const, integral_id]
    norm_num
  rw [Measure.volume_eq_prod, Measure.prod_apply measurableSet_unitTriangle]
  simp only [volume_slice_unitTriangle]
  rw [lintegral_indicator measurableSet_Icc, ← hintegral, ofReal_integral_eq_lintegral_ofReal]
  · exact (continuous_const.sub continuous_id).continuousOn.integrableOn_Icc
  · exact (ae_restrict_iff' measurableSet_Icc).mpr (ae_of_all _ fun s hs => sub_nonneg.mpr hs.2)

namespace Triangle

variable (v : Triangle ℝ)

/-- The points of a triangle, its edges included. -/
def region : Set (Point ℝ) := {q | ∃ w : Weights ℝ, w.Above 0 ∧ w.blendPoint v = q}

/-- The area of a triangle. -/
noncomputable def area : ℝ := (volume (Point.pair '' v.region)).toReal

/-- The linear map whose columns are the two edges from the third corner. -/
noncomputable def edgeMap : ℝ × ℝ →ₗ[ℝ] ℝ × ℝ :=
  Matrix.toLin (Module.Basis.finTwoProd ℝ) (Module.Basis.finTwoProd ℝ)
    !![v.first.x - v.third.x, v.second.x - v.third.x; v.first.y - v.third.y, v.second.y - v.third.y]

theorem edgeMap_apply (s t : ℝ) : v.edgeMap (s, t) =
    ((v.first.x - v.third.x) * s + (v.second.x - v.third.x) * t,
      (v.first.y - v.third.y) * s + (v.second.y - v.third.y) * t) :=
  Matrix.toLin_finTwoProd_apply _ _ _ _ _

theorem det_edgeMap : LinearMap.det v.edgeMap = v.det := by
  rw [edgeMap, LinearMap.det_toLin, Matrix.det_fin_two_of, det_real]
  ring

theorem pair_blendPoint (s t : ℝ) :
    ((⟨s, t, 1 - s - t⟩ : Weights ℝ).blendPoint v).pair = v.third.pair + v.edgeMap (s, t) := by
  rw [edgeMap_apply]
  refine Prod.ext ?_ ?_
  · simp only [Point.pair, Weights.blendPoint_x, Weights.blend_real, Corners.map, Prod.mk_add_mk]
    ring
  · simp only [Point.pair, Weights.blendPoint_y, Weights.blend_real, Corners.map, Prod.mk_add_mk]
    ring

/-- The closed triangle is the image of the unit triangle, moved to the third corner. -/
theorem pair_region :
    Point.pair '' v.region = (fun q => v.third.pair + q) '' (v.edgeMap '' unitTriangle) := by
  ext q
  constructor
  · rintro ⟨_, ⟨⟨s, t, u⟩, ⟨hsum, hs, ht, hu⟩, rfl⟩, rfl⟩
    simp only [neg_zero] at hsum hs ht hu
    obtain rfl : u = 1 - s - t := by linarith
    exact ⟨_, ⟨(s, t), ⟨hs, ht, by linarith⟩, rfl⟩, (v.pair_blendPoint s t).symm⟩
  · rintro ⟨_, ⟨⟨s, t⟩, ⟨hs, ht, hsum⟩, rfl⟩, rfl⟩
    refine ⟨_, ⟨⟨s, t, 1 - s - t⟩, ⟨by ring, by simpa using hs, by simpa using ht, ?_⟩, rfl⟩,
      v.pair_blendPoint s t⟩
    simp only [neg_zero]
    linarith

/-- The determinant is twice the area, up to its sign. -/
theorem abs_det_eq : |v.det| = 2 * v.area := by
  have hvolume : volume (Point.pair '' v.region) = ENNReal.ofReal |v.det| * ENNReal.ofReal (1 / 2) := by
    rw [pair_region, Set.image_add_left, measure_preimage_add, Measure.addHaar_image_linearMap,
      det_edgeMap, volume_unitTriangle]
  rw [area, hvolume, ← ENNReal.ofReal_mul (abs_nonneg _), ENNReal.toReal_ofReal (by positivity)]
  ring

end Triangle

/-! ## Affine coordinates -/

/-- Weights that sum to one and recombine the corners of a triangle into a point. -/
structure Weights.Recombine (w : Weights ℝ) (v : Triangle ℝ) (p : Point ℝ) : Prop where
  sum : w.first + w.second + w.third = 1
  point : w.blendPoint v = p

namespace Triangle

variable {v : Triangle ℝ} {p : Point ℝ} {w : Weights ℝ}

theorem weights?_eq_some_iff :
    v.weights? p = some w ↔ Scalar.tolerance ≤ |v.det| ∧ w.Recombine v p :=
  ⟨fun h => ⟨not_lt.mp (not_lt_of_weights? h), sum_of_weights? h, blendPoint_of_weights? h⟩,
    fun ⟨harea, hw⟩ => weights?_eq_some_of (not_lt.mpr harea) hw.sum hw.point⟩

/-- Whether there are weights does not depend on the point. -/
theorem isSome_weights?_iff : (v.weights? p).isSome = true ↔ Scalar.tolerance ≤ |v.det| := by
  rw [weights?, Scalar.abs_real]
  by_cases harea : |v.det| < Scalar.tolerance
  · rw [if_pos harea]
    exact ⟨fun h => absurd h Bool.false_ne_true, fun h => absurd harea (not_lt.mpr h)⟩
  · rw [if_neg harea]
    exact ⟨fun _ => not_lt.mp harea, fun _ => rfl⟩

theorem inside?_eq_some_iff : v.inside? p = some w ↔
    Scalar.tolerance ≤ |v.det| ∧ w.Recombine v p ∧
      ∀ l ∈ [w.first, w.second, w.third], l ∈ Set.Icc (-Scalar.tolerance) (1 + Scalar.tolerance) := by
  rw [inside?_eq_some, weights?_eq_some_iff, Weights.isInside_iff, and_assoc]
  simp only [List.forall_mem_cons, List.not_mem_nil, false_implies, implies_true, and_true, Set.mem_Icc]

end Triangle

/-- **The weights of a point are its affine coordinates.**  A triangle has weights for a point exactly if
twice its area reaches the tolerance, wherever the point lies.  They sum to one and recombine the corners
into the point; no others do; and they reproduce every affine function of the position from its values at
the corners.  The point is inside exactly if there are such weights and each of them lies between zero and
one, up to the tolerance. -/
theorem affine_coordinates (v : Triangle ℝ) (p : Point ℝ) :
    ((v.weights? p).isSome = true ↔ Scalar.tolerance ≤ |v.det|) ∧ |v.det| = 2 * v.area ∧
    (∀ w, v.weights? p = some w ↔ Scalar.tolerance ≤ |v.det| ∧ w.Recombine v p) ∧
    (∀ w, v.weights? p = some w →
      (∀ u : Weights ℝ, u.Recombine v p → u = w) ∧
      ∀ f : HeightMap, w.blend (v.map f.apply) = f.apply p) ∧
    ((v.inside? p).isSome = true ↔ Scalar.tolerance ≤ |v.det| ∧ ∃ w : Weights ℝ, w.Recombine v p ∧
      ∀ l ∈ [w.first, w.second, w.third], l ∈ Set.Icc (-Scalar.tolerance) (1 + Scalar.tolerance)) ∧
    ∀ w, v.inside? p = some w → v.weights? p = some w := by
  refine ⟨Triangle.isSome_weights?_iff, v.abs_det_eq, fun w => Triangle.weights?_eq_some_iff,
    fun w hw => ⟨fun u hu => ?_, fun f => ?_⟩, ?_, fun w hw => (Triangle.inside?_eq_some.mp hw).1⟩
  · have hsame := Triangle.weights?_eq_some_iff.mpr ⟨(Triangle.weights?_eq_some_iff.mp hw).1, hu⟩
    exact Option.some_inj.mp (hsame.symm.trans hw)
  · rw [← f.apply_blendPoint (Triangle.sum_of_weights? hw), Triangle.blendPoint_of_weights? hw]
  · rw [Option.isSome_iff_exists]
    simp only [Triangle.inside?_eq_some_iff, exists_and_left]

/-- A point far outside the wedge: two of its weights are negative. -/
theorem wedge_affine_coordinates :
    wedgeCorners.weights? ⟨-5, -5⟩ = some ⟨2, -(1 / 2), -(1 / 2)⟩ ∧
    (∀ u : Weights ℝ, u.Recombine wedgeCorners ⟨-5, -5⟩ → u = ⟨2, -(1 / 2), -(1 / 2)⟩) ∧
    wedgeCorners.area = 50 ∧ wedgeCorners.inside? ⟨-5, -5⟩ = none := by
  have hdet : wedgeCorners.det = 100 := by
    rw [Triangle.det_real]
    norm_num [wedgeCorners]
  have hrecombine : (⟨2, -(1 / 2), -(1 / 2)⟩ : Weights ℝ).Recombine wedgeCorners ⟨-5, -5⟩ := by
    refine ⟨by norm_num, Point.eq_of_coordinates ?_ ?_⟩
    · norm_num [Weights.blendPoint, wedgeCorners]
    · norm_num [Weights.blendPoint, wedgeCorners]
  have harea : Scalar.tolerance ≤ |wedgeCorners.det| := by
    rw [hdet, Scalar.tolerance_real]
    norm_num
  obtain ⟨-, htwice, hweights, hunique, hinside, -⟩ := affine_coordinates wedgeCorners ⟨-5, -5⟩
  have hw := (hweights _).mpr ⟨harea, hrecombine⟩
  refine ⟨hw, (hunique _ hw).1, ?_, ?_⟩
  · rw [hdet] at htwice
    norm_num at htwice
    linarith
  · rw [← Option.not_isSome_iff_eq_none, hinside]
    rintro ⟨-, u, hu, hbetween⟩
    obtain rfl := (hunique _ hw).1 u hu
    have hfirst := (hbetween 2 (by simp)).2
    rw [Scalar.tolerance_real] at hfirst
    norm_num at hfirst

end ShiftMesh
