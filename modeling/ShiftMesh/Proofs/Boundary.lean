import ShiftMesh.Proofs.AffineCoordinates
import ShiftMesh.Proofs.CornerOrder

/-!
# ShiftMesh.Proofs.Boundary — the distance to the edges is the distance to the triangle

* `Triangle.sqDistance_along`: the squared distance to the points of a line is a parabola in the parameter,
  so the clamped parameter of its vertex is the best one (`Triangle.isLeast_sqDistanceToSegment`).
* `Triangle.boundary`: the points of the three edges; `Triangle.isLeast_sqDistanceToEdges`.
* `exists_first_exit`: values that are not negative, moved towards values of which some are, reach zero
  somewhere before any of them has passed it.
* `Triangle.exists_boundary_nearer`: hence from a point outside, for every point of the closed triangle some
  point of an edge is as near: a point that loses a weight on the way, or on the spot if the triangle is flat.
* `boundary_distance`: segments, edges, the closed triangle and the box.
-/

namespace ShiftMesh

/-! ## Segments -/

/-- The points between two ends. -/
def Point.segment (a b : Point ℝ) : Set (Point ℝ) := (fun t => a + (b - a).scale t) '' Set.Icc 0 1

namespace Triangle

theorem sqDistance_along (p : Point ℝ) {a b : Point ℝ} (hlength : a.sqDistance b ≠ 0) (t : ℝ) :
    p.sqDistance (a + (b - a).scale t) =
      p.sqDistance a - a.sqDistance b * ((p - a).dot (b - a) / a.sqDistance b) ^ 2 +
        a.sqDistance b * (t - (p - a).dot (b - a) / a.sqDistance b) ^ 2 := by
  have hdot : a.sqDistance b * ((p - a).dot (b - a) / a.sqDistance b) = (p - a).dot (b - a) :=
    mul_div_cancel₀ _ hlength
  have hexpand : p.sqDistance (a + (b - a).scale t) =
      p.sqDistance a - 2 * t * (p - a).dot (b - a) + t ^ 2 * a.sqDistance b := by
    simp only [Point.sqDistance_real, Point.dot_real, Point.add_x, Point.add_y, Point.sub_x, Point.sub_y,
      Point.scale_x, Point.scale_y]
    ring
  rw [hexpand]
  linear_combination (2 * t) * hdot

variable {p a b : Point ℝ}

/-- No point between the ends is nearer than the clamped parameter tells. -/
theorem sqDistanceToSegment_le (hab : a ≠ b) {t : ℝ} (h0 : 0 ≤ t) (h1 : t ≤ 1) :
    sqDistanceToSegment p a b (a.sqDistance b) ≤ p.sqDistance (a + (b - a).scale t) := by
  have hlength : a.sqDistance b ≠ 0 := fun h => hab (Point.eq_of_sqDistance_eq_zero h)
  have hpos := a.sqDistance_nonneg b
  -- a parameter that is nearer to the vertex of the parabola gives a smaller value
  have hnearer : ∀ s, (s - (p - a).dot (b - a) / a.sqDistance b) ^ 2 ≤
      (t - (p - a).dot (b - a) / a.sqDistance b) ^ 2 →
      p.sqDistance (a + (b - a).scale s) ≤ p.sqDistance (a + (b - a).scale t) := by
    intro s hs
    rw [sqDistance_along p hlength s, sqDistance_along p hlength t]
    exact add_le_add_right (mul_le_mul_of_nonneg_left hs hpos) _
  have hstart : a + (b - a).scale 0 = a := Point.eq_of_coordinates (by simp) (by simp)
  have hend : a + (b - a).scale 1 = b := Point.eq_of_coordinates (by simp) (by simp)
  simp only [sqDistanceToSegment, Scalar.ofNat_real, Nat.cast_zero, Nat.cast_one]
  generalize (p - a).dot (b - a) / a.sqDistance b = best at hnearer ⊢
  by_cases hbefore : best ≤ 0
  · rw [if_pos hbefore]
    have h := hnearer 0 (by nlinarith)
    rwa [hstart] at h
  · rw [if_neg hbefore]
    by_cases hafter : 1 ≤ best
    · rw [if_pos hafter]
      have h := hnearer 1 (by nlinarith)
      rwa [hend] at h
    · rw [if_neg hafter]
      exact hnearer best (by nlinarith [sq_nonneg (t - best)])

/-- The distance to a segment is that to its nearest point. -/
theorem isLeast_sqDistanceToSegment (hab : a ≠ b) (p : Point ℝ) :
    IsLeast (p.sqDistance '' a.segment b) (sqDistanceToSegment p a b (a.sqDistance b)) := by
  refine ⟨?_, ?_⟩
  · obtain ⟨t, h0, h1, heq⟩ := exists_sqDistanceToSegment_eq p a b (a.sqDistance b)
    exact ⟨_, ⟨t, ⟨h0, h1⟩, rfl⟩, heq.symm⟩
  · rintro _ ⟨_, ⟨t, ⟨h0, h1⟩, rfl⟩, rfl⟩
    exact sqDistanceToSegment_le hab h0 h1

/-! ## Edges -/

/-- The points of the three edges. -/
def boundary (v : Triangle ℝ) : Set (Point ℝ) :=
  v.first.segment v.second ∪ v.second.segment v.third ∪ v.first.segment v.third

/-- No two corners coincide. -/
structure Distinct (v : Triangle ℝ) : Prop where
  first_second : v.first ≠ v.second
  second_third : v.second ≠ v.third
  first_third : v.first ≠ v.third

variable {v : Triangle ℝ}

theorem isLeast_sqDistanceToEdges (hv : v.Distinct) (p : Point ℝ) :
    IsLeast (p.sqDistance '' v.boundary) (v.sqDistanceToEdges p) := by
  rw [boundary, Set.image_union, Set.image_union, sqDistanceToEdges, Scalar.lesser_real,
    Scalar.lesser_real]
  exact ((isLeast_sqDistanceToSegment hv.first_second p).union
    (isLeast_sqDistanceToSegment hv.second_third p)).union (isLeast_sqDistanceToSegment hv.first_third p)

/-- A point of which one weight is zero lies on the edge of the two other corners. -/
theorem blendPoint_mem_boundary {w : Weights ℝ} (hw : w.Above 0) (hzero : ∃ i, w.corners.get i = 0) :
    w.blendPoint v ∈ v.boundary := by
  obtain ⟨hsum, h1, h2, h3⟩ := hw
  rw [neg_zero] at h1 h2 h3
  obtain ⟨i, hi⟩ := hzero
  match i, hi with
  | 0, hi =>
    have hi : w.first = 0 := hi
    refine Or.inl (Or.inr ⟨w.third, ⟨h3, by linarith⟩, Point.eq_of_coordinates ?_ ?_⟩)
    · simp only [Weights.blendPoint, Point.add_x, Point.sub_x, Point.scale_x]
      linear_combination (v.second.x - v.first.x) * hi - v.second.x * hsum
    · simp only [Weights.blendPoint, Point.add_y, Point.sub_y, Point.scale_y]
      linear_combination (v.second.y - v.first.y) * hi - v.second.y * hsum
  | 1, hi =>
    have hi : w.second = 0 := hi
    refine Or.inr ⟨w.third, ⟨h3, by linarith⟩, Point.eq_of_coordinates ?_ ?_⟩
    · simp only [Weights.blendPoint, Point.add_x, Point.sub_x, Point.scale_x]
      linear_combination (v.first.x - v.second.x) * hi - v.first.x * hsum
    · simp only [Weights.blendPoint, Point.add_y, Point.sub_y, Point.scale_y]
      linear_combination (v.first.y - v.second.y) * hi - v.first.y * hsum
  | 2, hi =>
    have hi : w.third = 0 := hi
    refine Or.inl (Or.inl ⟨w.second, ⟨h2, by linarith⟩, Point.eq_of_coordinates ?_ ?_⟩)
    · simp only [Weights.blendPoint, Point.add_x, Point.sub_x, Point.scale_x]
      linear_combination (v.first.x - v.third.x) * hi - v.first.x * hsum
    · simp only [Weights.blendPoint, Point.add_y, Point.sub_y, Point.scale_y]
      linear_combination (v.first.y - v.third.y) * hi - v.first.y * hsum

end Triangle

/-! ## The way out of a triangle -/

/-- Values that are not negative are moved towards values of which some are: there is a first moment at
which one of them is zero, and until then none is negative. -/
theorem exists_first_exit {ι : Type} [Fintype ι] {w u : ι → ℝ} (hw : ∀ i, 0 ≤ w i) (hu : ∃ i, u i < 0) :
    ∃ s, 0 ≤ s ∧ s ≤ 1 ∧ (∀ i, 0 ≤ w i + s * (u i - w i)) ∧ ∃ i, w i + s * (u i - w i) = 0 := by
  classical
  -- a value that becomes negative is zero at the moment `w i / (w i - u i)`
  obtain ⟨i, hi, hfirst⟩ := (Finset.univ.filter fun i => u i < 0).exists_min_image
    (fun i => w i / (w i - u i)) (by simpa [Finset.filter_nonempty_iff] using hu)
  simp only [Finset.mem_filter, Finset.mem_univ, true_and] at hi hfirst
  have hmoment : ∀ j, u j < 0 → 0 < w j - u j := fun j hj => by linarith [hw j]
  have h0 : 0 ≤ w i / (w i - u i) := div_nonneg (hw i) (hmoment i hi).le
  have h1 : w i / (w i - u i) ≤ 1 := by
    rw [div_le_one (hmoment i hi)]
    linarith
  refine ⟨w i / (w i - u i), h0, h1, fun j => ?_, i, ?_⟩
  · by_cases hj : u j < 0
    · have hearlier := (le_div_iff₀ (hmoment j hj)).mp (hfirst j hj)
      linarith
    · have hkept := mul_nonneg (sub_nonneg.mpr h1) (hw j)
      have hgained := mul_nonneg h0 (not_lt.mp hj)
      linarith
  · have hcancel := div_mul_cancel₀ (w i) (hmoment i hi).ne'
    linarith

/-- Weights moved towards others. -/
def Weights.toward (w u : Weights ℝ) (s : ℝ) : Weights ℝ :=
  ⟨w.first + s * (u.first - w.first), w.second + s * (u.second - w.second),
    w.third + s * (u.third - w.third)⟩

theorem Weights.get_toward (w u : Weights ℝ) (s : ℝ) : ∀ i, (w.toward u s).corners.get i =
    w.corners.get i + s * (u.corners.get i - w.corners.get i)
  | 0 => rfl
  | 1 => rfl
  | 2 => rfl

theorem Weights.blendPoint_toward (w u : Weights ℝ) (s : ℝ) (v : Triangle ℝ) :
    (w.toward u s).blendPoint v =
      w.blendPoint v + (u.blendPoint v - w.blendPoint v).scale s := by
  refine Point.eq_of_coordinates ?_ ?_
  · simp only [toward, blendPoint, Point.add_x, Point.sub_x, Point.scale_x]
    ring
  · simp only [toward, blendPoint, Point.add_y, Point.sub_y, Point.scale_y]
    ring

theorem Weights.above_zero_iff {w : Weights ℝ} :
    w.Above 0 ↔ w.first + w.second + w.third = 1 ∧ ∀ i, 0 ≤ w.corners.get i := by
  refine ⟨fun ⟨hsum, h1, h2, h3⟩ => ⟨hsum, fun i => ?_⟩, fun ⟨hsum, h⟩ => ⟨hsum, ?_, ?_, ?_⟩⟩
  · rw [neg_zero] at h1 h2 h3
    match i with
    | 0 => exact h1
    | 1 => exact h2
    | 2 => exact h3
  · rw [neg_zero]
    exact h 0
  · rw [neg_zero]
    exact h 1
  · rw [neg_zero]
    exact h 2

namespace Triangle

variable {v : Triangle ℝ} {p q : Point ℝ}

/-- The corners of a flat triangle depend on each other: there are weights for the same point of which the
second one is negative. -/
theorem exists_recombine_of_flat (hdet : v.det = 0) (hne : v.first ≠ v.third) {w : Weights ℝ}
    (hw : w.Recombine v q) : ∃ u : Weights ℝ, u.Recombine v q ∧ u.second < 0 := by
  obtain ⟨hsum, hpoint⟩ := hw
  have hx := congrArg Point.x hpoint
  have hy := congrArg Point.y hpoint
  rw [Weights.blendPoint_x, Weights.blend_real] at hx
  rw [Weights.blendPoint_y, Weights.blend_real] at hy
  simp only [Corners.map] at hx hy
  rw [det_real] at hdet
  -- one step of the dependence along an axis in which the first and the third corner differ
  have hstep : ∀ c e : ℝ, e ≠ 0 → (v.first.x - v.third.x) * c = (v.second.x - v.third.x) * e →
      (v.first.y - v.third.y) * c = (v.second.y - v.third.y) * e →
      ∃ u : Weights ℝ, u.Recombine v q ∧ u.second < 0 := by
    intro c e he hcx hcy
    refine ⟨⟨w.first + c * ((w.second + 1) / e), -1, w.third + w.second + 1 - c * ((w.second + 1) / e)⟩,
      ⟨?_, Point.eq_of_coordinates ?_ ?_⟩, by norm_num⟩
    · simp only
      linarith
    · rw [Weights.blendPoint_x, Weights.blend_real]
      simp only [Corners.map]
      have hcancel := mul_div_cancel₀ (w.second + 1) he
      linear_combination hx + ((w.second + 1) / e) * hcx + (v.second.x - v.third.x) * hcancel
    · rw [Weights.blendPoint_y, Weights.blend_real]
      simp only [Corners.map]
      have hcancel := mul_div_cancel₀ (w.second + 1) he
      linear_combination hy + ((w.second + 1) / e) * hcy + (v.second.y - v.third.y) * hcancel
  by_cases hxs : v.first.x = v.third.x
  · have hys : v.first.y - v.third.y ≠ 0 := fun h =>
      hne (Point.eq_of_coordinates hxs (sub_eq_zero.mp h))
    exact hstep (v.second.y - v.third.y) (v.first.y - v.third.y) hys (by linear_combination hdet) (by ring)
  · exact hstep (v.second.x - v.third.x) (v.first.x - v.third.x) (sub_ne_zero.mpr hxs) (by ring)
      (by linear_combination -hdet)

/-- From a point outside, some point of an edge is as near as a given point of the closed triangle. -/
theorem exists_boundary_nearer (hv : v.Distinct) (hp : p ∉ v.region) (hq : q ∈ v.region) :
    ∃ r ∈ v.boundary, p.sqDistance r ≤ p.sqDistance q := by
  obtain ⟨w, hw, hpoint⟩ := hq
  -- weights of which some are negative: those of `p`, or others of `q` if the triangle is flat
  have hleaves : ∃ u : Weights ℝ, (u.Recombine v p ∨ u.Recombine v q) ∧ ∃ i, u.corners.get i < 0 := by
    by_cases hdet : v.det = 0
    · obtain ⟨u, hu, hnegative⟩ := exists_recombine_of_flat hdet hv.first_third ⟨hw.sum, hpoint⟩
      exact ⟨u, Or.inr hu, 1, hnegative⟩
    · have hu : (v.cramer p).Recombine v p := ⟨v.sum_cramer p, blendPoint_cramer hdet⟩
      refine ⟨_, Or.inl hu, ?_⟩
      by_contra hnone
      simp only [not_exists, not_lt] at hnone
      exact hp ⟨_, Weights.above_zero_iff.mpr ⟨hu.sum, hnone⟩, hu.point⟩
  obtain ⟨u, hu, hnegative⟩ := hleaves
  obtain ⟨s, h0, h1, hkept, hzero⟩ := exists_first_exit (Weights.above_zero_iff.mp hw).2 hnegative
  simp only [← Weights.get_toward] at hkept hzero
  have husum : u.first + u.second + u.third = 1 := hu.elim (·.sum) (·.sum)
  have habove : (w.toward u s).Above 0 := by
    refine Weights.above_zero_iff.mpr ⟨?_, hkept⟩
    simp only [Weights.toward]
    linear_combination (1 - s) * hw.sum + s * husum
  refine ⟨_, blendPoint_mem_boundary habove hzero, ?_⟩
  rw [Weights.blendPoint_toward, hpoint]
  rcases hu with hu | hu
  · -- on the way to `p` only a part of the distance is left
    rw [hu.point]
    have hleft : p.sqDistance (q + (p - q).scale s) = (1 - s) ^ 2 * p.sqDistance q := by
      simp only [Point.sqDistance_real, Point.add_x, Point.add_y, Point.sub_x, Point.sub_y, Point.scale_x,
        Point.scale_y]
      ring
    rw [hleft]
    exact mul_le_of_le_one_left (p.sqDistance_nonneg q) (by nlinarith)
  · have hstay : q + (q - q).scale s = q := Point.eq_of_coordinates (by simp) (by simp)
    rw [hu.point, hstay]

/-- The edges belong to the closed triangle. -/
theorem boundary_subset_region (v : Triangle ℝ) : v.boundary ⊆ v.region := by
  rintro q ((⟨t, ⟨h0, h1⟩, rfl⟩ | ⟨t, ⟨h0, h1⟩, rfl⟩) | ⟨t, ⟨h0, h1⟩, rfl⟩)
  · exact ⟨⟨1 - t, t, 0⟩, ⟨by ring, by linarith, by linarith, by norm_num⟩,
      Point.eq_of_coordinates (by simp [Weights.blendPoint]; ring) (by simp [Weights.blendPoint]; ring)⟩
  · exact ⟨⟨0, 1 - t, t⟩, ⟨by ring, by norm_num, by linarith, by linarith⟩,
      Point.eq_of_coordinates (by simp [Weights.blendPoint]; ring) (by simp [Weights.blendPoint]; ring)⟩
  · exact ⟨⟨1 - t, 0, t⟩, ⟨by ring, by linarith, by norm_num, by linarith⟩,
      Point.eq_of_coordinates (by simp [Weights.blendPoint]; ring) (by simp [Weights.blendPoint]; ring)⟩

/-- From a point outside, the nearest edge is as near as the closed triangle. -/
theorem isLeast_region (hv : v.Distinct) (hp : p ∉ v.region) :
    IsLeast (p.sqDistance '' v.region) (v.sqDistanceToEdges p) := by
  obtain ⟨⟨q, hq, heq⟩, hleast⟩ := isLeast_sqDistanceToEdges hv p
  refine ⟨⟨q, v.boundary_subset_region hq, heq⟩, ?_⟩
  rintro _ ⟨r, hr, rfl⟩
  obtain ⟨r', hr', hnearer⟩ := exists_boundary_nearer hv hp hr
  exact (hleast ⟨r', hr', rfl⟩).trans hnearer

end Triangle

/-- **The distance to the edges is the distance to the triangle.**  The clamped parameter finds the nearest
point of a segment, from either end.  If no two corners coincide, the distance to the edges is that to the
nearest point of the three edges, and from a point outside also that to the nearest point of the closed
triangle.  A box that does not come within a distance of a point leaves every point of the closed triangle
farther than that, also those of the edges and the centroid. -/
theorem boundary_distance {v : Triangle ℝ} (hv : v.Distinct) (p : Point ℝ) :
    (∀ a b : Point ℝ, a ≠ b →
      IsLeast ((fun t => p.sqDistance (a + (b - a).scale t)) '' Set.Icc 0 1)
        (Triangle.sqDistanceToSegment p a b (b.sqDistance a)) ∧
      Triangle.sqDistanceToSegment p a b (b.sqDistance a) =
        Triangle.sqDistanceToSegment p b a (a.sqDistance b)) ∧
    IsLeast (p.sqDistance '' v.boundary) (v.sqDistanceToEdges p) ∧
    (p ∉ v.region → IsLeast (p.sqDistance '' v.region) (v.sqDistanceToEdges p)) ∧
    ∀ distance, v.boxWithin p distance = false →
      (∀ q ∈ v.region, distance < Real.sqrt (p.sqDistance q)) ∧
      distance < Real.sqrt (v.sqDistanceToEdges p) ∧
      distance < Real.sqrt (p.sqDistance v.centroid) := by
  refine ⟨fun a b hab => ⟨?_, ?_⟩, Triangle.isLeast_sqDistanceToEdges hv p, Triangle.isLeast_region hv,
    fun distance hbox => ?_⟩
  · rw [b.sqDistance_comm a]
    simpa only [Point.segment, Set.image_image] using Triangle.isLeast_sqDistanceToSegment hab p
  · rw [b.sqDistance_comm a, ← Triangle.sqDistanceToSegment_comm, b.sqDistance_comm a]
  · have hfar : ∀ q ∈ v.region, distance < Real.sqrt (p.sqDistance q) := by
      rintro _ ⟨w, hw, rfl⟩
      exact Triangle.lt_sqDistance_of_not_boxWithin (Bool.eq_false_iff.mp hbox) hw
    obtain ⟨q, hq, heq⟩ := (Triangle.isLeast_sqDistanceToEdges hv p).1
    refine ⟨hfar, ?_, hfar _ ?_⟩
    · rw [← heq]
      exact hfar q (v.boundary_subset_region hq)
    · exact ⟨_, ⟨by norm_num, by norm_num, by norm_num, by norm_num⟩, v.centroid_eq.symm⟩

/-- A point beside the wedge: its left edge is the nearest one, and its box is more than half a unit
away. -/
theorem wedge_boundary_distance :
    wedgeCorners.Distinct ∧ ⟨-1, 5⟩ ∉ wedgeCorners.region ∧
      IsLeast (Point.sqDistance ⟨-1, 5⟩ '' wedgeCorners.region) 1 ∧
      wedgeCorners.boxWithin ⟨-1, 5⟩ (1 / 2) = false ∧
      1 / 2 < Real.sqrt (Point.sqDistance ⟨-1, 5⟩ wedgeCorners.centroid) := by
  have hv : wedgeCorners.Distinct := by
    refine ⟨fun h => ?_, fun h => ?_, fun h => ?_⟩
    · have hx := congrArg Point.x h
      norm_num [wedgeCorners] at hx
    · have hx := congrArg Point.x h
      norm_num [wedgeCorners] at hx
    · have hy := congrArg Point.y h
      norm_num [wedgeCorners] at hy
  have houtside : ⟨-1, 5⟩ ∉ wedgeCorners.region := by
    rintro ⟨w, hw, hpoint⟩
    have hx := (Triangle.blendPoint_mem_box wedgeCorners hw).1.1
    rw [hpoint, Triangle.boxMin_x] at hx
    norm_num [wedgeCorners] at hx
  have hedges : wedgeCorners.sqDistanceToEdges ⟨-1, 5⟩ = 1 := by
    norm_num [Triangle.sqDistanceToEdges, Triangle.sqDistanceToSegment, Triangle.sqEdgeLengths,
      Point.sqDistance_real, Point.dot_real, wedgeCorners]
  have hbox : wedgeCorners.boxWithin ⟨-1, 5⟩ (1 / 2) = false := by
    rw [Bool.eq_false_iff, ne_eq, Triangle.boxWithin_iff, Triangle.boxMin_x]
    norm_num [wedgeCorners]
  obtain ⟨-, -, hregion, hfar⟩ := boundary_distance hv ⟨-1, 5⟩
  rw [hedges] at hregion
  exact ⟨hv, houtside, hregion houtside, hbox, (hfar _ hbox).2.2⟩

end ShiftMesh
