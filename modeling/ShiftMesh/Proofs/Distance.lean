import ShiftMesh.Proofs.Window

/-!
# ShiftMesh.Proofs.Distance — the measures and the windows of the outward search, in exact arithmetic

* `FallbackStrategy.exists_sqDistance_eq`: either measure is the squared distance to a point of the
  closed triangle.
* `Triangle.lt_sqDistance_of_not_boxWithin`: a triangle whose box is out of reach has no point within
  reach, so the box test drops none that could be nearer.
* `searchCenter_near`: the centre of the outward search is as near to a triangle as the point is, up to
  half the spread of the shifts.
* `meetsTriangle_around_searchCenter`: hence a window of the outward search meets every triangle that
  is near enough.
-/

namespace ShiftMesh

/-! ## A point of the triangle for each measure -/

namespace Triangle

theorem exists_sqDistanceToSegment_eq (p a b : Point ℝ) (l : ℝ) :
    ∃ t : ℝ, 0 ≤ t ∧ t ≤ 1 ∧
      sqDistanceToSegment p a b l = p.sqDistance (a + (b - a).scale t) := by
  have hend : ∀ {c : Point ℝ} {t : ℝ}, a + (b - a).scale t = c →
      p.sqDistance c = p.sqDistance (a + (b - a).scale t) := fun h => by rw [h]
  simp only [sqDistanceToSegment, Scalar.ofNat_real, Nat.cast_zero, Nat.cast_one]
  by_cases h0 : (p - a).dot (b - a) / l ≤ 0
  · rw [if_pos h0]
    exact ⟨0, le_rfl, zero_le_one, hend (Point.eq_of_coordinates (by simp) (by simp))⟩
  · rw [if_neg h0]
    by_cases h1 : 1 ≤ (p - a).dot (b - a) / l
    · rw [if_pos h1]
      exact ⟨1, zero_le_one, le_rfl, hend (Point.eq_of_coordinates (by simp) (by simp))⟩
    · rw [if_neg h1]
      exact ⟨_, (not_le.mp h0).le, (not_le.mp h1).le, rfl⟩

/-- The distance to the nearest edge is the distance to a point of the closed triangle. -/
theorem exists_sqDistanceToEdges_eq (v : Triangle ℝ) (p : Point ℝ) :
    ∃ w : Weights ℝ, w.Above 0 ∧ v.sqDistanceToEdges p = p.sqDistance (w.blendPoint v) := by
  -- each edge gives weights of its two corners
  have edge : ∀ (a b : Point ℝ) (l : ℝ) (u : ℝ → Weights ℝ),
      (∀ t, 0 ≤ t → t ≤ 1 → (u t).Above 0) →
      (∀ t, a + (b - a).scale t = (u t).blendPoint v) →
      ∃ w : Weights ℝ, w.Above 0 ∧ sqDistanceToSegment p a b l = p.sqDistance (w.blendPoint v) := by
    intro a b l u habove hpoint
    obtain ⟨t, h0, h1, heq⟩ := exists_sqDistanceToSegment_eq p a b l
    exact ⟨u t, habove t h0 h1, by rw [heq, hpoint]⟩
  have first := edge v.first v.second v.sqEdgeLengths.first (fun t => ⟨1 - t, t, 0⟩)
    (fun t h0 h1 => ⟨by ring, by linarith, by linarith, by norm_num⟩)
    (fun t => Point.eq_of_coordinates (by simp [Weights.blendPoint]; ring)
      (by simp [Weights.blendPoint]; ring))
  have second := edge v.second v.third v.sqEdgeLengths.second (fun t => ⟨0, 1 - t, t⟩)
    (fun t h0 h1 => ⟨by ring, by norm_num, by linarith, by linarith⟩)
    (fun t => Point.eq_of_coordinates (by simp [Weights.blendPoint]; ring)
      (by simp [Weights.blendPoint]; ring))
  have third := edge v.first v.third v.sqEdgeLengths.third (fun t => ⟨1 - t, 0, t⟩)
    (fun t h0 h1 => ⟨by ring, by linarith, by norm_num, by linarith⟩)
    (fun t => Point.eq_of_coordinates (by simp [Weights.blendPoint]; ring)
      (by simp [Weights.blendPoint]; ring))
  -- the least of the three is one of them
  rw [sqDistanceToEdges, Scalar.lesser_real, Scalar.lesser_real]
  rcases min_choice (min (sqDistanceToSegment p v.first v.second v.sqEdgeLengths.first)
      (sqDistanceToSegment p v.second v.third v.sqEdgeLengths.second))
      (sqDistanceToSegment p v.first v.third v.sqEdgeLengths.third) with h | h
  · rw [h]
    rcases min_choice (sqDistanceToSegment p v.first v.second v.sqEdgeLengths.first)
      (sqDistanceToSegment p v.second v.third v.sqEdgeLengths.second) with h | h
    · rwa [h]
    · rwa [h]
  · rwa [h]

/-- The centroid has the same weight at each corner. -/
theorem centroid_eq (v : Triangle ℝ) :
    v.centroid = (⟨1 / 3, 1 / 3, 1 / 3⟩ : Weights ℝ).blendPoint v := by
  refine Point.eq_of_coordinates ?_ ?_ <;>
    simp only [centroid, Weights.blendPoint, Point.divide_x, Point.divide_y, Point.add_x, Point.add_y,
      Point.scale_x, Point.scale_y, Scalar.ofNat_real] <;> push_cast <;> ring

end Triangle

/-- The distance by which a strategy ranks a triangle is that to a point of the closed triangle. -/
theorem FallbackStrategy.exists_sqDistance_eq (strategy : FallbackStrategy) (p : Point ℝ)
    (v : Triangle ℝ) :
    ∃ w : Weights ℝ, w.Above 0 ∧ strategy.sqDistance p v = p.sqDistance (w.blendPoint v) := by
  cases strategy with
  | none => exact v.exists_sqDistanceToEdges_eq p
  | nearestSide => exact v.exists_sqDistanceToEdges_eq p
  | nearestCentroid =>
    refine ⟨⟨1 / 3, 1 / 3, 1 / 3⟩, ⟨by norm_num, by norm_num, by norm_num, by norm_num⟩, ?_⟩
    rw [← Triangle.centroid_eq]
    rfl

theorem FallbackStrategy.sqDistance_nonneg (strategy : FallbackStrategy) (p : Point ℝ)
    (v : Triangle ℝ) : 0 ≤ strategy.sqDistance p v := by
  obtain ⟨w, -, heq⟩ := strategy.exists_sqDistance_eq p v
  rw [heq]
  exact p.sqDistance_nonneg _

/-! ## Points of a triangle and boxes -/

namespace Point

theorem abs_sub_x_le (p q : Point ℝ) : |p.x - q.x| ≤ Real.sqrt (p.sqDistance q) := by
  rw [sqDistance_real]
  exact Real.abs_le_sqrt (le_add_of_nonneg_right (sq_nonneg _))

theorem abs_sub_y_le (p q : Point ℝ) : |p.y - q.y| ≤ Real.sqrt (p.sqDistance q) := by
  rw [sqDistance_real]
  exact Real.abs_le_sqrt (le_add_of_nonneg_left (sq_nonneg _))

end Point

namespace Triangle

variable {v : Triangle ℝ} {p : Point ℝ}

theorem boxWithin_iff {distance : ℝ} : v.boxWithin p distance = true ↔
    (v.boxMin.x ≤ p.x + distance ∧ p.x - distance ≤ v.boxMax.x) ∧
      v.boxMin.y ≤ p.y + distance ∧ p.y - distance ≤ v.boxMax.y := by
  simp only [boxWithin, Bool.not_eq_true', Bool.or_eq_false_iff, decide_eq_false_iff_not, not_lt,
    and_assoc]

/-- Weights that are not negative give a point of the box. -/
theorem blendPoint_mem_box (v : Triangle ℝ) {w : Weights ℝ} (hw : w.Above 0) :
    (v.boxMin.x ≤ (w.blendPoint v).x ∧ (w.blendPoint v).x ≤ v.boxMax.x) ∧
      v.boxMin.y ≤ (w.blendPoint v).y ∧ (w.blendPoint v).y ≤ v.boxMax.y := by
  rw [Weights.blendPoint_x, Weights.blendPoint_y]
  exact ⟨Weights.blend_mem hw v.mem_box_x, Weights.blend_mem hw v.mem_box_y⟩

/-- A triangle whose box does not come within a distance has no point within the distance. -/
theorem lt_sqDistance_of_not_boxWithin {distance : ℝ} (h : ¬ v.boxWithin p distance = true)
    {w : Weights ℝ} (hw : w.Above 0) : distance < Real.sqrt (p.sqDistance (w.blendPoint v)) := by
  by_contra hle
  rw [not_lt] at hle
  obtain ⟨hbx, hby⟩ := v.blendPoint_mem_box hw
  have hx := abs_le.mp ((p.abs_sub_x_le (w.blendPoint v)).trans hle)
  have hy := abs_le.mp ((p.abs_sub_y_le (w.blendPoint v)).trans hle)
  refine h (boxWithin_iff.mpr ⟨⟨?_, ?_⟩, ?_, ?_⟩) <;> linarith

end Triangle

/-! ## The centre of the outward search -/

/-- A point lies within the extent. -/
structure Extent.Holds (e : Extent ℝ) (q : Point ℝ) : Prop where
  min_x : e.min.x ≤ q.x
  max_x : q.x ≤ e.max.x
  min_y : e.min.y ≤ q.y
  max_y : q.y ≤ e.max.y

/-- Weights that are not negative keep to an extent that holds the corners. -/
theorem Extent.holds_blendPoint {e : Extent ℝ} {t : Triangle ℝ} (h : ∀ q ∈ t.toList, e.Holds q)
    {w : Weights ℝ} (hw : w.Above 0) : e.Holds (w.blendPoint t) := by
  have hx : ∀ a ∈ (t.map Point.x).toList, e.min.x ≤ a ∧ a ≤ e.max.x := by
    rw [Corners.toList_map]
    exact List.forall_mem_map.mpr fun q hq => ⟨(h q hq).min_x, (h q hq).max_x⟩
  have hy : ∀ a ∈ (t.map Point.y).toList, e.min.y ≤ a ∧ a ≤ e.max.y := by
    rw [Corners.toList_map]
    exact List.forall_mem_map.mpr fun q hq => ⟨(h q hq).min_y, (h q hq).max_y⟩
  have mx := Weights.blend_mem hw hx
  have my := Weights.blend_mem hw hy
  rw [← Weights.blendPoint_x] at mx
  rw [← Weights.blendPoint_y] at my
  exact ⟨mx.1, mx.2, my.1, my.2⟩

/-- Moving a value into an interval takes it no farther from a value of the interval. -/
theorem abs_clamp_sub_le {lo hi a b : ℝ} (hlo : lo ≤ b) (hhi : b ≤ hi) :
    |min (max a lo) hi - b| ≤ |a - b| := by
  have hb : min (max b lo) hi = b := by rw [max_eq_left hlo, min_eq_left hhi]
  calc |min (max a lo) hi - b| = |min (max a lo) hi - min (max b lo) hi| := by rw [hb]
    _ ≤ |max a lo - max b lo| := abs_inf_sub_inf_le_abs _ _ _
    _ ≤ |a - b| := abs_sup_sub_sup_le_abs _ _ _

/-- The greater spread of the shifts, over both axes. -/
noncomputable def ShiftRange.spread (s : ShiftRange ℝ) : ℝ :=
  Max.max (s.max.x - s.min.x) (s.max.y - s.min.y)

/-- The centre of the outward search is the point, moved back by the middle of the side's shifts, and
then into the extent. -/
theorem searchCenter_eq (m : MeshMetadata ℝ) (side : Side) (p : Point ℝ) :
    searchCenter m side p = m.extent.clamp (p - (m.sideShift side).midpoint) := by
  cases side with
  | target =>
    refine congrArg m.extent.clamp (Point.eq_of_coordinates ?_ ?_) <;>
      simp [MeshMetadata.sideShift, sub_eq_add_neg]
  | source =>
    refine congrArg m.extent.clamp (Point.eq_of_coordinates ?_ ?_) <;>
      simp [MeshMetadata.sideShift, ShiftRange.none, ShiftRange.midpoint]

/-- The metadata tells the truth about a triangle: its extent holds the source corners `t`, and the
range of the side holds the shifts to the searched corners `v`. -/
structure MeshMetadata.Describes (m : MeshMetadata ℝ) (side : Side) (t v : Triangle ℝ) : Prop where
  extent : ∀ q ∈ t.toList, m.extent.Holds q
  shift : (m.sideShift side).Bounds t v

variable {m : MeshMetadata ℝ} {side : Side} {t v : Triangle ℝ} {w : Weights ℝ}

/-- The centre of the outward search is as near to the source triangle as the point is to the searched
one, on either axis and up to half the spread of the shifts. -/
theorem searchCenter_near (h : m.Describes side t v) (hw : w.Above 0) (p : Point ℝ) :
    |(searchCenter m side p).x - (w.blendPoint t).x| ≤
        Real.sqrt (p.sqDistance (w.blendPoint v)) + (m.sideShift side).spread / 2 ∧
      |(searchCenter m side p).y - (w.blendPoint t).y| ≤
        Real.sqrt (p.sqDistance (w.blendPoint v)) + (m.sideShift side).spread / 2 := by
  have hin := Extent.holds_blendPoint h.extent hw
  have hx := h.shift.blendPoint_x hw le_rfl
  have hy := h.shift.blendPoint_y hw le_rfl
  simp only [mul_zero, zero_mul, sub_zero, add_zero] at hx hy
  have dx := abs_le.mp (p.abs_sub_x_le (w.blendPoint v))
  have dy := abs_le.mp (p.abs_sub_y_le (w.blendPoint v))
  have sx := le_max_left ((m.sideShift side).max.x - (m.sideShift side).min.x)
    ((m.sideShift side).max.y - (m.sideShift side).min.y)
  have sy := le_max_right ((m.sideShift side).max.x - (m.sideShift side).min.x)
    ((m.sideShift side).max.y - (m.sideShift side).min.y)
  rw [searchCenter_eq, extent_clamp_x, extent_clamp_y, ShiftRange.spread]
  refine ⟨(abs_clamp_sub_le hin.min_x hin.max_x).trans (abs_le.mpr ?_),
    (abs_clamp_sub_le hin.min_y hin.max_y).trans (abs_le.mpr ?_)⟩
  · simp only [ShiftRange.midpoint, Point.sub_x, Point.scale_x, Point.add_x, Scalar.ofNat_real]
    push_cast
    constructor <;> linarith
  · simp only [ShiftRange.midpoint, Point.sub_y, Point.scale_y, Point.add_y, Scalar.ofNat_real]
    push_cast
    constructor <;> linarith

/-- A window of the outward search meets every triangle that has a point near enough. -/
theorem meetsTriangle_around_searchCenter (h : m.Describes side t v) (hw : w.Above 0) {p : Point ℝ}
    {reach : ℝ}
    (hreach : Real.sqrt (p.sqDistance (w.blendPoint v)) + (m.sideShift side).spread / 2 ≤ reach) :
    (Window.around (searchCenter m side p) reach).meetsTriangle t = true := by
  obtain ⟨hx, hy⟩ := searchCenter_near h hw p
  have cx := abs_le.mp (hx.trans hreach)
  have cy := abs_le.mp (hy.trans hreach)
  obtain ⟨bx, by_⟩ := t.blendPoint_mem_box hw
  rw [Window.meetsTriangle, Window.meets_iff]
  simp only [Window.around, Point.sub_x, Point.sub_y, Point.add_x, Point.add_y, Point.diagonal_x,
    Point.diagonal_y]
  refine ⟨⟨?_, ?_⟩, ?_, ?_⟩ <;> linarith

end ShiftMesh
