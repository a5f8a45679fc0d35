import ShiftMesh.Proofs.Barycentric

/-!
# ShiftMesh.Proofs.Window — boxes, shift ranges and the exact window, in exact arithmetic

Windows are compared with source boxes, while an inverse search tests target corners.  The two are
tied by the shifts: a weighted sum of target corners less the same weighted sum of source corners is
the weighted sum of the shifts.

* `Triangle.blendPoint_box_x`, `Triangle.blendPoint_box_y`: how far a weighted sum of corners can
  leave the bounding box.
* `ShiftRange.Holds`, `ShiftRange.Bounds`: a shift, and the shifts of a triangle's corners, within a
  range; `ShiftRange.holds_ofShifts`: the range of given shifts holds each of them.
* `MeshMetadata.sideShift`: the range by which the corners searched on a side are shifted; there is no
  shift on the source side, so both sides are treated alike.
* `meetsTriangle_exactWindow`: the exact window meets the source box of a triangle whose searched
  corners recombine into the point, with weights that are not too far below zero.
-/

namespace ShiftMesh

/-! ## Bounding boxes -/

namespace Triangle

variable (v : Triangle ℝ)

theorem boxMin_x : v.boxMin.x = min (min v.first.x v.second.x) v.third.x := by simp [boxMin]

theorem boxMin_y : v.boxMin.y = min (min v.first.y v.second.y) v.third.y := by simp [boxMin]

theorem boxMax_x : v.boxMax.x = max (max v.first.x v.second.x) v.third.x := by simp [boxMax]

theorem boxMax_y : v.boxMax.y = max (max v.first.y v.second.y) v.third.y := by simp [boxMax]

theorem mem_box_x : ∀ a ∈ (v.map Point.x).toList, v.boxMin.x ≤ a ∧ a ≤ v.boxMax.x := by
  rw [boxMin_x, boxMax_x]
  refine Corners.forall_mem_toList.mpr ⟨⟨?_, ?_⟩, ⟨?_, ?_⟩, ⟨?_, ?_⟩⟩ <;> simp [Corners.map]

theorem mem_box_y : ∀ a ∈ (v.map Point.y).toList, v.boxMin.y ≤ a ∧ a ≤ v.boxMax.y := by
  rw [boxMin_y, boxMax_y]
  refine Corners.forall_mem_toList.mpr ⟨⟨?_, ?_⟩, ⟨?_, ?_⟩, ⟨?_, ?_⟩⟩ <;> simp [Corners.map]

variable {w : Weights ℝ} {δ : ℝ}

theorem blendPoint_box_x (hw : w.Above δ) (hδ : 0 ≤ δ) :
    v.boxMin.x - 2 * δ * (v.boxMax.x - v.boxMin.x) ≤ (w.blendPoint v).x ∧
      (w.blendPoint v).x ≤ v.boxMax.x + 2 * δ * (v.boxMax.x - v.boxMin.x) := by
  rw [Weights.blendPoint_x]
  exact ⟨Weights.blend_ge hw hδ v.mem_box_x, Weights.blend_le hw hδ v.mem_box_x⟩

theorem blendPoint_box_y (hw : w.Above δ) (hδ : 0 ≤ δ) :
    v.boxMin.y - 2 * δ * (v.boxMax.y - v.boxMin.y) ≤ (w.blendPoint v).y ∧
      (w.blendPoint v).y ≤ v.boxMax.y + 2 * δ * (v.boxMax.y - v.boxMin.y) := by
  rw [Weights.blendPoint_y]
  exact ⟨Weights.blend_ge hw hδ v.mem_box_y, Weights.blend_le hw hδ v.mem_box_y⟩

end Triangle

/-! ## Shift ranges -/

namespace ShiftRange

/-- A shift lies within the range on both axes. -/
structure Holds (s : ShiftRange ℝ) (d : Point ℝ) : Prop where
  min_x : s.min.x ≤ d.x
  max_x : d.x ≤ s.max.x
  min_y : s.min.y ≤ d.y
  max_y : d.y ≤ s.max.y

/-- The shift of each corner, from `t` to `v`, lies within the range. -/
def Bounds (s : ShiftRange ℝ) (t v : Triangle ℝ) : Prop :=
  ∀ d ∈ (v.zip (· - ·) t).toList, s.Holds d

theorem widen_holds_self (s : ShiftRange ℝ) (d : Point ℝ) : (s.widen d).Holds d where
  min_x := by simp [widen]
  max_x := by simp [widen]
  min_y := by simp [widen]
  max_y := by simp [widen]

theorem Holds.widen {s : ShiftRange ℝ} {d : Point ℝ} (h : s.Holds d) (e : Point ℝ) :
    (s.widen e).Holds d where
  min_x := by simp [ShiftRange.widen, h.min_x]
  max_x := by simp [ShiftRange.widen, h.max_x]
  min_y := by simp [ShiftRange.widen, h.min_y]
  max_y := by simp [ShiftRange.widen, h.max_y]

theorem Holds.foldl_widen {d : Point ℝ} :
    ∀ (shifts : List (Point ℝ)) {s : ShiftRange ℝ}, s.Holds d →
      (shifts.foldl ShiftRange.widen s).Holds d
  | [], _, h => h
  | e :: shifts, _, h => Holds.foldl_widen shifts (h.widen e)

theorem foldl_widen_holds :
    ∀ (shifts : List (Point ℝ)) (s : ShiftRange ℝ),
      ∀ d ∈ shifts, (shifts.foldl widen s).Holds d
  | e :: shifts, s, d, hd => by
    rcases List.mem_cons.mp hd with rfl | hd
    · exact Holds.foldl_widen shifts (s.widen_holds_self d)
    · exact foldl_widen_holds shifts (s.widen e) d hd

/-- The range of given shifts holds each of them. -/
theorem holds_ofShifts (shifts : List (Point ℝ)) : ∀ d ∈ shifts, (ofShifts shifts).Holds d := by
  intro d hd
  cases shifts with
  | nil => cases hd
  | cons e shifts =>
    rcases List.mem_cons.mp hd with rfl | hd
    · exact Holds.foldl_widen shifts ⟨le_rfl, le_rfl, le_rfl, le_rfl⟩
    · exact foldl_widen_holds shifts _ d hd

/-- Corners are not shifted from themselves. -/
theorem none_bounds (t : Triangle ℝ) : (none : ShiftRange ℝ).Bounds t t := by
  refine Corners.forall_mem_toList.mpr ⟨?_, ?_, ?_⟩ <;> constructor <;> simp [none, Corners.zip]

variable {s : ShiftRange ℝ} {t v : Triangle ℝ} {w : Weights ℝ} {δ : ℝ}

/-- The weighted sum of the shifts of the corners is the shift of the weighted sums. -/
theorem blend_shift_x (t v : Triangle ℝ) (w : Weights ℝ) :
    w.blend ((v.zip (· - ·) t).map Point.x) = (w.blendPoint v).x - (w.blendPoint t).x := by
  simp only [Weights.blendPoint_x, Weights.blend_real, Corners.map, Corners.zip, Point.sub_x]
  ring

theorem blend_shift_y (t v : Triangle ℝ) (w : Weights ℝ) :
    w.blend ((v.zip (· - ·) t).map Point.y) = (w.blendPoint v).y - (w.blendPoint t).y := by
  simp only [Weights.blendPoint_y, Weights.blend_real, Corners.map, Corners.zip, Point.sub_y]
  ring

theorem Bounds.blendPoint_x (h : s.Bounds t v) (hw : w.Above δ) (hδ : 0 ≤ δ) :
    s.min.x - 2 * δ * (s.max.x - s.min.x) ≤ (w.blendPoint v).x - (w.blendPoint t).x ∧
      (w.blendPoint v).x - (w.blendPoint t).x ≤ s.max.x + 2 * δ * (s.max.x - s.min.x) := by
  have hmem : ∀ a ∈ ((v.zip (· - ·) t).map Point.x).toList, s.min.x ≤ a ∧ a ≤ s.max.x := by
    rw [Corners.toList_map]
    exact List.forall_mem_map.mpr fun d hd => ⟨(h d hd).min_x, (h d hd).max_x⟩
  rw [← blend_shift_x]
  exact ⟨Weights.blend_ge hw hδ hmem, Weights.blend_le hw hδ hmem⟩

theorem Bounds.blendPoint_y (h : s.Bounds t v) (hw : w.Above δ) (hδ : 0 ≤ δ) :
    s.min.y - 2 * δ * (s.max.y - s.min.y) ≤ (w.blendPoint v).y - (w.blendPoint t).y ∧
      (w.blendPoint v).y - (w.blendPoint t).y ≤ s.max.y + 2 * δ * (s.max.y - s.min.y) := by
  have hmem : ∀ a ∈ ((v.zip (· - ·) t).map Point.y).toList, s.min.y ≤ a ∧ a ≤ s.max.y := by
    rw [Corners.toList_map]
    exact List.forall_mem_map.mpr fun d hd => ⟨(h d hd).min_y, (h d hd).max_y⟩
  rw [← blend_shift_y]
  exact ⟨Weights.blend_ge hw hδ hmem, Weights.blend_le hw hδ hmem⟩

end ShiftRange

/-! ## The exact window -/

/-- The range by which the corners searched on a side are shifted from the source corners. -/
def MeshMetadata.sideShift {α : Type} [Scalar α] (m : MeshMetadata α) : Side → ShiftRange α
  | .target => m.shift
  | .source => .none

/-- The source side searches the source corners, so there is no shift. -/
theorem TriangleRow.bounds_source {β : Type} [StoredPoint β ℝ] {r : TriangleRow β ℝ}
    (m : MeshMetadata ℝ) {t v : Triangle ℝ} (ht : r.triangle = .ok t)
    (hv : r.vertices .source = .ok v) : (m.sideShift .source).Bounds t v := by
  have heq : (.ok t : Except DecodeError (Triangle ℝ)) = .ok v := ht.symm.trans hv
  injection heq with heq
  rw [heq]
  exact ShiftRange.none_bounds v

/-- On either side the exact window is the point moved back by the side's shifts, and widened by the
tolerance. -/
theorem exactWindow_eq (m : MeshMetadata ℝ) (side : Side) (p : Point ℝ) :
    exactWindow m side p =
      ⟨p - (m.sideShift side).max - .diagonal Scalar.tolerance,
        p - (m.sideShift side).min + .diagonal Scalar.tolerance⟩ := by
  cases side with
  | target => rfl
  | source =>
    refine congrArg₂ Window.mk (Point.eq_of_coordinates ?_ ?_) (Point.eq_of_coordinates ?_ ?_) <;>
      simp [MeshMetadata.sideShift, ShiftRange.none]

/-- The exact window of a point meets the source box `t` of a triangle, if weights that are not below
`-δ` recombine the searched corners `v` into the point and `δ` is small against the box and the
shifts. -/
theorem meetsTriangle_exactWindow {m : MeshMetadata ℝ} {side : Side} {t v : Triangle ℝ}
    (hshift : (m.sideShift side).Bounds t v) {w : Weights ℝ} {δ : ℝ} (hw : w.Above δ) (hδ : 0 ≤ δ)
    (hx : 2 * δ * (t.boxMax.x - t.boxMin.x + ((m.sideShift side).max.x - (m.sideShift side).min.x)) ≤
      Scalar.tolerance)
    (hy : 2 * δ * (t.boxMax.y - t.boxMin.y + ((m.sideShift side).max.y - (m.sideShift side).min.y)) ≤
      Scalar.tolerance) :
    (exactWindow m side (w.blendPoint v)).meetsTriangle t = true := by
  obtain ⟨bx1, bx2⟩ := t.blendPoint_box_x hw hδ
  obtain ⟨by1, by2⟩ := t.blendPoint_box_y hw hδ
  obtain ⟨sx1, sx2⟩ := hshift.blendPoint_x hw hδ
  obtain ⟨sy1, sy2⟩ := hshift.blendPoint_y hw hδ
  rw [mul_add] at hx hy
  rw [exactWindow_eq, Window.meetsTriangle, Window.meets_iff]
  simp only [Point.sub_x, Point.sub_y, Point.add_x, Point.add_y, Point.diagonal_x, Point.diagonal_y]
  refine ⟨⟨?_, ?_⟩, ?_, ?_⟩ <;> linarith

/-- The exact window of a point in the closed triangle of the searched corners meets the source
box. -/
theorem meetsTriangle_exactWindow_of_nonneg {m : MeshMetadata ℝ} {side : Side} {t v : Triangle ℝ}
    (hshift : (m.sideShift side).Bounds t v) {p : Point ℝ} {w : Weights ℝ}
    (hw : v.weights? p = some w) (h1 : 0 ≤ w.first) (h2 : 0 ≤ w.second) (h3 : 0 ≤ w.third) :
    (exactWindow m side p).meetsTriangle t = true := by
  have habove : w.Above 0 := ⟨Triangle.sum_of_weights? hw, by simpa using h1, by simpa using h2,
    by simpa using h3⟩
  have hpos := Scalar.tolerance_pos
  rw [← Triangle.blendPoint_of_weights? hw]
  exact meetsTriangle_exactWindow hshift habove le_rfl (by linarith) (by linarith)

end ShiftMesh
