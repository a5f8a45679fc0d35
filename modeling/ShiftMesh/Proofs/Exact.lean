import Mathlib
import ShiftMesh.Mesh.Locator

/-!
# ShiftMesh.Proofs.Exact — the real numbers as the exact arithmetic of a mesh

* The reals are a `Scalar` with the tolerance of the doubles; every real lies below infinity, and a
  point may be stored as itself.
* The choices of a `Scalar` are `min` and `max` there; the operations on points and windows are those
  of the coordinates.
* `Corners.forall_mem_toList`: a property of every corner.
-/

namespace ShiftMesh

/-- Exact arithmetic. -/
noncomputable instance : Scalar ℝ where
  decLt := inferInstance
  decLe := inferInstance
  ofNat n := n
  sqrt := Real.sqrt
  abs x := |x|
  tolerance := 1 / ((10 ^ 10 : ℕ) : ℝ)
  belowTop _ := true

/-- In exact arithmetic a point may be stored as itself. -/
instance : StoredPoint (Point ℝ) ℝ := ⟨.ok⟩

/-! ## Scalars -/

namespace Scalar

@[simp] theorem ofNat_real (n : ℕ) : (ofNat n : ℝ) = n := rfl

@[simp] theorem sqrt_real (a : ℝ) : sqrt a = Real.sqrt a := rfl

@[simp] theorem abs_real (a : ℝ) : abs a = |a| := rfl

@[simp] theorem belowTop_real (a : ℝ) : belowTop a = true := rfl

theorem tolerance_real : (tolerance : ℝ) = 1 / 10 ^ 10 := by
  change 1 / ((10 ^ 10 : ℕ) : ℝ) = 1 / 10 ^ 10
  norm_num

theorem tolerance_pos : 0 < (tolerance : ℝ) := by
  rw [tolerance_real]; norm_num

@[simp] theorem pickLess_real (a b : ℝ) : pickLess a b = min a b := by
  unfold pickLess
  by_cases h : a < b
  · rw [if_pos h, min_eq_left h.le]
  · rw [if_neg h, min_eq_right (not_lt.mp h)]

@[simp] theorem pickGreater_real (a b : ℝ) : pickGreater a b = max a b := by
  unfold pickGreater
  by_cases h : b < a
  · rw [if_pos h, max_eq_left h.le]
  · rw [if_neg h, max_eq_right (not_lt.mp h)]

@[simp] theorem lesser_real (a b : ℝ) : lesser a b = min a b := by
  unfold lesser
  by_cases h : a < b
  · rw [if_pos h, min_eq_left h.le]
  · rw [if_neg h, if_pos le_rfl, min_eq_right (not_lt.mp h)]

@[simp] theorem greater_real (a b : ℝ) : greater a b = max a b := by
  unfold greater
  by_cases h : b < a
  · rw [if_pos h, max_eq_left h.le]
  · rw [if_neg h, if_pos le_rfl, max_eq_right (not_lt.mp h)]

end Scalar

/-! ## Points -/

namespace Point

theorem eq_of_coordinates {α : Type} {p q : Point α} (hx : p.x = q.x) (hy : p.y = q.y) : p = q := by
  cases p
  cases q
  exact congrArg₂ Point.mk hx hy

variable (p q : Point ℝ) (a : ℝ)

@[simp] theorem add_x : (p + q).x = p.x + q.x := rfl
@[simp] theorem add_y : (p + q).y = p.y + q.y := rfl
@[simp] theorem sub_x : (p - q).x = p.x - q.x := rfl
@[simp] theorem sub_y : (p - q).y = p.y - q.y := rfl
@[simp] theorem neg_x : (-p).x = -p.x := rfl
@[simp] theorem neg_y : (-p).y = -p.y := rfl
@[simp] theorem diagonal_x : (diagonal a).x = a := rfl
@[simp] theorem diagonal_y : (diagonal a).y = a := rfl
@[simp] theorem origin_x : (origin : Point ℝ).x = 0 := Nat.cast_zero
@[simp] theorem origin_y : (origin : Point ℝ).y = 0 := Nat.cast_zero
@[simp] theorem scale_x : (p.scale a).x = p.x * a := rfl
@[simp] theorem scale_y : (p.scale a).y = p.y * a := rfl
@[simp] theorem divide_x : (p.divide a).x = p.x / a := rfl
@[simp] theorem divide_y : (p.divide a).y = p.y / a := rfl
@[simp] theorem lower_x : (p.lower q).x = min p.x q.x := Scalar.pickLess_real _ _
@[simp] theorem lower_y : (p.lower q).y = min p.y q.y := Scalar.pickLess_real _ _
@[simp] theorem upper_x : (p.upper q).x = max p.x q.x := Scalar.pickGreater_real _ _
@[simp] theorem upper_y : (p.upper q).y = max p.y q.y := Scalar.pickGreater_real _ _

/-- The point with whole coordinates. -/
def whole (x y : ℕ) : Point ℝ := ⟨x, y⟩

@[simp] theorem whole_x (x y : ℕ) : (whole x y).x = x := rfl
@[simp] theorem whole_y (x y : ℕ) : (whole x y).y = y := rfl

theorem dot_real : p.dot q = p.x * q.x + p.y * q.y := rfl

theorem sqDistance_real : p.sqDistance q = (p.x - q.x) ^ 2 + (p.y - q.y) ^ 2 := by
  rw [sq, sq]; rfl

theorem sqDistance_nonneg : 0 ≤ p.sqDistance q := by
  rw [sqDistance_real]; positivity

end Point

/-! ## Corners -/

namespace Corners

variable {β γ : Type}

theorem forall_mem_toList {c : Corners β} {P : β → Prop} :
    (∀ b ∈ c.toList, P b) ↔ P c.first ∧ P c.second ∧ P c.third := by
  simp [toList]

theorem toList_map (f : β → γ) (c : Corners β) : (c.map f).toList = c.toList.map f := rfl

end Corners

/-! ## Windows and extents -/

theorem Window.meets_iff {w : Window ℝ} {lo hi : Point ℝ} :
    w.meets lo hi = true ↔
      (w.min.x ≤ hi.x ∧ lo.x ≤ w.max.x) ∧ w.min.y ≤ hi.y ∧ lo.y ≤ w.max.y := by
  simp only [Window.meets, Bool.and_eq_true, decide_eq_true_eq, and_assoc]

theorem extent_clamp_x (e : Extent ℝ) (p : Point ℝ) :
    (e.clamp p).x = min (max p.x e.min.x) e.max.x := by
  simp [Extent.clamp, Point.clamp]

theorem extent_clamp_y (e : Extent ℝ) (p : Point ℝ) :
    (e.clamp p).y = min (max p.y e.min.y) e.max.y := by
  simp [Extent.clamp, Point.clamp]

/-! ## Triangles -/

theorem Triangle.det_real (v : Triangle ℝ) :
    v.det = (v.second.y - v.third.y) * (v.first.x - v.third.x) +
      (v.third.x - v.second.x) * (v.first.y - v.third.y) := rfl

end ShiftMesh
