import ShiftMesh.Proofs.Distance

/-!
# ShiftMesh.Proofs.Translation — triangles moved as a whole, in exact arithmetic

A lookup reads a triangle through its weights, its degeneracy, its measures and its bounding box.  Moving
the triangle and the point by the same amount changes none of them.

* `Triangle.translate`: the triangle with every corner moved by the same amount.
* `Triangle.weights?_translate`, `Triangle.inside?_translate`, `Triangle.isDegenerate_translate`,
  `Triangle.boxWithin_translate`, `FallbackStrategy.sqDistance_translate`: what a lookup reads stays.
* `Weights.blendPoint_translate`: weights that sum to one move a weighted sum along with the corners.
-/

namespace ShiftMesh

/-! ## Points -/

namespace Point

variable (p q e δ : Point ℝ)

theorem add_sub_add : p + δ - (q + δ) = p - q := by
  refine eq_of_coordinates ?_ ?_ <;> simp

theorem add_add_right : p + δ + e = p + e + δ := by
  refine eq_of_coordinates ?_ ?_ <;> simp [add_right_comm]

theorem add_sub_self : p + δ - δ = p := by
  refine eq_of_coordinates ?_ ?_ <;> simp

theorem add_neg_self : p + δ + -δ = p := by
  refine eq_of_coordinates ?_ ?_ <;> simp

theorem add_origin : p + origin = p := by
  refine eq_of_coordinates ?_ ?_ <;> simp

theorem sub_origin : p - origin = p := by
  refine eq_of_coordinates ?_ ?_ <;> simp

theorem neg_origin : -(origin : Point ℝ) = origin := by
  refine eq_of_coordinates ?_ ?_ <;> simp

theorem sqDistance_add : (p + δ).sqDistance (q + δ) = p.sqDistance q := by
  rw [sqDistance, sqDistance, add_sub_add]

end Point

/-! ## Triangles -/

/-- The triangle with every corner moved by the same amount. -/
def Triangle.translate {α : Type} [Scalar α] (δ : Point α) (v : Triangle α) : Triangle α :=
  v.map (· + δ)

namespace Triangle

variable (v : Triangle ℝ) (p δ : Point ℝ)

@[simp] theorem translate_first : (v.translate δ).first = v.first + δ := rfl
@[simp] theorem translate_second : (v.translate δ).second = v.second + δ := rfl
@[simp] theorem translate_third : (v.translate δ).third = v.third + δ := rfl

theorem translate_origin : v.translate .origin = v := by
  simp only [translate, Corners.map, Point.add_origin]

theorem translate_translate_neg : (v.translate δ).translate (-δ) = v := by
  simp only [translate, Corners.map, Point.add_neg_self]

/-! ### Weights -/

theorem det_translate : (v.translate δ).det = v.det := by
  simp only [det_real, translate_first, translate_second, translate_third, Point.add_x, Point.add_y,
    add_sub_add_right_eq_sub]

theorem weights?_translate : (v.translate δ).weights? (p + δ) = v.weights? p := by
  simp only [weights?, det_translate, translate_first, translate_second, translate_third, Point.add_x,
    Point.add_y, add_sub_add_right_eq_sub]

theorem inside?_translate : (v.translate δ).inside? (p + δ) = v.inside? p := by
  rw [inside?, inside?, weights?_translate]

/-! ### Degeneracy -/

theorem sqEdgeLengths_translate : (v.translate δ).sqEdgeLengths = v.sqEdgeLengths := by
  simp only [sqEdgeLengths, translate_first, translate_second, translate_third, Point.sqDistance_add]

theorem isDegenerate_translate : (v.translate δ).isDegenerate = v.isDegenerate := by
  rw [isDegenerate, isDegenerate, hasShortEdge, hasShortEdge, sqEdgeLengths_translate, translate_first,
    weights?_translate]

/-! ### Measures -/

theorem sqDistanceToSegment_translate (a b : Point ℝ) (l : ℝ) :
    sqDistanceToSegment (p + δ) (a + δ) (b + δ) l = sqDistanceToSegment p a b l := by
  simp only [sqDistanceToSegment, Point.add_sub_add, Point.sqDistance_add, a.add_add_right _ δ]

theorem sqDistanceToEdges_translate :
    (v.translate δ).sqDistanceToEdges (p + δ) = v.sqDistanceToEdges p := by
  simp only [sqDistanceToEdges, sqEdgeLengths_translate, translate_first, translate_second,
    translate_third, sqDistanceToSegment_translate]

theorem centroid_translate : (v.translate δ).centroid = v.centroid + δ := by
  refine Point.eq_of_coordinates ?_ ?_ <;>
    simp only [centroid, translate_first, translate_second, translate_third, Point.divide_x,
      Point.divide_y, Point.add_x, Point.add_y, Scalar.ofNat_real] <;> push_cast <;> ring

/-! ### Bounding boxes -/

theorem boxMin_translate : (v.translate δ).boxMin = v.boxMin + δ := by
  refine Point.eq_of_coordinates ?_ ?_ <;> simp [boxMin, min_add_add_right]

theorem boxMax_translate : (v.translate δ).boxMax = v.boxMax + δ := by
  refine Point.eq_of_coordinates ?_ ?_ <;> simp [boxMax, max_add_add_right]

theorem boxWithin_translate (distance : ℝ) :
    (v.translate δ).boxWithin (p + δ) distance = v.boxWithin p distance := by
  have hbelow : ∀ a b c : ℝ, a + c + distance < b + c ↔ a + distance < b := fun a b c => by
    rw [add_right_comm, add_lt_add_iff_right]
  have habove : ∀ a b c : ℝ, b + c < a + c - distance ↔ b < a - distance := fun a b c => by
    rw [add_sub_right_comm, add_lt_add_iff_right]
  simp only [boxWithin, boxMin_translate, boxMax_translate, Point.add_x, Point.add_y, hbelow, habove]

end Triangle

/-- The measure by which a strategy ranks a triangle does not change if triangle and point are moved by
the same amount. -/
theorem FallbackStrategy.sqDistance_translate (strategy : FallbackStrategy) (p δ : Point ℝ)
    (v : Triangle ℝ) :
    strategy.sqDistance (p + δ) (v.translate δ) = strategy.sqDistance p v := by
  cases strategy with
  | none => exact v.sqDistanceToEdges_translate p δ
  | nearestSide => exact v.sqDistanceToEdges_translate p δ
  | nearestCentroid =>
    show (p + δ).sqDistance (v.translate δ).centroid = p.sqDistance v.centroid
    rw [v.centroid_translate, Point.sqDistance_add]

/-- Weights that sum to one move a weighted sum along with the corners. -/
theorem Weights.blendPoint_translate {w : Weights ℝ} (hsum : w.first + w.second + w.third = 1)
    (v : Triangle ℝ) (δ : Point ℝ) : w.blendPoint (v.translate δ) = w.blendPoint v + δ := by
  have hthird : w.third = 1 - w.first - w.second := by linarith
  refine Point.eq_of_coordinates ?_ ?_
  · rw [Point.add_x, blendPoint_x, blendPoint_x]
    simp only [blend_real, Corners.map, Triangle.translate, Point.add_x, hthird]
    ring
  · rw [Point.add_y, blendPoint_y, blendPoint_y]
    simp only [blend_real, Corners.map, Triangle.translate, Point.add_y, hthird]
    ring

end ShiftMesh
