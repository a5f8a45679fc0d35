import ShiftMesh.Proofs.CornerOrder
import ShiftMesh.Proofs.RoundTrip

/-!
# ShiftMesh.Proofs.SharedEdge — corrections are continuous across shared edges

On the line through two corners the weight of the third one vanishes, whatever that corner is and in
whatever order the corners stand.  So two triangles that agree at two corners correct the points of that
line alike, and it does not matter which of the two answers.

* `Triangle.along`, `Corners.between`: the points of the line through two corners, and the values there.
* `Triangle.exists_weights_along`: the weights of such a point weigh none but the two corners.
* `TriangleRow.SharesEdge`: two rows that agree at two corners in all they store.
* `continuous_across_shared_edge`: the two triangles interpolate alike on the line, and on a mesh where no
  other triangle contains the point, every lookup corrects it alike.
-/

namespace ShiftMesh

/-! ## The line through two corners -/

/-- Two triples agree at two corners; corner `i` of the first is corner `i'` of the second. -/
structure Corners.Agree {β : Type} (i j i' j' : Fin 3) (c c' : Corners β) : Prop where
  first : c.get i = c'.get i'
  second : c.get j = c'.get j'

/-- The value between two corners, at a parameter that is zero at the first and one at the second. -/
noncomputable def Corners.between (values : Corners ℝ) (i j : Fin 3) (u : ℝ) : ℝ :=
  (1 - u) * values.get i + u * values.get j

/-- The point of the line through two corners at a parameter. -/
noncomputable def Triangle.along (v : Triangle ℝ) (i j : Fin 3) (u : ℝ) : Point ℝ :=
  v.get i + (v.get j - v.get i).scale u

/-- The weights that are shared between two corners. -/
noncomputable def Weights.along (i j : Fin 3) (u : ℝ) : Weights ℝ :=
  .ofCorners (.ofFn fun k => (if k = i then 1 - u else 0) + if k = j then u else 0)

variable {i j i' j' : Fin 3} {u : ℝ}

namespace Weights

theorem blend_along (values : Corners ℝ) : (along i j u).blend values = values.between i j u := by
  have hsum : (along i j u).blend values =
      ∑ k, ((if k = i then 1 - u else 0) + if k = j then u else 0) * values.get k := by
    rw [Fin.sum_univ_three]
    rfl
  simp only [hsum, add_mul, Finset.sum_add_distrib, ite_mul, zero_mul, Finset.sum_ite_eq',
    Finset.mem_univ, if_true, Corners.between]

theorem blendPoint_along (v : Triangle ℝ) : (along i j u).blendPoint v = v.along i j u := by
  refine Point.eq_of_coordinates ?_ ?_
  · rw [blendPoint_x, blend_along, Corners.between, Corners.get_map, Corners.get_map]
    simp only [Triangle.along, Point.add_x, Point.scale_x, Point.sub_x]
    ring
  · rw [blendPoint_y, blend_along, Corners.between, Corners.get_map, Corners.get_map]
    simp only [Triangle.along, Point.add_y, Point.scale_y, Point.sub_y]
    ring

theorem sum_along : (along i j u).first + (along i j u).second + (along i j u).third = 1 := by
  have hone := blend_along (i := i) (j := j) (u := u) (.all 1)
  have hget : ∀ k, (Corners.all (1 : ℝ)).get k = 1
    | 0 => rfl
    | 1 => rfl
    | 2 => rfl
  rw [Corners.between, hget, hget, blend_real] at hone
  simpa [Corners.all] using hone

/-- Between the two corners no weight leaves the unit interval. -/
theorem along_mem_unit (hij : i ≠ j) (h0 : 0 ≤ u) (h1 : u ≤ 1) :
    ∀ l ∈ [(along i j u).first, (along i j u).second, (along i j u).third], 0 ≤ l ∧ l ≤ 1 := by
  have hunit : ∀ k : Fin 3, 0 ≤ ((if k = i then 1 - u else 0) + if k = j then u else 0) ∧
      ((if k = i then 1 - u else 0) + if k = j then u else 0) ≤ 1 := by
    intro k
    by_cases hi : k = i
    · rw [if_pos hi, if_neg (hi ▸ hij)]
      constructor <;> linarith
    · rw [if_neg hi]
      by_cases hj : k = j
      · rw [if_pos hj]
        constructor <;> linarith
      · rw [if_neg hj]
        constructor <;> linarith
  simp only [List.forall_mem_cons]
  exact ⟨hunit 0, hunit 1, hunit 2, by simp⟩

end Weights

namespace Triangle

variable {t t' : Triangle ℝ}

/-- The weights of a point of the line weigh none but the two corners. -/
theorem weights?_along (harea : ¬ Scalar.abs t.det < Scalar.tolerance) :
    t.weights? (t.along i j u) = some (.along i j u) :=
  weights?_eq_some_of harea Weights.sum_along (Weights.blendPoint_along t)

theorem along_eq (h : Corners.Agree i j i' j' t t') : t.along i j u = t'.along i' j' u := by
  rw [along, along, h.first, h.second]

end Triangle

theorem Corners.between_eq {values values' : Corners ℝ} (h : Corners.Agree i j i' j' values values') :
    values.between i j u = values'.between i' j' u := by
  rw [between, between, h.first, h.second]

/-! ## Rows that share an edge -/

variable {β : Type} [StoredPoint β ℝ]

/-- Both rows can be read, and they agree at two corners: in the source positions, in the target positions
and in the offsets, or both store none of these. -/
structure TriangleRow.SharesEdge (i j i' j' : Fin 3) (r r' : TriangleRow β ℝ) : Prop where
  geometry : ∃ t t', r.triangle = .ok t ∧ r'.triangle = .ok t' ∧ Corners.Agree i j i' j' t t'
  target : Option.Rel (Corners.Agree i j i' j') r.target r'.target
  vertical : Option.Rel (fun values values' =>
    Corners.Agree i j i' j' values.offsets values'.offsets) r.vertical r'.vertical

/-- What a row makes of a coordinate above the line through two of its corners: the target position at the
same parameter, and the height with the offset there. -/
noncomputable def TriangleRow.correctAlong (r : TriangleRow β ℝ) (i j : Fin 3) (u : ℝ)
    (c : Coordinate ℝ) : Coordinate ℝ :=
  .ofPosition
    (match r.target with
      | some v => v.along i j u
      | none => c.position)
    (match r.vertical with
      | some values => c.z + values.offsets.between i j u
      | none => c.z)

namespace TriangleRow

variable {r r' : TriangleRow β ℝ} {t : Triangle ℝ} {c : Coordinate ℝ}

theorem SharesEdge.correctAlong_eq (h : r.SharesEdge i j i' j' r') (u : ℝ) (c : Coordinate ℝ) :
    r.correctAlong i j u c = r'.correctAlong i' j' u c := by
  have htarget := h.target
  have hvertical := h.vertical
  unfold correctAlong
  generalize r.target = target at htarget ⊢
  generalize r'.target = target' at htarget ⊢
  generalize r.vertical = vertical at hvertical ⊢
  generalize r'.vertical = vertical' at hvertical ⊢
  refine Coordinate.eq_of_position ?_ ?_
  · cases htarget with
    | none => rfl
    | some hv => exact Triangle.along_eq hv
  · cases hvertical with
    | none => rfl
    | some hvalues => exact congrArg (c.z + ·) (Corners.between_eq hvalues)

/-- A match read off the row at a point of the line corrects it by the two corners alone. -/
theorem Answers.apply_along (ht : r.triangle = .ok t) (hc : c.position = t.along i j u)
    {found : TriangleMatch ℝ} (h : r.Answers .source c.position found) :
    found.apply .forward c = r.correctAlong i j u c := by
  obtain ⟨t', ht', hw, hcorr⟩ := h.of_source
  rw [ht] at ht'
  injection ht' with ht'
  subst ht'
  rw [hc, Triangle.weights?_along (Triangle.not_lt_of_weights? hw)] at hw
  injection hw with hw
  refine Coordinate.eq_of_position ?_ ?_
  · cases htarget : r.target with
    | none =>
      rw [TriangleMatch.apply_position_none (by rw [hcorr, htarget]), correctAlong, htarget]
      rfl
    | some v =>
      rw [TriangleMatch.apply_position_some (v := v) (by rw [hcorr, htarget]), ← hw,
        Weights.blendPoint_along, correctAlong, htarget]
      rfl
  · rw [TriangleMatch.apply_forward_z, TriangleMatch.rise, hcorr, correctAlong]
    cases r.vertical with
    | none => exact add_zero _
    | some values =>
      show c.z + found.weights.blend values.offsets = c.z + values.offsets.between i j u
      rw [← hw, Weights.blend_along]

end TriangleRow

/-- **Corrections are continuous across shared edges.**  Let two triangles agree at two corners, in any
corner order on either side.  At every point of the line through them both have weights, and these weigh
alike all values and all positions that agree at the two corners.  Hence let two rows of a mesh share an
edge, let no other triangle of the mesh contain a point between the two corners, and let the source stream
every row whose box meets the window: whatever the order of the rows and whichever of them is cached, the
transformation forward returns one and the same coordinate. -/
theorem continuous_across_shared_edge {i j i' j' : Fin 3} (hij : i ≠ j) :
    (∀ {t t' : Triangle ℝ}, Corners.Agree i j i' j' t t' →
      ¬ Scalar.abs t.det < Scalar.tolerance → ¬ Scalar.abs t'.det < Scalar.tolerance → ∀ u,
      ∃ w w', t.weights? (t.along i j u) = some w ∧ t'.weights? (t.along i j u) = some w' ∧
        (∀ values values', Corners.Agree i j i' j' values values' → w.blend values = w'.blend values') ∧
        ∀ v v', Corners.Agree i j i' j' v v' → w.blendPoint v = w'.blendPoint v') ∧
    ∀ {m : MeshMetadata ℝ} {rows : List (TriangleRow β ℝ)},
      (∀ r ∈ rows, ∃ t, r.triangle = .ok t) →
      ∀ {r r' : TriangleRow β ℝ}, r ∈ rows → r.SharesEdge i j i' j' r' →
      ∀ {t : Triangle ℝ}, r.triangle = .ok t → ¬ Scalar.abs t.det < Scalar.tolerance →
      ∀ {u : ℝ}, 0 ≤ u → u ≤ 1 → ∀ {c : Coordinate ℝ}, c.position = t.along i j u →
      (∀ q ∈ rows, ∀ v w, q.triangle = .ok v → v.inside? c.position = some w → q = r ∨ q = r') →
      ∀ {s : TriangleSource β ℝ}, s.StreamsMeeting m rows →
      ∀ {cache : Option (CachedTriangle ℝ)}, (∀ k, cache = some k →
        ∃ q ∈ rows, q.Provides (m.searchedSide k.direction) k.vertices k.corrections) →
      (s.transform cache .forward c).answer = .ok (some (r.correctAlong i j u c)) := by
  constructor
  · intro t t' hagree harea harea' u
    refine ⟨.along i j u, .along i' j' u, Triangle.weights?_along harea, ?_, fun values values' h => ?_,
      fun v v' h => ?_⟩
    · rw [Triangle.along_eq hagree]
      exact Triangle.weights?_along harea'
    · rw [Weights.blend_along, Weights.blend_along, Corners.between_eq h]
    · rw [Weights.blendPoint_along, Weights.blendPoint_along, Triangle.along_eq h]
  · intro m rows hdecode r r' hr hedge t ht harea u h0 h1 c hc honly s hs cache hcache
    have hside : m.searchedSide .forward = .source := rfl
    -- the row covers the point
    have hw : t.weights? c.position = some (.along i j u) := hc ▸ Triangle.weights?_along harea
    have hbounds : (m.sideShift .source).Bounds t t := ShiftRange.none_bounds t
    obtain ⟨found, hfound, -, hstage, -⟩ := hs.exists_find_of_covered cache hdecode (d := .forward) hr ht
      (show r.vertices .source = .ok t from ht) hbounds hw (Weights.along_mem_unit hij h0 h1)
    rw [TriangleSource.transform_of_find hfound]
    -- so one of the two rows answers
    obtain ⟨q, hq, v, hhit⟩ := hs.drawsFrom.exists_hits hcache hfound hstage
    rw [hside] at hhit
    obtain rfl | rfl := honly q hq v _ hhit.vertices hhit.inside
    · rw [hhit.answers.apply_along ht hc]
    · obtain ⟨t₀, t', ht₀, ht', hagree⟩ := hedge.geometry
      rw [ht] at ht₀
      injection ht₀ with ht₀
      have hc' : c.position = t'.along i' j' u := by rw [hc, ht₀, Triangle.along_eq hagree]
      rw [hhit.answers.apply_along ht' hc', hedge.correctAlong_eq]

/-! ## The long edge of the wedge -/

section Wedge

/-- The triangle beyond the wedge, with the offsets of the wedge at the long edge; it stores them as pairs
of heights and its corners in another order. -/
def besideWedge : TriangleRow (Point ℝ) ℝ :=
  ⟨beyondCorners, some beyondTarget, some (.paired ⟨0, 1, 0⟩ ⟨0, 0, -1⟩)⟩

theorem wedge_sharesEdge : wedge.SharesEdge 1 2 0 2 besideWedge where
  geometry := ⟨wedgeCorners, beyondCorners, rfl, rfl, rfl, rfl⟩
  target := .some ⟨rfl, rfl⟩
  vertical := by
    refine .some ⟨?_, ?_⟩ <;> norm_num [VerticalValues.offsets, Corners.get, Corners.zip]

theorem wedge_provides (m : MeshMetadata ℝ) : wedge.Provides (m.searchedSide .forward) wedgeCorners
    ⟨some wedgeTarget, wedge.vertical⟩ :=
  ⟨rfl, rfl, Triangle.not_lt_of_weights? wedgeCorners_weights⟩

theorem besideWedge_provides (m : MeshMetadata ℝ) :
    besideWedge.Provides (m.searchedSide .forward) beyondCorners
      ⟨some beyondTarget, besideWedge.vertical⟩ := by
  refine ⟨rfl, rfl, ?_⟩
  rw [Scalar.tolerance_real, Triangle.det_real, Scalar.abs_real]
  norm_num [beyondCorners]

/-- The middle of the long edge goes to the middle of the shifted edge, with either row in front and with
either triangle cached. -/
theorem wedge_continuous_across_shared_edge :
    ((TriangleSource.ofRows wedgeMesh [wedge, besideWedge]).transform none .forward ⟨5, 5, 3⟩).answer =
      .ok (some ⟨7, 13 / 2, 5 / 2⟩) ∧
    ((TriangleSource.ofRows wedgeMesh [besideWedge, wedge]).transform none .forward ⟨5, 5, 3⟩).answer =
      .ok (some ⟨7, 13 / 2, 5 / 2⟩) ∧
    ((TriangleSource.ofRows wedgeMesh [besideWedge, wedge]).transform
      (some ⟨.forward, wedgeCorners, ⟨some wedgeTarget, wedge.vertical⟩⟩) .forward ⟨5, 5, 3⟩).answer =
      .ok (some ⟨7, 13 / 2, 5 / 2⟩) ∧
    ((TriangleSource.ofRows wedgeMesh [wedge, besideWedge]).transform
      (some ⟨.forward, beyondCorners, ⟨some beyondTarget, besideWedge.vertical⟩⟩) .forward
      ⟨5, 5, 3⟩).answer = .ok (some ⟨7, 13 / 2, 5 / 2⟩) := by
  have hc : (⟨5, 5, 3⟩ : Coordinate ℝ).position = wedgeCorners.along 1 2 (1 / 2) := by
    refine Point.eq_of_coordinates ?_ ?_ <;>
      norm_num [Coordinate.position, Triangle.along, Corners.get, wedgeCorners]
  have hvalue : wedge.correctAlong 1 2 (1 / 2) ⟨5, 5, 3⟩ = ⟨7, 13 / 2, 5 / 2⟩ := by
    refine Coordinate.eq_of_position (Point.eq_of_coordinates ?_ ?_) ?_ <;>
      norm_num [TriangleRow.correctAlong, wedge, Triangle.along, Corners.between, Corners.get, wedgeTarget,
        Coordinate.ofPosition, Coordinate.position, VerticalValues.offsets]
  have hmesh : ∀ {rows : List (TriangleRow (Point ℝ) ℝ)} {cache : Option (CachedTriangle ℝ)},
      (∀ q, q ∈ rows ↔ q = wedge ∨ q = besideWedge) →
      (∀ k, cache = some k → ∃ q ∈ rows, q.Provides (wedgeMesh.searchedSide k.direction) k.vertices
        k.corrections) →
      ((TriangleSource.ofRows wedgeMesh rows).transform cache .forward ⟨5, 5, 3⟩).answer =
        .ok (some ⟨7, 13 / 2, 5 / 2⟩) := by
    intro rows cache hmem hcache
    rw [← hvalue]
    refine (continuous_across_shared_edge (by decide)).2 (fun q hq => ?_)
      ((hmem wedge).mpr (Or.inl rfl)) wedge_sharesEdge (t := wedgeCorners) rfl
      (wedge_provides wedgeMesh).area (by norm_num) (by norm_num) hc
      (fun q hq _ _ _ _ => (hmem q).mp hq) (TriangleSource.ofRows_streamsMeeting wedgeMesh rows) hcache
    rcases (hmem q).mp hq with rfl | rfl
    · exact ⟨wedgeCorners, rfl⟩
    · exact ⟨beyondCorners, rfl⟩
  refine ⟨hmesh (by simp) (by simp), hmesh (by simp [or_comm]) (by simp), hmesh (by simp [or_comm]) ?_,
    hmesh (by simp) ?_⟩
  · rintro k ⟨⟩
    exact ⟨wedge, by simp, wedge_provides wedgeMesh⟩
  · rintro k ⟨⟩
    exact ⟨besideWedge, by simp, besideWedge_provides wedgeMesh⟩

end Wedge

end ShiftMesh
