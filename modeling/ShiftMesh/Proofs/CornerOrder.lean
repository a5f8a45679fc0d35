import ShiftMesh.Proofs.Simulation
import ShiftMesh.Proofs.Distance

/-!
# ShiftMesh.Proofs.CornerOrder — reordering the corners of triangles changes no answer

The weights are computed relative to the third corner and the determinant changes its sign with the order
of the corners.  In exact arithmetic none of that can be observed.

* `Corners.permute` and the reorderings of weights, corrections, matches and rows built on it.
* `Corners.permute_induction`: what two reorderings keep, the exchange of two corners and the rotation, all
  six keep; `Corners.permute_invariant` is the case of a symmetric function.
* `Triangle.weights?_permute`: the weights of a point are reordered with the corners.
* `Triangle.permute_alike`: a search observes the same of a triangle and of its reorderings.
* `corner_order_irrelevant`: hence runs on a mesh and on any reordering of its rows look the same.
-/

namespace ShiftMesh

/-! ## Reordered corners -/

namespace Corners

variable {β γ : Type}

/-- The value at the corner of this number. -/
def get (c : Corners β) : Fin 3 → β
  | 0 => c.first
  | 1 => c.second
  | 2 => c.third

/-- The corners with these values. -/
def ofFn (f : Fin 3 → β) : Corners β := ⟨f 0, f 1, f 2⟩

/-- The corners in another order: corner `i` takes the value of corner `σ i`. -/
def permute (σ : Equiv.Perm (Fin 3)) (c : Corners β) : Corners β := ofFn fun i => c.get (σ i)

@[simp] theorem get_ofFn (f : Fin 3 → β) : ∀ i, (ofFn f).get i = f i
  | 0 => rfl
  | 1 => rfl
  | 2 => rfl

theorem get_permute (σ : Equiv.Perm (Fin 3)) (c : Corners β) (i : Fin 3) :
    (c.permute σ).get i = c.get (σ i) :=
  get_ofFn _ i

@[simp] theorem get_map (f : β → γ) (c : Corners β) : ∀ i, (c.map f).get i = f (c.get i)
  | 0 => rfl
  | 1 => rfl
  | 2 => rfl

@[simp] theorem get_zip (f : β → β → γ) (c d : Corners β) :
    ∀ i, (c.zip f d).get i = f (c.get i) (d.get i)
  | 0 => rfl
  | 1 => rfl
  | 2 => rfl

theorem map_permute (σ : Equiv.Perm (Fin 3)) (f : β → γ) (c : Corners β) :
    (c.permute σ).map f = (c.map f).permute σ :=
  congr (congrArg₂ Corners.mk (get_map f c _).symm (get_map f c _).symm) (get_map f c _).symm

theorem zip_permute (σ : Equiv.Perm (Fin 3)) (f : β → β → γ) (c d : Corners β) :
    (c.permute σ).zip f (d.permute σ) = (c.zip f d).permute σ :=
  congr (congrArg₂ Corners.mk (get_zip f c d _).symm (get_zip f c d _).symm) (get_zip f c d _).symm

/-- The six orders of three corners. -/
theorem perm_cases : ∀ σ : Equiv.Perm (Fin 3), (σ 0, σ 1, σ 2) ∈
    [(0, 1, 2), (1, 0, 2), (1, 2, 0), (2, 1, 0), (2, 0, 1), (0, 2, 1)] := by
  decide

/-- The exchange of the first two corners and the rotation generate all reorderings. -/
theorem permute_induction {Q : Corners β → Prop} (hswap : ∀ a b c, Q ⟨a, b, c⟩ → Q ⟨b, a, c⟩)
    (hrotate : ∀ a b c, Q ⟨a, b, c⟩ → Q ⟨b, c, a⟩) {c : Corners β} (h : Q c)
    (σ : Equiv.Perm (Fin 3)) : Q (c.permute σ) := by
  have hrotated := hrotate _ _ _ h
  have horder := perm_cases σ
  simp only [List.mem_cons, Prod.mk.injEq, List.not_mem_nil, or_false] at horder
  rcases horder with ⟨h0, h1, h2⟩ | ⟨h0, h1, h2⟩ | ⟨h0, h1, h2⟩ | ⟨h0, h1, h2⟩ | ⟨h0, h1, h2⟩ |
    ⟨h0, h1, h2⟩ <;> simp only [permute, ofFn, h0, h1, h2, get]
  · exact h
  · exact hswap _ _ _ h
  · exact hrotated
  · exact hswap _ _ _ hrotated
  · exact hrotate _ _ _ hrotated
  · exact hswap _ _ _ (hrotate _ _ _ hrotated)

/-- A function that neither the exchange nor the rotation changes is symmetric. -/
theorem permute_invariant {f : Corners β → γ} (hswap : ∀ a b c, f ⟨b, a, c⟩ = f ⟨a, b, c⟩)
    (hrotate : ∀ a b c, f ⟨b, c, a⟩ = f ⟨a, b, c⟩) (σ : Equiv.Perm (Fin 3)) (c : Corners β) :
    f (c.permute σ) = f c :=
  permute_induction (Q := fun c' => f c' = f c) (fun a b c h => (hswap a b c).trans h)
    (fun a b c h => (hrotate a b c).trans h) rfl σ

theorem mapM?_eq_ok {ε : Type} {f : β → Except ε γ} {c : Corners β} {t : Corners γ} :
    c.mapM? f = .ok t ↔ ∀ i, f (c.get i) = .ok (t.get i) := by
  constructor
  · intro h
    unfold mapM? at h
    cases h0 : f c.first with
    | error e => rw [h0] at h; cases h
    | ok a =>
      cases h1 : f c.second with
      | error e => rw [h0, h1] at h; cases h
      | ok b =>
        cases h2 : f c.third with
        | error e => rw [h0, h1, h2] at h; cases h
        | ok d =>
          rw [h0, h1, h2] at h
          injection h with h
          subst h
          intro i
          match i with
          | 0 => exact h0
          | 1 => exact h1
          | 2 => exact h2
  · intro h
    have h0 : f c.first = .ok t.first := h 0
    have h1 : f c.second = .ok t.second := h 1
    have h2 : f c.third = .ok t.third := h 2
    simp only [mapM?, h0, h1, h2]

end Corners

/-- The weights as values at the corners. -/
def Weights.corners {α : Type} (w : Weights α) : Corners α := ⟨w.first, w.second, w.third⟩

def Weights.ofCorners {α : Type} (c : Corners α) : Weights α := ⟨c.first, c.second, c.third⟩

/-- The weights of the reordered corners. -/
def Weights.permute {α : Type} (σ : Equiv.Perm (Fin 3)) (w : Weights α) : Weights α :=
  .ofCorners (w.corners.permute σ)

def VerticalValues.permute {α : Type} (σ : Equiv.Perm (Fin 3)) : VerticalValues α → VerticalValues α
  | offset values => offset (values.permute σ)
  | paired source target => paired (source.permute σ) (target.permute σ)

def CorrectionSet.permute {α : Type} (σ : Equiv.Perm (Fin 3)) (c : CorrectionSet α) :
    CorrectionSet α :=
  ⟨c.horizontal.map (Corners.permute σ), c.vertical.map (VerticalValues.permute σ)⟩

def TriangleMatch.permute {α : Type} (σ : Equiv.Perm (Fin 3)) (found : TriangleMatch α) :
    TriangleMatch α :=
  ⟨found.weights.permute σ, found.corrections.permute σ⟩

/-- The row with its corners in another order, together with all that it stores for them. -/
def TriangleRow.permute {β α : Type} (σ : Equiv.Perm (Fin 3)) (r : TriangleRow β α) :
    TriangleRow β α :=
  ⟨r.geometry.permute σ, r.target.map (Corners.permute σ), r.vertical.map (VerticalValues.permute σ)⟩

/-! ## Weights and weighted sums -/

section Plane

variable (σ : Equiv.Perm (Fin 3))

namespace Weights

theorem isInside_permute (w : Weights ℝ) : (w.permute σ).isInside = w.isInside := by
  refine Corners.permute_invariant (f := fun c => isInside (ofCorners c)) (fun a b c => ?_)
    (fun a b c => ?_) σ w.corners
  · simp only [isInside, ofCorners, Bool.and_comm (admits b)]
  · simp only [isInside, ofCorners, Bool.and_assoc, Bool.and_comm (admits a)]

noncomputable def total (values : Corners ℝ) : ℝ := values.first + values.second + values.third

theorem total_permute (values : Corners ℝ) : total (values.permute σ) = total values := by
  refine Corners.permute_invariant (f := total) (fun a b c => ?_) (fun a b c => ?_) σ values
  · simp only [total]
    ring
  · simp only [total]
    ring

theorem blend_permute (w : Weights ℝ) (values : Corners ℝ) :
    (w.permute σ).blend (values.permute σ) = w.blend values := by
  have hblend : ∀ (w : Weights ℝ) values, w.blend values = total (w.corners.zip (· * ·) values) :=
    fun _ _ => rfl
  calc (w.permute σ).blend (values.permute σ)
      = total ((w.corners.permute σ).zip (· * ·) (values.permute σ)) := hblend _ _
    _ = total ((w.corners.zip (· * ·) values).permute σ) := by rw [Corners.zip_permute]
    _ = w.blend values := by rw [total_permute, hblend]

theorem blendPoint_permute (w : Weights ℝ) (v : Triangle ℝ) :
    (w.permute σ).blendPoint (v.permute σ) = w.blendPoint v := by
  refine Point.eq_of_coordinates ?_ ?_
  · rw [blendPoint_x, blendPoint_x, Corners.map_permute, blend_permute]
  · rw [blendPoint_y, blendPoint_y, Corners.map_permute, blend_permute]

end Weights

/-! ## Triangles -/

theorem Point.sqDistance_comm (p q : Point ℝ) : p.sqDistance q = q.sqDistance p := by
  rw [sqDistance_real, sqDistance_real]
  ring

theorem Point.eq_of_sqDistance_eq_zero {p q : Point ℝ} (h : p.sqDistance q = 0) : p = q := by
  rw [sqDistance_real] at h
  have hx := sq_nonneg (p.x - q.x)
  have hy := sq_nonneg (p.y - q.y)
  exact eq_of_coordinates (sub_eq_zero.mp (pow_eq_zero_iff two_ne_zero |>.mp (by linarith)))
    (sub_eq_zero.mp (pow_eq_zero_iff two_ne_zero |>.mp (by linarith)))

namespace Triangle

theorem abs_det_permute (v : Triangle ℝ) : |det (v.permute σ)| = |det v| := by
  refine Corners.permute_invariant (f := fun v => |det v|) (fun a b c => ?_) (fun a b c => ?_) σ v
  · -- the exchange of two corners changes the sign
    rw [← abs_neg, det_real, det_real]
    congr 1
    ring
  · rw [det_real, det_real]
    congr 1
    ring

/-- The weights of a point are reordered with the corners. -/
theorem weights?_permute (v : Triangle ℝ) (p : Point ℝ) :
    weights? (v.permute σ) p = (weights? v p).map (Weights.permute σ) := by
  have harea := abs_det_permute σ v
  by_cases hv : |det v| < Scalar.tolerance
  · rw [weights?, weights?, Scalar.abs_real, Scalar.abs_real, harea, if_pos hv, if_pos hv]
    rfl
  · obtain ⟨w, hw⟩ : ∃ w, weights? v p = some w :=
      ⟨_, by rw [weights?, Scalar.abs_real, if_neg hv]⟩
    rw [hw]
    refine weights?_eq_some_of (by rwa [Scalar.abs_real, harea]) ?_ ?_
    · exact (Weights.total_permute σ w.corners).trans (sum_of_weights? hw)
    · rw [Weights.blendPoint_permute, blendPoint_of_weights? hw]

theorem inside?_permute (v : Triangle ℝ) (p : Point ℝ) :
    inside? (v.permute σ) p = (inside? v p).map (Weights.permute σ) := by
  rw [inside?, inside?, weights?_permute]
  cases weights? v p with
  | none => rfl
  | some w =>
    rw [Option.map_some, Option.filter_some, Option.filter_some, Weights.isInside_permute]
    by_cases hin : w.isInside = true
    · rw [if_pos hin, if_pos hin, Option.map_some]
    · rw [if_neg hin, if_neg hin, Option.map_none]

theorem hasShortEdge_iff {v : Triangle ℝ} : hasShortEdge v = true ↔
    v.first.sqDistance v.second < Scalar.tolerance ∨ v.second.sqDistance v.third < Scalar.tolerance ∨
      v.first.sqDistance v.third < Scalar.tolerance := by
  simp [hasShortEdge, sqEdgeLengths, Corners.toList]

theorem isDegenerate_permute (v : Triangle ℝ) : isDegenerate (v.permute σ) = isDegenerate v := by
  have hshort : hasShortEdge (v.permute σ) = hasShortEdge v := by
    refine Corners.permute_invariant (f := hasShortEdge) (fun a b c => ?_) (fun a b c => ?_) σ v
    · rw [Bool.eq_iff_iff, hasShortEdge_iff, hasShortEdge_iff, Point.sqDistance_comm b a,
        or_comm (a := a.sqDistance c < _)]
    · rw [Bool.eq_iff_iff, hasShortEdge_iff, hasShortEdge_iff, Point.sqDistance_comm c a,
        Point.sqDistance_comm b a]
      tauto
  rw [isDegenerate, isDegenerate, hshort, weights?_permute, Option.isNone_map, weights?, weights?]
  by_cases hv : Scalar.abs (det v) < Scalar.tolerance
  · rw [if_pos hv, if_pos hv]
  · rw [if_neg hv, if_neg hv]
    rfl

/-- The distance to an edge does not depend on the end from which it is walked. -/
theorem sqDistanceToSegment_comm (p a b : Point ℝ) :
    sqDistanceToSegment p b a (b.sqDistance a) = sqDistanceToSegment p a b (a.sqDistance b) := by
  rw [b.sqDistance_comm a]
  by_cases hlength : a.sqDistance b = 0
  · rw [Point.eq_of_sqDistance_eq_zero hlength]
  · -- the two parameters along the edge sum to one
    have hparameter : (p - b).dot (a - b) / a.sqDistance b =
        1 - (p - a).dot (b - a) / a.sqDistance b := by
      rw [eq_sub_iff_add_eq, ← add_div, div_eq_one_iff_eq hlength]
      simp only [Point.dot_real, Point.sqDistance_real, Point.sub_x, Point.sub_y]
      ring
    simp only [sqDistanceToSegment, hparameter, Scalar.ofNat_real, Nat.cast_zero, Nat.cast_one]
    generalize (p - a).dot (b - a) / a.sqDistance b = t
    have hmiddle : b + (a - b).scale (1 - t) = a + (b - a).scale t := by
      refine Point.eq_of_coordinates ?_ ?_
      · simp only [Point.add_x, Point.scale_x, Point.sub_x]
        ring
      · simp only [Point.add_y, Point.scale_y, Point.sub_y]
        ring
    rw [hmiddle]
    by_cases h0 : t ≤ 0
    · rw [if_neg (by linarith), if_pos (by linarith), if_pos h0]
    · by_cases h1 : 1 ≤ t
      · rw [if_pos (by linarith), if_neg h0, if_pos h1]
      · rw [if_neg (by linarith), if_neg (by linarith), if_neg h0, if_neg h1]

theorem sqDistanceToEdges_permute (v : Triangle ℝ) (p : Point ℝ) :
    sqDistanceToEdges (v.permute σ) p = sqDistanceToEdges v p := by
  refine Corners.permute_invariant (f := fun v => sqDistanceToEdges v p) (fun a b c => ?_)
    (fun a b c => ?_) σ v
  · simp only [sqDistanceToEdges, sqEdgeLengths, Scalar.lesser_real]
    rw [sqDistanceToSegment_comm p a b, min_right_comm]
  · simp only [sqDistanceToEdges, sqEdgeLengths, Scalar.lesser_real]
    rw [sqDistanceToSegment_comm p a c, sqDistanceToSegment_comm p a b, min_right_comm,
      min_comm (sqDistanceToSegment p b c _)]

theorem centroid_permute (v : Triangle ℝ) : centroid (v.permute σ) = centroid v := by
  refine Corners.permute_invariant (f := centroid) (fun a b c => ?_) (fun a b c => ?_) σ v <;>
    refine Point.eq_of_coordinates ?_ ?_ <;>
    simp only [centroid, Point.divide_x, Point.divide_y, Point.add_x, Point.add_y] <;> ring

theorem boxMin_permute (v : Triangle ℝ) : boxMin (v.permute σ) = boxMin v := by
  refine Corners.permute_invariant (f := boxMin) (fun a b c => ?_) (fun a b c => ?_) σ v <;>
    refine Point.eq_of_coordinates ?_ ?_ <;>
    simp only [boxMin, Point.lower_x, Point.lower_y, min_comm, min_left_comm]

theorem boxMax_permute (v : Triangle ℝ) : boxMax (v.permute σ) = boxMax v := by
  refine Corners.permute_invariant (f := boxMax) (fun a b c => ?_) (fun a b c => ?_) σ v <;>
    refine Point.eq_of_coordinates ?_ ?_ <;>
    simp only [boxMax, Point.upper_x, Point.upper_y, max_comm, max_left_comm]

/-- A search observes the same of a triangle and of its reorderings. -/
theorem permute_alike (v : Triangle ℝ) : Alike v (v.permute σ) where
  weights p := by rw [weights?_permute, Option.isSome_map]
  inside p := by rw [inside?_permute, Option.isSome_map]
  degenerate := (isDegenerate_permute σ v).symm
  box p distance := by simp only [boxWithin, boxMin_permute, boxMax_permute]
  sqDistance strategy p := by
    cases strategy with
    | none => exact (sqDistanceToEdges_permute σ v p).symm
    | nearestSide => exact (sqDistanceToEdges_permute σ v p).symm
    | nearestCentroid => exact congrArg p.sqDistance (centroid_permute σ v).symm

end Triangle

end Plane

/-! ## Rows -/

theorem VerticalValues.offsets_permute (σ : Equiv.Perm (Fin 3)) (values : VerticalValues ℝ) :
    (values.permute σ).offsets = values.offsets.permute σ := by
  cases values with
  | offset values => rfl
  | paired source target => exact Corners.zip_permute σ _ target source

/-- A reordered match does the same to every coordinate. -/
theorem TriangleMatch.apply_permute (σ : Equiv.Perm (Fin 3)) (found : TriangleMatch ℝ) (d : Direction)
    (c : Coordinate ℝ) : (found.permute σ).apply d c = found.apply d c := by
  obtain ⟨w, horizontal, vertical⟩ := found
  have hposition : ∀ v : Triangle ℝ, (w.permute σ).blendPoint (v.permute σ) = w.blendPoint v :=
    w.blendPoint_permute σ
  have hrise : ∀ values : VerticalValues ℝ,
      (w.permute σ).blend (values.permute σ).offsets = w.blend values.offsets := by
    intro values
    rw [values.offsets_permute, w.blend_permute]
  cases horizontal <;> cases vertical <;>
    simp only [apply, permute, CorrectionSet.permute, Option.map_some, Option.map_none, hposition, hrise]

namespace TriangleRow

variable {β : Type} [StoredPoint β ℝ] {r : TriangleRow β ℝ} {side : Side} {t v : Triangle ℝ}
  {c : CorrectionSet ℝ} (σ : Equiv.Perm (Fin 3))

theorem triangle_permute (h : r.triangle = .ok t) : (r.permute σ).triangle = .ok (t.permute σ) := by
  have hcorners := Corners.mapM?_eq_ok.mp h
  refine Corners.mapM?_eq_ok.mpr fun i => ?_
  show StoredPoint.decode ((r.geometry.permute σ).get i) = _
  rw [Corners.get_permute, Corners.get_permute]
  exact hcorners (σ i)

theorem vertices_permute (h : r.vertices side = .ok v) :
    (r.permute σ).vertices side = .ok (v.permute σ) := by
  cases side with
  | source => exact triangle_permute σ h
  | target =>
    cases htarget : r.target with
    | none =>
      have htriangle : r.triangle = .ok v := by simpa only [vertices, htarget] using h
      simpa only [vertices, permute, htarget, Option.map_none] using triangle_permute σ htriangle
    | some t =>
      rw [vertices_target htarget] at h
      injection h with h
      rw [← h]
      exact vertices_target (by rw [permute, htarget, Option.map_some])

theorem corrections_permute (hdecode : r.triangle = .ok t) (h : r.corrections side = .ok c) :
    (r.permute σ).corrections side = .ok (c.permute σ) := by
  cases htarget : r.target with
  | none =>
    simp only [corrections, permute, htarget, Option.map_none] at h ⊢
    injection h with h
    rw [← h]
    rfl
  | some v =>
    have htarget' : (r.permute σ).target = some (v.permute σ) := by
      rw [permute, htarget, Option.map_some]
    cases side with
    | source =>
      rw [corrections_source] at h ⊢
      injection h with h
      rw [← h]
      rfl
    | target =>
      rw [corrections_target hdecode htarget] at h
      injection h with h
      rw [corrections_target (triangle_permute σ hdecode) htarget', ← h]
      rfl

theorem meets_permute (hdecode : r.triangle = .ok t) (w : Window ℝ) :
    (r.permute σ).meets w = r.meets w := by
  rw [meets_eq (triangle_permute σ hdecode), meets_eq hdecode, Window.meetsTriangle,
    Window.meetsTriangle, Triangle.boxMin_permute, Triangle.boxMax_permute]

theorem permute_alike (hdecode : r.triangle = .ok t) (side : Side) : r.Alike side (r.permute σ) := by
  obtain ⟨v, hv⟩ := exists_vertices hdecode side
  obtain ⟨c, hc⟩ := exists_corrections hdecode side
  refine ⟨?_, ?_⟩
  · rw [hv, vertices_permute σ hv]
    exact .ok (v.permute_alike σ)
  · rw [hc, corrections_permute σ hdecode hc]
    exact .ok trivial

/-- A match read off a reordered row is the match read off the row, reordered. -/
theorem Answers.eq_permute (hdecode : r.triangle = .ok t) {p : Point ℝ} {found found' : TriangleMatch ℝ}
    (h : r.Answers side p found) (h' : (r.permute σ).Answers side p found') :
    found' = found.permute σ := by
  obtain ⟨v, hv, hw, hc⟩ := h
  obtain ⟨v', hv', hw', hc'⟩ := h'
  rw [vertices_permute σ hv] at hv'
  injection hv' with hv'
  rw [← hv', Triangle.weights?_permute, hw, Option.map_some] at hw'
  rw [corrections_permute σ hdecode hc] at hc'
  injection hw' with hw'
  injection hc' with hc'
  cases found'
  exact (TriangleMatch.mk.injEq ..).mpr ⟨hw'.symm, hc'.symm⟩

end TriangleRow

/-! ## Runs -/

section Runs

variable {β : Type} [StoredPoint β ℝ]

/-- A row and the reordering chosen for it. -/
def Reordered (choices : List (Equiv.Perm (Fin 3) × TriangleRow β ℝ)) (r r' : TriangleRow β ℝ) : Prop :=
  ∃ x ∈ choices, r = x.2 ∧ r' = x.2.permute x.1

theorem Reordered.paired (m : MeshMetadata ℝ) {choices : List (Equiv.Perm (Fin 3) × TriangleRow β ℝ)}
    (hdecode : ∀ x ∈ choices, ∃ t, x.2.triangle = .ok t) :
    TriangleSource.Paired (Reordered choices) (.ofRows m (choices.map Prod.snd))
      (.ofRows m (choices.map fun x => x.2.permute x.1)) := by
  refine TriangleSource.ofRows_paired (.refl m) ?_ ?_ ?_
  · rw [List.forall₂_map_left_iff, List.forall₂_map_right_iff]
    exact List.forall₂_same.mpr fun x hx => ⟨x, hx, rfl, rfl⟩
  · rintro r r' ⟨x, hx, rfl, rfl⟩ w
    obtain ⟨t, ht⟩ := hdecode x hx
    exact (TriangleRow.meets_permute x.1 ht w).symm
  · rintro r r' ⟨x, hx, rfl, rfl⟩ side
    obtain ⟨t, ht⟩ := hdecode x hx
    exact TriangleRow.permute_alike x.1 ht side

/-- Two lookups that end at the same stage after the same queries, where the second one answers with the
reordered match of the first one. -/
structure Lookup.ReorderedBy (choices : List (Equiv.Perm (Fin 3) × TriangleRow β ℝ)) (side : Side)
    (p : Point ℝ) (lookup lookup' : Lookup ℝ) : Prop where
  answer : SameOutcome (Option.Rel fun found found' =>
    ∃ x ∈ choices, x.2.Answers side p found ∧ found' = found.permute x.1) lookup.answer lookup'.answer
  stage : lookup.stage = lookup'.stage
  queries : lookup.queries = lookup'.queries

/-- **The order of corners is irrelevant.**  Choose a reordering for each row of a mesh whose rows can be
read.  Every run of transformations on the mesh and on the reordered one returns the same results at the
same stages after the same queries, whatever the fallback strategy.  Every lookup on the reordered mesh
answers with the match of the other mesh, reordered as it was chosen for the row that the match is read
off. -/
theorem corner_order_irrelevant (m : MeshMetadata ℝ)
    {choices : List (Equiv.Perm (Fin 3) × TriangleRow β ℝ)}
    (hdecode : ∀ x ∈ choices, ∃ t, x.2.triangle = .ok t) :
    (∀ calls : List (Direction × Coordinate ℝ),
      ((TriangleSource.ofRows m (choices.map Prod.snd)).transformAll none calls).map Evaluation.seen =
        ((TriangleSource.ofRows m (choices.map fun x => x.2.permute x.1)).transformAll none
          calls).map Evaluation.seen) ∧
    ∀ calls : List (Point ℝ × Direction),
      List.Forall₂ (fun x lookup' =>
          Lookup.ReorderedBy choices (m.searchedSide x.1.2) x.1.1 x.2 lookup')
        (calls.zip ((TriangleSource.ofRows m (choices.map Prod.snd)).findAll none calls))
        ((TriangleSource.ofRows m (choices.map fun x => x.2.permute x.1)).findAll none calls) := by
  have hpaired := Reordered.paired m hdecode
  -- matches of paired rows are reorderings of each other
  have hmatch : ∀ side p found found', TriangleMatch.Paired (Reordered choices) side p found found' →
      ∃ x ∈ choices, x.2.Answers side p found ∧ found' = found.permute x.1 := by
    rintro side p found found' ⟨r, r', ⟨x, hx, rfl, rfl⟩, hanswers, hanswers'⟩
    obtain ⟨t, ht⟩ := hdecode x hx
    exact ⟨x, hx, hanswers, hanswers.eq_permute x.1 ht hanswers'⟩
  refine ⟨hpaired.transformAll_seen fun d c found found' h => ?_, fun calls => ?_⟩
  · obtain ⟨x, -, -, rfl⟩ := hmatch _ _ _ _ h
    exact (found.apply_permute x.1 d c).symm
  · refine (hpaired.findAll calls .none).imp fun x lookup' h => ⟨?_, h.stage, h.queries⟩
    have hanswer := h.answer
    generalize x.2.answer = answer at hanswer ⊢
    generalize lookup'.answer = answer' at hanswer ⊢
    cases hanswer with
    | error e => exact .error e
    | ok hfound =>
      cases hfound with
      | none => exact .ok .none
      | some h => exact .ok (.some (hmatch _ _ _ _ h))

end Runs

/-! ## The wedge, walked the other way round -/

section Wedge

/-- The mesh of the wedge with its first and its last corner exchanged. -/
noncomputable def turnedStore : TriangleSource (Point ℝ) ℝ :=
  .ofRows wedgeMesh [wedge.permute (Equiv.swap 0 2)]

/-- The point of the wedge goes to the same place, with the weights exchanged. -/
theorem turnedStore_transform :
    (turnedStore.transform none .forward ⟨1, 1, 5⟩).answer = .ok (some ⟨11 / 5, 29 / 10, 57 / 10⟩) ∧
    ∃ found, (turnedStore.find none ⟨1, 1⟩ .forward).answer = .ok (some found) ∧
      found.weights = ⟨1 / 10, 1 / 10, 4 / 5⟩ := by
  have hdecode : ∀ x ∈ [(Equiv.swap (0 : Fin 3) 2, wedge)], ∃ t, x.2.triangle = .ok t :=
    List.forall_mem_singleton.mpr ⟨wedgeCorners, rfl⟩
  obtain ⟨hruns, hlookups⟩ := corner_order_irrelevant wedgeMesh hdecode
  constructor
  · have hseen : [(wedgeStore.transform none .forward ⟨1, 1, 5⟩).seen] =
        [(turnedStore.transform none .forward ⟨1, 1, 5⟩).seen] := hruns [(.forward, ⟨1, 1, 5⟩)]
    injection hseen with hseen
    rw [← wedge_transform_forward]
    exact (congrArg Prod.fst hseen).symm
  · obtain ⟨⟩ | ⟨hlookup, -⟩ := hlookups [(⟨1, 1⟩, .forward)]
    rcases hlookup.answer.dest with ⟨found, found', hfound, hfound', hrel⟩ | ⟨e, he, -⟩
    · have hwedge : (wedgeStore.find none ⟨1, 1⟩ .forward).answer = .ok found := hfound
      rw [wedgeStore_find_forward] at hwedge
      injection hwedge with hwedge
      rw [← hwedge] at hrel
      cases hrel with
      | some hreordered =>
        obtain ⟨x, hx, -, rfl⟩ := hreordered
        refine ⟨_, hfound', ?_⟩
        rw [List.mem_singleton.mp hx]
        rfl
    · have hwedge : (wedgeStore.find none ⟨1, 1⟩ .forward).answer = .error e := he
      rw [wedgeStore_find_forward] at hwedge
      cases hwedge

end Wedge

end ShiftMesh
