import ShiftMesh.Proofs.Evaluation

/-!
# ShiftMesh.Proofs.Affine — meshes whose corrections sample affine maps

* `PlaneMap`, `HeightMap`: affine maps of the plane and affine height functions, by their coefficients.
* `PlaneMap.apply_blendPoint`, `HeightMap.apply_blendPoint`: both commute with weighted sums whose
  weights sum to one; no weight need be positive.
* `PlaneMap.det_map`: a map scales the determinant of every triangle by its own.
* `AffineMesh`: target corners and height offsets are those of the two maps at the source corners.
* `affine_corrections_reproduced`: then every transformation that answers applies the maps themselves,
  whichever triangle answers and by whichever search.
-/

namespace ShiftMesh

/-! ## Affine maps -/

/-- An affine map of the plane: the image of the origin and the images of the two unit steps. -/
structure PlaneMap where
  origin : Point ℝ
  alongX : Point ℝ
  alongY : Point ℝ

namespace PlaneMap

variable (A : PlaneMap)

/-- The image of a point. -/
noncomputable def apply (p : Point ℝ) : Point ℝ :=
  A.origin + A.alongX.scale p.x + A.alongY.scale p.y

/-- The factor by which the map scales areas. -/
noncomputable def det : ℝ := A.alongX.x * A.alongY.y - A.alongY.x * A.alongX.y

theorem apply_x (p : Point ℝ) :
    (A.apply p).x = A.origin.x + A.alongX.x * p.x + A.alongY.x * p.y := rfl

theorem apply_y (p : Point ℝ) :
    (A.apply p).y = A.origin.y + A.alongX.y * p.x + A.alongY.y * p.y := rfl

/-- The map commutes with weighted sums whose weights sum to one. -/
theorem apply_blendPoint {w : Weights ℝ} (hsum : w.first + w.second + w.third = 1) (v : Triangle ℝ) :
    A.apply (w.blendPoint v) = w.blendPoint (v.map A.apply) := by
  have hone : w.third = 1 - w.first - w.second := by linarith
  refine Point.eq_of_coordinates ?_ ?_
  · simp only [apply_x, Weights.blendPoint_x, Weights.blendPoint_y, Weights.blend_real, Corners.map, hone]
    ring
  · simp only [apply_y, Weights.blendPoint_x, Weights.blendPoint_y, Weights.blend_real, Corners.map, hone]
    ring

theorem det_map (v : Triangle ℝ) : Triangle.det (v.map A.apply) = A.det * v.det := by
  simp only [Triangle.det_real, Corners.map, apply_x, apply_y, det]
  ring

/-- A map that does not collapse the plane is injective. -/
theorem apply_injective (h : A.det ≠ 0) : Function.Injective A.apply := by
  intro p q hpq
  have hx := congrArg Point.x hpq
  have hy := congrArg Point.y hpq
  rw [apply_x, apply_x] at hx
  rw [apply_y, apply_y] at hy
  -- Cramer's rule for the difference of the two points
  have hdx : A.det * (p.x - q.x) = 0 := by
    rw [det]
    linear_combination A.alongY.y * hx - A.alongY.x * hy
  have hdy : A.det * (p.y - q.y) = 0 := by
    rw [det]
    linear_combination A.alongX.x * hy - A.alongX.y * hx
  exact Point.eq_of_coordinates (sub_eq_zero.mp ((mul_eq_zero_iff_left h).mp hdx))
    (sub_eq_zero.mp ((mul_eq_zero_iff_left h).mp hdy))

end PlaneMap

/-- An affine height function: its value at the origin and its change along the two unit steps. -/
structure HeightMap where
  origin : ℝ
  alongX : ℝ
  alongY : ℝ

namespace HeightMap

variable (h : HeightMap)

/-- The height at a point. -/
noncomputable def apply (p : Point ℝ) : ℝ := h.origin + h.alongX * p.x + h.alongY * p.y

/-- The function commutes with weighted sums whose weights sum to one. -/
theorem apply_blendPoint {w : Weights ℝ} (hsum : w.first + w.second + w.third = 1) (v : Triangle ℝ) :
    h.apply (w.blendPoint v) = w.blend (v.map h.apply) := by
  have hone : w.third = 1 - w.first - w.second := by linarith
  simp only [apply, Weights.blendPoint_x, Weights.blendPoint_y, Weights.blend_real, Corners.map, hone]
  ring

end HeightMap

/-! ## Rows and meshes that sample affine maps -/

variable {β : Type} [StoredPoint β ℝ] {A : PlaneMap} {h : HeightMap}

/-- The corrections of a row are those of a map of the plane and a height function at its source
corners.  A row without target corners moves nothing, and one without heights lifts nothing. -/
structure TriangleRow.Samples (r : TriangleRow β ℝ) (A : PlaneMap) (h : HeightMap) : Prop where
  target : ∀ t v, r.triangle = .ok t → r.target = some v → v = t.map A.apply
  unmoved : r.target = none → ∀ p, A.apply p = p
  offsets : ∀ t values, r.triangle = .ok t → r.vertical = some values →
    values.offsets = t.map h.apply
  level : r.vertical = none → ∀ p, h.apply p = 0

/-- Every row of the mesh samples the same two maps; rows have target corners only on a mesh with
horizontal corrections. -/
structure AffineMesh (m : MeshMetadata ℝ) (rows : List (TriangleRow β ℝ)) (A : PlaneMap)
    (h : HeightMap) : Prop where
  samples : ∀ r ∈ rows, r.Samples A h
  flat : m.horizontal = false → ∀ r ∈ rows, r.target = none

namespace TriangleRow.Samples

variable {r : TriangleRow β ℝ} {found : TriangleMatch ℝ}

/-- The weighted height correction of a match is the height function at the weighted source corners. -/
theorem rise_eq (hr : r.Samples A h) {t : Triangle ℝ} (ht : r.triangle = .ok t)
    (hvertical : found.corrections.vertical = r.vertical)
    (hsum : found.weights.first + found.weights.second + found.weights.third = 1) :
    found.rise = h.apply (found.weights.blendPoint t) := by
  rw [TriangleMatch.rise, hvertical]
  cases hvalues : r.vertical with
  | none => exact (hr.level hvalues _).symm
  | some values =>
    show found.weights.blend values.offsets = _
    rw [hr.offsets t values ht hvalues, h.apply_blendPoint hsum]

/-- Going forward, a match that is read off the row applies both maps. -/
theorem apply_forward (hr : r.Samples A h) {c : Coordinate ℝ}
    (hfound : r.Answers .source c.position found) :
    found.apply .forward c = .ofPosition (A.apply c.position) (c.z + h.apply c.position) := by
  obtain ⟨t, ht, hw, hcorr⟩ := hfound.of_source
  have hsum := Triangle.sum_of_weights? hw
  have hblend := Triangle.blendPoint_of_weights? hw
  refine Coordinate.eq_of_position ?_ ?_
  · show (found.apply .forward c).position = A.apply c.position
    cases htarget : r.target with
    | none =>
      rw [TriangleMatch.apply_position_none (by rw [hcorr, htarget]), hr.unmoved htarget]
    | some v =>
      rw [TriangleMatch.apply_position_some (v := v) (by rw [hcorr, htarget]),
        hr.target t v ht htarget, ← A.apply_blendPoint hsum, hblend]
  · rw [TriangleMatch.apply_forward_z, hr.rise_eq ht (by rw [hcorr]) hsum, hblend]
    rfl

/-- Going back, a match that is read off the row finds the only point that the map takes to the
position, and subtracts the height there. -/
theorem apply_inverse (hr : r.Samples A h) {side : Side} (hside : r.target = none ∨ side = .target)
    {c : Coordinate ℝ} (hfound : r.Answers side c.position found) :
    ∃ x, A.apply x = c.position ∧ Function.Injective A.apply ∧
      found.apply .inverse c = .ofPosition x (c.z - h.apply x) := by
  cases htarget : r.target with
  | none =>
    obtain ⟨t, ht, hw, hcorr⟩ := (hfound.of_untargeted htarget).of_source
    have hid := hr.unmoved htarget
    refine ⟨c.position, hid _, fun p q hpq => by rwa [hid, hid] at hpq, ?_⟩
    refine Coordinate.eq_of_position ?_ ?_
    · exact TriangleMatch.apply_position_none (by rw [hcorr, htarget]) _ _
    · rw [TriangleMatch.apply_inverse_z, hr.rise_eq ht (by rw [hcorr]) (Triangle.sum_of_weights? hw),
        Triangle.blendPoint_of_weights? hw]
      rfl
  | some v =>
    rw [htarget, or_iff_right (by simp)] at hside
    subst hside
    obtain ⟨hw, t, ht, hcorr⟩ := hfound.of_target htarget
    have hsum := Triangle.sum_of_weights? hw
    have hv := hr.target t v ht htarget
    -- the target corners span an area, so the map does not collapse the plane
    have hdet : A.det ≠ 0 := by
      have hne := (Triangle.weights?_real hw).1
      rw [hv, A.det_map] at hne
      exact left_ne_zero_of_mul hne
    refine ⟨found.weights.blendPoint t, ?_, A.apply_injective hdet, ?_⟩
    · rw [A.apply_blendPoint hsum, ← hv, Triangle.blendPoint_of_weights? hw]
    · refine Coordinate.eq_of_position ?_ ?_
      · exact TriangleMatch.apply_position_some (by rw [hcorr]) _ _
      · rw [TriangleMatch.apply_inverse_z, hr.rise_eq ht (by rw [hcorr]) hsum]
        rfl

end TriangleRow.Samples

namespace AffineMesh

variable {m : MeshMetadata ℝ} {rows : List (TriangleRow β ℝ)} {s : TriangleSource β ℝ}
  {cache : Option (CachedTriangle ℝ)} {c q : Coordinate ℝ}

theorem forward_eq (hm : AffineMesh m rows A h)
    (hcache : CacheReachable (TriangleSource.DrawsFrom m rows) cache) (hs : s.DrawsFrom m rows)
    (hq : (s.transform cache .forward c).answer = .ok (some q)) :
    q = .ofPosition (A.apply c.position) (c.z + h.apply c.position) := by
  obtain ⟨found, hfound, rfl⟩ := TriangleSource.transform_answer.mp hq
  obtain ⟨r, hr, hanswers⟩ := hcache.exists_answers hs hfound
  exact (hm.samples r hr).apply_forward hanswers

theorem inverse_eq (hm : AffineMesh m rows A h)
    (hcache : CacheReachable (TriangleSource.DrawsFrom m rows) cache) (hs : s.DrawsFrom m rows)
    (hq : (s.transform cache .inverse c).answer = .ok (some q)) :
    ∃ x, A.apply x = c.position ∧ Function.Injective A.apply ∧
      q = .ofPosition x (c.z - h.apply x) := by
  obtain ⟨found, hfound, rfl⟩ := TriangleSource.transform_answer.mp hq
  obtain ⟨r, hr, hanswers⟩ := hcache.exists_answers hs hfound
  refine (hm.samples r hr).apply_inverse ?_ hanswers
  cases hhorizontal : m.horizontal with
  | true => exact Or.inr (MeshMetadata.searchedSide_inverse hhorizontal)
  | false => exact Or.inl (hm.flat hhorizontal r hr)

end AffineMesh

/-- **Affine corrections are reproduced exactly.**  On a mesh that samples an affine map of the plane and
an affine height function, over sources that stream any of its rows and may fail, after any run: a
transformation forward that answers applies both maps, and one back that answers applies every inverse
of the first and subtracts the height there.  So going back undoes going forward whenever both answer.
It does not matter whether the cached triangle, the exact search or the outward search answers. -/
theorem affine_corrections_reproduced {m : MeshMetadata ℝ} {rows : List (TriangleRow β ℝ)}
    (hm : AffineMesh m rows A h) {cache : Option (CachedTriangle ℝ)}
    (hcache : CacheReachable (TriangleSource.DrawsFrom m rows) cache) {s : TriangleSource β ℝ}
    (hs : s.DrawsFrom m rows) (c : Coordinate ℝ) :
    (∀ q, (s.transform cache .forward c).answer = .ok (some q) →
      q = .ofPosition (A.apply c.position) (c.z + h.apply c.position)) ∧
    (∀ B, Function.LeftInverse B A.apply →
      ∀ q, (s.transform cache .inverse c).answer = .ok (some q) →
        q = .ofPosition (B c.position) (c.z - h.apply (B c.position))) ∧
    ∀ q, (s.transform cache .forward c).answer = .ok (some q) →
      ∀ (s' : TriangleSource β ℝ) cache', s'.DrawsFrom m rows →
        CacheReachable (TriangleSource.DrawsFrom m rows) cache' →
        ∀ q', (s'.transform cache' .inverse q).answer = .ok (some q') → q' = c := by
  refine ⟨fun q hq => hm.forward_eq hcache hs hq, fun B hB q hq => ?_, ?_⟩
  · obtain ⟨x, hx, -, hq⟩ := hm.inverse_eq hcache hs hq
    rw [hq, ← hx, hB]
  · intro q hq s' cache' hs' hcache' q' hq'
    rw [hm.forward_eq hcache hs hq] at hq'
    obtain ⟨x, hx, hinjective, hq'⟩ := hm.inverse_eq hcache' hs' hq'
    have hxc : x = c.position := hinjective hx
    rw [hq', hxc]
    exact Coordinate.eq_of_position rfl (add_sub_cancel_right _ _)

/-! ## The maps of the wedge -/

section Wedge

/-- The map that takes the source corners of the wedge to its target corners. -/
noncomputable def wedgeMap : PlaneMap where
  origin := .whole 1 2
  alongX := (Point.whole 12 0).divide ((10 : ℕ) : ℝ)
  alongY := (Point.whole 0 9).divide ((10 : ℕ) : ℝ)

/-- The height function with the offsets of the wedge at its source corners. -/
noncomputable def wedgeHeight : HeightMap := ⟨1, -(1 / ((10 : ℕ) : ℝ)), -(1 / ((5 : ℕ) : ℝ))⟩

theorem wedge_affineMesh : AffineMesh wedgeMesh [wedge] wedgeMap wedgeHeight := by
  have htarget : wedgeTarget = wedgeCorners.map wedgeMap.apply := by
    refine congr (congrArg₂ Corners.mk ?_ ?_) ?_ <;> refine Point.eq_of_coordinates ?_ ?_ <;>
      norm_num [PlaneMap.apply_x, PlaneMap.apply_y, wedgeMap, wedgeCorners]
  have hoffsets : (⟨1, 0, -1⟩ : Corners ℝ) = wedgeCorners.map wedgeHeight.apply := by
    refine congr (congrArg₂ Corners.mk ?_ ?_) ?_ <;>
      norm_num [HeightMap.apply, wedgeHeight, wedgeCorners]
  refine ⟨fun r hr => ?_, fun hflat => by cases hflat⟩
  rw [List.mem_singleton.mp hr]
  refine ⟨fun t v ht hv => ?_, fun hnone => (by cases hnone), fun t values ht hvalues => ?_,
    fun hnone => (by cases hnone)⟩
  · injection ht with ht
    injection hv with hv
    rw [← ht, ← hv]
    exact htarget
  · injection ht with ht
    injection hvalues with hvalues
    rw [← ht, ← hvalues]
    exact hoffsets

/-- The inverse of the map of the wedge. -/
noncomputable def wedgeMapBack (p : Point ℝ) : Point ℝ :=
  ⟨(p.x - 1) * ((10 : ℕ) : ℝ) / ((12 : ℕ) : ℝ), (p.y - ((2 : ℕ) : ℝ)) * ((10 : ℕ) : ℝ) / ((9 : ℕ) : ℝ)⟩

theorem wedgeMapBack_leftInverse : Function.LeftInverse wedgeMapBack wedgeMap.apply := by
  intro p
  refine Point.eq_of_coordinates ?_ ?_
  · simp only [wedgeMapBack, PlaneMap.apply_x, wedgeMap, Point.divide_x, Point.whole_x]
    push_cast
    ring
  · simp only [wedgeMapBack, PlaneMap.apply_y, wedgeMap, Point.divide_y, Point.whole_y]
    push_cast
    ring

/-- A point of the wedge there and back: the exact search answers both times, the second time with the
triangle of the first one cached. -/
theorem wedge_affine_corrections_reproduced :
    ∃ q, (wedgeStore.transform none .forward ⟨1, 1, 5⟩).answer = .ok (some q) ∧
      q = .ofPosition (wedgeMap.apply ⟨1, 1⟩) (5 + wedgeHeight.apply ⟨1, 1⟩) ∧
      ∃ q', (wedgeStore.transform (wedgeStore.transform none .forward ⟨1, 1, 5⟩).cache .inverse
          q).answer = .ok (some q') ∧
        q' = .ofPosition (wedgeMapBack q.position)
          (q.z - wedgeHeight.apply (wedgeMapBack q.position)) ∧
        q' = ⟨1, 1, 5⟩ := by
  have hdraws : wedgeStore.DrawsFrom wedgeMesh [wedge] := TriangleSource.ofRows_drawsFrom _ _
  have hcache : CacheReachable (TriangleSource.DrawsFrom wedgeMesh [wedge])
      (wedgeStore.transform none .forward ⟨1, 1, 5⟩).cache :=
    .find .start hdraws ⟨1, 1⟩ .forward
  obtain ⟨hforward, -, hround⟩ := affine_corrections_reproduced wedge_affineMesh .start hdraws
    (⟨1, 1, 5⟩ : Coordinate ℝ)
  have hback := TriangleSource.transform_of_find (c := ⟨11 / 5, 29 / 10, 57 / 10⟩)
    wedgeStore_find_back
  obtain ⟨-, hinverse, -⟩ := affine_corrections_reproduced wedge_affineMesh hcache hdraws
    (⟨11 / 5, 29 / 10, 57 / 10⟩ : Coordinate ℝ)
  exact ⟨_, wedge_transform_forward, hforward _ wedge_transform_forward, _, hback,
    hinverse _ wedgeMapBack_leftInverse _ hback,
    hround _ wedge_transform_forward _ _ hdraws hcache _ hback⟩

end Wedge

end ShiftMesh
