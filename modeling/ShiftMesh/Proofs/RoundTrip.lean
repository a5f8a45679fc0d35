import ShiftMesh.Proofs.Coverage
import ShiftMesh.Proofs.Evaluation

/-!
# ShiftMesh.Proofs.RoundTrip — going forward in one triangle and back in the shifted one

The two directions search different corners through different windows.  What ties them is the weights:
the point that a match goes to has the same weights in the target corners as the point it comes from
has in the source corners.

* `TriangleSource.DrawsFrom.exists_hits`, `CacheReachable.exists_hits`: an answer before the outward search
  is a hit of one of the rows.
* `piecewise_linear_round_trip`: going back is exact where one target triangle covers the point.
-/

namespace ShiftMesh

/-! ## Lookups that a row answers -/

section Any

variable {β α : Type} [Scalar α] [StoredPoint β α] {m : MeshMetadata α} {rows : List (TriangleRow β α)}
  {s : TriangleSource β α} {cache : Option (CachedTriangle α)} {p : Point α} {d : Direction}

theorem TriangleSource.StreamsMeeting.drawsFrom (hs : s.StreamsMeeting m rows) : s.DrawsFrom m rows :=
  ⟨hs.metadata, fun w => (hs.inOrder w).subset⟩

/-- If what is cached belongs to one of the rows, an answer of the cached triangle or of the exact search
is a hit of one of the rows. -/
theorem TriangleSource.DrawsFrom.exists_hits (hs : s.DrawsFrom m rows)
    (hcache : ∀ c, cache = some c →
      ∃ r ∈ rows, r.Provides (m.searchedSide c.direction) c.vertices c.corrections)
    {found : TriangleMatch α} (hanswer : (s.find cache p d).answer = .ok (some found))
    (hstage : (s.find cache p d).stage ≠ .fallback) :
    ∃ r ∈ rows, ∃ v, r.Hits (m.searchedSide d) p ⟨found.weights, v, found.corrections⟩ := by
  have hfound := TriangleSource.find_foundBy hanswer
  generalize s.find cache p d = lookup at hfound hstage
  cases hfound with
  | cached hmatch =>
    obtain ⟨c, hc, hd, hin, hcorr⟩ := cachedMatch?_eq_some hmatch
    obtain ⟨r, hr, hprovides⟩ := hcache c hc
    rw [hd] at hprovides
    exact ⟨r, hr, c.vertices, hprovides.vertices, hin, hcorr ▸ hprovides.corrections⟩
  | @hit q v r hr hhit =>
    rw [hs.metadata] at hhit
    exact ⟨r, hs.subset q.window r hr, v, hhit⟩
  | outward _ _ _ _ _ => exact absurd rfl hstage

/-- After any run, an answer of the cached triangle or of the exact search is a hit of one of the
rows. -/
theorem CacheReachable.exists_hits
    (hcache : CacheReachable (TriangleSource.DrawsFrom m rows) cache) (hs : s.DrawsFrom m rows)
    {found : TriangleMatch α} (hanswer : (s.find cache p d).answer = .ok (some found))
    (hstage : (s.find cache p d).stage ≠ .fallback) :
    ∃ r ∈ rows, ∃ v, r.Hits (m.searchedSide d) p ⟨found.weights, v, found.corrections⟩ :=
  hs.exists_hits hcache.provided hanswer hstage

end Any

variable {β : Type} [StoredPoint β ℝ] {m : MeshMetadata ℝ} {rows : List (TriangleRow β ℝ)}
  {s : TriangleSource β ℝ}

/-! ## There and back -/

/-- A match that is read off the source corners of a row goes to the point with the same weights in the
row's target corners. -/
theorem TriangleRow.Answers.weights_apply {r : TriangleRow β ℝ} {c : Coordinate ℝ} {found : TriangleMatch ℝ}
    (h : r.Answers .source c.position found) {v : Triangle ℝ} (hv : r.target = some v)
    (harea : ¬ Scalar.abs v.det < Scalar.tolerance) :
    v.weights? (found.apply .forward c).position = some found.weights := by
  obtain ⟨t, -, hw, hcorr⟩ := h.of_source
  have hposition : (found.apply .forward c).position = found.weights.blendPoint v :=
    TriangleMatch.apply_position_some (by rw [hcorr, hv]) _ _
  exact Triangle.weights?_eq_some_of harea (Triangle.sum_of_weights? hw) hposition.symm

/-- **Piecewise-linear round trip.**  On a mesh whose rows all have target corners, with shifts that the
metadata's range bounds, over a source that streams every row whose source box meets the window: if a
transformation forward is read off a row with weights between zero and one, the row's target corners
span an area, and no other row's target triangle contains the point it goes to, then the transformation
back from there, after any run, returns the coordinate itself.  The stage that answered going forward
plays no part. -/
theorem piecewise_linear_round_trip (hhorizontal : m.horizontal = true)
    (hrows : ∀ r ∈ rows, ∃ t v, r.triangle = .ok t ∧ r.target = some v ∧ m.shift.Bounds t v)
    (hs : s.StreamsMeeting m rows) {cache : Option (CachedTriangle ℝ)} {c q : Coordinate ℝ}
    (hq : (s.transform cache .forward c).answer = .ok (some q)) {found : TriangleMatch ℝ}
    (hfound : (s.find cache c.position .forward).answer = .ok (some found)) {r : TriangleRow β ℝ}
    (hr : r ∈ rows) (hanswers : r.Answers .source c.position found)
    (hunit : ∀ l ∈ [found.weights.first, found.weights.second, found.weights.third], 0 ≤ l ∧ l ≤ 1)
    {v : Triangle ℝ} (hv : r.target = some v) (harea : ¬ Scalar.abs v.det < Scalar.tolerance)
    (hother : ∀ r' ∈ rows, r' ≠ r → ∀ v', r'.target = some v' → v'.inside? q.position = none)
    {cache' : Option (CachedTriangle ℝ)}
    (hcache' : CacheReachable (TriangleSource.DrawsFrom m rows) cache') :
    (s.transform cache' .inverse q).answer = .ok (some c) := by
  obtain ⟨found', hfound', rfl⟩ := TriangleSource.transform_answer.mp hq
  rw [hfound] at hfound'
  injection hfound' with hfound'
  injection hfound' with hfound'
  subst hfound'
  have hweights := hanswers.weights_apply hv harea
  -- so the lookup back reads the row, and it is answered before the outward search
  obtain ⟨t, v', ht, hv', hbounds⟩ := hrows r hr
  rw [hv] at hv'
  injection hv' with hv'
  subst hv'
  have hdecode : ∀ r ∈ rows, ∃ t, r.triangle = .ok t := by
    intro r hr
    obtain ⟨t, -, ht, -⟩ := hrows r hr
    exact ⟨t, ht⟩
  have hside := MeshMetadata.searchedSide_inverse hhorizontal
  obtain ⟨back, hback, -, hstage, -⟩ := hs.exists_find_of_covered cache' hdecode (d := .inverse) hr ht
    (by rw [hside]; exact TriangleRow.vertices_target hv) (by rw [hside]; exact hbounds) hweights hunit
  -- the row that answers contains the point, so it is the same one
  obtain ⟨r', hr', v', hhit⟩ := hcache'.exists_hits hs.drawsFrom hback hstage
  rw [hside] at hhit
  have hsame : r' = r := by
    by_contra hne
    obtain ⟨-, target, -, htarget, -⟩ := hrows r' hr'
    have hmiss := hother r' hr' hne target htarget
    have hvertices := hhit.vertices
    rw [TriangleRow.vertices_target htarget] at hvertices
    injection hvertices with hvertices
    rw [hvertices, hhit.inside] at hmiss
    cases hmiss
  rw [hsame] at hhit
  have heq : back.weights = found.weights := by
    obtain ⟨hback, -⟩ := hhit.answers.of_target hv
    rw [hweights] at hback
    injection hback with hback
    exact hback.symm
  rw [TriangleSource.transform_of_find hback,
    hanswers.apply_back hhit.answers (Or.inr rfl) heq]

/-! ## Two triangles side by side -/

section Patch

/-- The triangle beyond the long edge of the wedge. -/
def beyondCorners : Triangle ℝ := ⟨.whole 10 0, .whole 10 10, .whole 0 10⟩

/-- It shares the shifted edge with the wedge. -/
def beyondTarget : Triangle ℝ := ⟨.whole 13 2, .whole 13 12, .whole 1 11⟩

/-- The row of that triangle, with heights in pairs. -/
def beyondWedge : TriangleRow (Point ℝ) ℝ :=
  ⟨beyondCorners, some beyondTarget, some (.paired ⟨0, 1, 0⟩ ⟨1, 0, -1⟩)⟩

/-- The source boxes of both triangles are the same. -/
noncomputable def patchStore : TriangleSource (Point ℝ) ℝ := .ofRows wedgeMesh [beyondWedge, wedge]

theorem patch_rows : ∀ r ∈ [beyondWedge, wedge], ∃ t v, r.triangle = .ok t ∧ r.target = some v ∧
    wedgeMesh.shift.Bounds t v := by
  intro r hr
  rcases List.mem_cons.mp hr with rfl | hr
  · -- its shifts are among those of the wedge
    obtain ⟨-, hsecond, hthird⟩ := Corners.forall_mem_toList.mp wedge_bounds
    have hcorner : (.whole 13 12 - .whole 10 10 : Point ℝ) = .whole 13 2 - .whole 10 0 := by
      refine Point.eq_of_coordinates ?_ ?_ <;> norm_num
    refine ⟨beyondCorners, beyondTarget, rfl, rfl,
      Corners.forall_mem_toList.mpr ⟨hsecond, ?_, hthird⟩⟩
    show wedgeMesh.shift.Holds (.whole 13 12 - .whole 10 10)
    rw [hcorner]
    exact hsecond
  · rw [List.mem_singleton.mp hr]
    exact ⟨wedgeCorners, wedgeTarget, rfl, rfl, wedge_bounds⟩

/-- The lookup of a point of the wedge reads both rows and answers with the second one. -/
theorem patchStore_find_forward :
    (patchStore.find none ⟨1, 1⟩ .forward).answer =
      .ok (some ⟨⟨4 / 5, 1 / 10, 1 / 10⟩, ⟨some wedgeTarget, wedge.vertical⟩⟩) := by
  have hmiss : beyondWedge.Misses .source ⟨1, 1⟩ := by
    refine ⟨beyondCorners, rfl, ?_⟩
    have hweights : beyondCorners.weights? ⟨1, 1⟩ = some ⟨9 / 10, -4 / 5, 9 / 10⟩ := by
      refine Triangle.weights?_eq_some_of ?_ (by norm_num) (Point.eq_of_coordinates ?_ ?_)
      · rw [Scalar.tolerance_real, Triangle.det_real, Scalar.abs_real]
        norm_num [beyondCorners]
      · norm_num [Weights.blendPoint, beyondCorners]
      · norm_num [Weights.blendPoint, beyondCorners]
    rw [Triangle.inside?, hweights, Option.filter_some, if_neg]
    rw [Weights.isInside_iff, Scalar.tolerance_real]
    norm_num
  have hunit : ∀ l ∈ [(4 / 5 : ℝ), 1 / 10, 1 / 10], 0 ≤ l ∧ l ≤ 1 := by
    simp only [List.forall_mem_cons]
    norm_num
  have hhit : wedge.Hits .source ⟨1, 1⟩ ⟨⟨4 / 5, 1 / 10, 1 / 10⟩, wedgeCorners,
      ⟨some wedgeTarget, wedge.vertical⟩⟩ :=
    ⟨rfl, Triangle.inside?_of_mem_unit wedgeCorners_weights hunit, rfl⟩
  have hrows : (patchStore.query (exactWindow wedgeMesh .source ⟨1, 1⟩)).rows =
      [beyondWedge] ++ wedge :: [] := by
    have hmeets : ∀ r ∈ [beyondWedge, wedge],
        r.meets (exactWindow wedgeMesh .source ⟨1, 1⟩) = true := by
      intro r hr
      rcases List.mem_cons.mp hr with rfl | hr
      · rw [TriangleRow.meets_eq (t := beyondCorners) rfl, Window.meetsTriangle, Window.meets_iff]
        norm_num [exactWindow, Window.around, Triangle.boxMin_x, Triangle.boxMin_y, Triangle.boxMax_x,
          Triangle.boxMax_y, Scalar.tolerance_real, beyondCorners]
      · have hbounds : (wedgeMesh.sideShift .source).Bounds wedgeCorners wedgeCorners :=
          ShiftRange.none_bounds _
        rw [List.mem_singleton.mp hr, TriangleRow.meets_eq (t := wedgeCorners) rfl]
        exact meetsTriangle_exactWindow_of_nonneg hbounds wedgeCorners_weights
          (by norm_num) (by norm_num) (by norm_num)
    exact List.filter_eq_self.mpr hmeets
  have hexact : exactSearch patchStore (wedgeMesh.searchedSide .forward) ⟨1, 1⟩ = _ :=
    exactSearch_of_hits hrows (List.forall_mem_singleton.mpr hmiss) hhit rfl
  exact congrArg Lookup.answer
    (Lookup.Ends.hit (s := patchStore) (p := ⟨1, 1⟩) (d := .forward) rfl hexact).find_eq

/-- The triangle beyond the edge does not contain the point that the point of the wedge goes to. -/
theorem beyondTarget_inside? : beyondTarget.inside? ⟨11 / 5, 29 / 10⟩ = none := by
  have hweights : beyondTarget.weights? ⟨11 / 5, 29 / 10⟩ =
      some ⟨41 / 50, -18 / 25, 9 / 10⟩ := by
    refine Triangle.weights?_eq_some_of ?_ (by norm_num) (Point.eq_of_coordinates ?_ ?_)
    · rw [Scalar.tolerance_real, Triangle.det_real, Scalar.abs_real]
      norm_num [beyondTarget]
    · norm_num [Weights.blendPoint, beyondTarget]
    · norm_num [Weights.blendPoint, beyondTarget]
  rw [Triangle.inside?, hweights, Option.filter_some, if_neg]
  rw [Weights.isInside_iff, Scalar.tolerance_real]
  norm_num

/-- A point of the wedge there and back, with both rows streamed both times and the triangle of the way
forth cached. -/
theorem patch_round_trip :
    (patchStore.transform none .forward ⟨1, 1, 5⟩).answer =
      .ok (some ⟨11 / 5, 29 / 10, 57 / 10⟩) ∧
    (patchStore.transform (patchStore.transform none .forward ⟨1, 1, 5⟩).cache .inverse
      ⟨11 / 5, 29 / 10, 57 / 10⟩).answer = .ok (some ⟨1, 1, 5⟩) := by
  have hfind : (patchStore.find none (⟨1, 1, 5⟩ : Coordinate ℝ).position .forward).answer =
      (wedgeStore.find none (⟨1, 1, 5⟩ : Coordinate ℝ).position .forward).answer := by
    show (patchStore.find none ⟨1, 1⟩ .forward).answer = (wedgeStore.find none ⟨1, 1⟩ .forward).answer
    rw [patchStore_find_forward, wedgeStore_find_forward]
  have hforward : (patchStore.transform none .forward ⟨1, 1, 5⟩).answer =
      .ok (some ⟨11 / 5, 29 / 10, 57 / 10⟩) := by
    rw [← wedge_transform_forward]
    exact congrArg (Except.map _) hfind
  refine ⟨hforward, ?_⟩
  have hstreams : patchStore.StreamsMeeting wedgeMesh [beyondWedge, wedge] :=
    TriangleSource.ofRows_streamsMeeting _ _
  refine piecewise_linear_round_trip rfl patch_rows hstreams hforward patchStore_find_forward
    (r := wedge) (by simp) ⟨wedgeCorners, rfl, wedgeCorners_weights, rfl⟩ ?_ rfl
    (Triangle.not_lt_of_weights? wedgeTarget_weights) (fun r hr hne v hv => ?_)
    (.find .start hstreams.drawsFrom ⟨1, 1⟩ .forward)
  · simp only [List.forall_mem_cons]
    norm_num
  · rcases List.mem_cons.mp hr with rfl | hr
    · injection hv with hv
      rw [← hv]
      exact beyondTarget_inside?
    · exact absurd (List.mem_singleton.mp hr) hne

end Patch

end ShiftMesh
