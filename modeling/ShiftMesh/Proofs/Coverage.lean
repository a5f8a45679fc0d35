import ShiftMesh.Proofs.Lookup

/-!
# ShiftMesh.Proofs.Coverage — a covered point is found, going forward and going back

* `TriangleSource.StreamsMeeting`: a source that does not fail and streams, in order, every row whose
  source box meets the window, and possibly others.
* `TriangleSource.StreamsMeeting.exists_find`: a streamed row that does not miss makes the lookup answer
  before the outward search.
* `TriangleRow.HasCorners`: the corners that the row itself has on a side.
* `TriangleSource.StreamsMeeting.mem_query_exactWindow`: the exact window streams every row that covers
  the point on the side that is searched; `exists_find_of_covered`: so such a row is enough.
* `covered_point_found`: in exact arithmetic, a point in the closed triangle of some row is found by the
  cached triangle or by the exact search, whatever is cached.
-/

namespace ShiftMesh

section Streams

variable {β α : Type} [Scalar α] [StoredPoint β α]

/-- The source does not fail; for each window it streams rows of the list in their order, and leaves
out none whose source box meets the window. -/
structure TriangleSource.StreamsMeeting (m : MeshMetadata α) (rows : List (TriangleRow β α))
    (s : TriangleSource β α) : Prop where
  metadata : s.metadata = m
  inOrder : ∀ w, (s.query w).rows.Sublist rows
  meeting : ∀ w, (rows.filter (TriangleRow.meets w)).Sublist (s.query w).rows
  failure : ∀ w, (s.query w).failure = none
  stopFailure : ∀ w n, (s.query w).stopFailure n = none

/-- Over rows that can be read, the exact search of such a source does not fail. -/
theorem TriangleSource.StreamsMeeting.exists_exactSearch {m : MeshMetadata α}
    {rows : List (TriangleRow β α)} {s : TriangleSource β α} (hs : s.StreamsMeeting m rows)
    (hdecode : ∀ r ∈ rows, ∃ t, r.triangle = .ok t) (side : Side) (p : Point α) :
    ∃ q found, exactSearch s side p = (q, .ok found) :=
  exists_exactSearch_ok (fun r hr => hdecode r ((hs.inOrder _).subset hr)) (hs.failure _)
    (hs.stopFailure _)

/-- If the exact window streams a row that does not miss, the cached triangle or the exact search answers,
with a triangle that contains the point and after at most one query. -/
theorem TriangleSource.StreamsMeeting.exists_find {m : MeshMetadata α} {rows : List (TriangleRow β α)}
    {s : TriangleSource β α} (hs : s.StreamsMeeting m rows) (cache : Option (CachedTriangle α))
    (hdecode : ∀ r ∈ rows, ∃ t, r.triangle = .ok t) {p : Point α} {d : Direction} {r : TriangleRow β α}
    (hr : r ∈ (s.query (exactWindow m (m.searchedSide d) p)).rows)
    (hnot : ¬ r.Misses (m.searchedSide d) p) :
    ∃ found, (s.find cache p d).answer = .ok (some found) ∧ found.weights.isInside = true ∧
      (s.find cache p d).stage ≠ .fallback ∧
      ((s.find cache p d).queries = [] ∨
        ∃ n, (s.find cache p d).queries = [⟨exactWindow m (m.searchedSide d) p, n⟩]) := by
  have hends := s.find_ends cache p d
  generalize s.find cache p d = lookup at hends ⊢
  rw [← hs.metadata] at hr hnot ⊢
  cases hends with
  | cached hmatch =>
    obtain ⟨c, -, -, hin, -⟩ := cachedMatch?_eq_some hmatch
    exact ⟨_, rfl, (Triangle.inside?_eq_some.mp hin).2, by simp, Or.inl rfl⟩
  | failed _ hexact =>
    obtain ⟨q', found, hok⟩ := hs.exists_exactSearch hdecode (s.metadata.searchedSide d) p
    rw [hexact] at hok
    cases hok
  | @hit q hit _ hexact =>
    obtain ⟨r', -, hhit⟩ := exists_hits_of_exactSearch hexact
    refine ⟨_, rfl, (Triangle.inside?_eq_some.mp hhit.inside).2, by simp, Or.inr ⟨q.visited, ?_⟩⟩
    rw [← exactSearch_window hexact]
  | missed _ hexact _ => exact absurd (exactSearch_none hexact r hr) hnot
  | outward _ hexact _ => exact absurd (exactSearch_none hexact r hr) hnot

theorem TriangleSource.ofRows_streamsMeeting (m : MeshMetadata α)
    (rows : List (TriangleRow β α)) : (TriangleSource.ofRows m rows).StreamsMeeting m rows where
  metadata := rfl
  inOrder _ := List.filter_sublist
  meeting _ := List.Sublist.refl _
  failure _ := rfl
  stopFailure _ _ := rfl

/-- The corners of the row on a side: its target corners must be present to be searched. -/
def TriangleRow.HasCorners (r : TriangleRow β α) (side : Side) (v : Triangle α) : Prop :=
  match side with
  | .source => r.triangle = .ok v
  | .target => r.target = some v

omit [Scalar α] in
theorem TriangleRow.HasCorners.vertices {r : TriangleRow β α} {side : Side} {v : Triangle α}
    (h : r.HasCorners side v) : r.vertices side = .ok v := by
  cases side with
  | source => exact h
  | target => exact vertices_target h

end Streams

variable {β : Type} [StoredPoint β ℝ] {m : MeshMetadata ℝ} {rows : List (TriangleRow β ℝ)}

/-- The corners of a side are those of the source, shifted within the side's range. -/
theorem TriangleRow.HasCorners.bounds {r : TriangleRow β ℝ} {side : Side} {t v : Triangle ℝ}
    (h : r.HasCorners side v) (ht : r.triangle = .ok t)
    (hshift : side = .target → r.target = some v → m.shift.Bounds t v) :
    (m.sideShift side).Bounds t v := by
  cases side with
  | source => exact TriangleRow.bounds_source m ht h
  | target => exact hshift rfl h

/-- The exact window of a point streams every row whose searched corners cover the point. -/
theorem TriangleSource.StreamsMeeting.mem_query_exactWindow {s : TriangleSource β ℝ}
    (hs : s.StreamsMeeting m rows)
    {r : TriangleRow β ℝ} (hr : r ∈ rows) {side : Side} {t v : Triangle ℝ} (ht : r.triangle = .ok t)
    (hbounds : (m.sideShift side).Bounds t v) {p : Point ℝ} {w : Weights ℝ}
    (hw : v.weights? p = some w) (hunit : ∀ l ∈ [w.first, w.second, w.third], 0 ≤ l ∧ l ≤ 1) :
    r ∈ (s.query (exactWindow m side p)).rows := by
  simp only [List.forall_mem_cons] at hunit
  have hmeets : r.meets (exactWindow m side p) = true := by
    rw [TriangleRow.meets_eq ht]
    exact meetsTriangle_exactWindow_of_nonneg hbounds hw hunit.1.1 hunit.2.1.1 hunit.2.2.1.1
  exact (hs.meeting _).subset (List.mem_filter.mpr ⟨hr, hmeets⟩)

/-- A row that covers the point makes the lookup answer before the outward search. -/
theorem TriangleSource.StreamsMeeting.exists_find_of_covered {s : TriangleSource β ℝ}
    (hs : s.StreamsMeeting m rows) (cache : Option (CachedTriangle ℝ))
    (hdecode : ∀ r ∈ rows, ∃ t, r.triangle = .ok t) {d : Direction} {p : Point ℝ}
    {r : TriangleRow β ℝ} (hr : r ∈ rows) {t v : Triangle ℝ} (ht : r.triangle = .ok t)
    (hv : r.vertices (m.searchedSide d) = .ok v)
    (hbounds : (m.sideShift (m.searchedSide d)).Bounds t v) {w : Weights ℝ}
    (hw : v.weights? p = some w) (hunit : ∀ l ∈ [w.first, w.second, w.third], 0 ≤ l ∧ l ≤ 1) :
    ∃ found, (s.find cache p d).answer = .ok (some found) ∧ found.weights.isInside = true ∧
      (s.find cache p d).stage ≠ .fallback ∧
      ((s.find cache p d).queries = [] ∨
        ∃ n, (s.find cache p d).queries = [⟨exactWindow m (m.searchedSide d) p, n⟩]) :=
  hs.exists_find cache hdecode (hs.mem_query_exactWindow hr ht hbounds hw hunit)
    (TriangleRow.not_misses_of_inside hv (Triangle.inside?_of_mem_unit hw hunit))

/-- **Covered points are found.**  If the weights of a point in the corners that a direction searches
lie between zero and one for some row, and the metadata's range bounds the shifts where target corners
are searched, the lookup answers with a triangle that contains the point, after at most the exact
query.  The window of the exact search filters out no covering triangle. -/
theorem covered_point_found (hdecode : ∀ r ∈ rows, ∃ t, r.triangle = .ok t)
    {s : TriangleSource β ℝ} (hs : s.StreamsMeeting m rows) {d : Direction}
    (hshift : m.searchedSide d = .target →
      ∀ r ∈ rows, ∀ t v, r.triangle = .ok t → r.target = some v → m.shift.Bounds t v)
    (cache : Option (CachedTriangle ℝ)) {p : Point ℝ} {r : TriangleRow β ℝ} (hr : r ∈ rows)
    {v : Triangle ℝ} (hv : r.HasCorners (m.searchedSide d) v) {w : Weights ℝ}
    (hw : v.weights? p = some w) (hunit : ∀ l ∈ [w.first, w.second, w.third], 0 ≤ l ∧ l ≤ 1) :
    ∃ found, (s.find cache p d).answer = .ok (some found) ∧ found.weights.isInside = true ∧
      (s.find cache p d).stage ≠ .fallback ∧
      ((s.find cache p d).queries = [] ∨
        ∃ n, (s.find cache p d).queries = [⟨exactWindow m (m.searchedSide d) p, n⟩]) := by
  obtain ⟨t, ht⟩ := hdecode r hr
  have hbounds := hv.bounds ht fun hside htarget => hshift hside r hr t v ht htarget
  exact hs.exists_find_of_covered cache hdecode hr ht hv.vertices hbounds hw hunit

/-- Going back from the middle of the shifted wedge, with the triangle of a forward lookup cached. -/
theorem wedge_covered_point_found :
    ∃ found,
      (wedgeStore.find (wedgeStore.find none ⟨1, 1⟩ .forward).cache ⟨4, 17 / 4⟩ .inverse).answer =
        .ok (some found) ∧ found.weights.isInside = true ∧
      (wedgeStore.find (wedgeStore.find none ⟨1, 1⟩ .forward).cache ⟨4, 17 / 4⟩ .inverse).stage ≠
        .fallback ∧
      ((wedgeStore.find (wedgeStore.find none ⟨1, 1⟩ .forward).cache ⟨4, 17 / 4⟩ .inverse).queries =
          [] ∨
        ∃ n, (wedgeStore.find (wedgeStore.find none ⟨1, 1⟩ .forward).cache ⟨4, 17 / 4⟩
          .inverse).queries = [⟨exactWindow wedgeMesh .target ⟨4, 17 / 4⟩, n⟩]) := by
  refine covered_point_found wedge_triangle
    (TriangleSource.ofRows_streamsMeeting wedgeMesh [wedge]) (fun _ r hr t v ht hv => ?_) _
    (List.mem_singleton.mpr rfl) (show wedge.HasCorners .target wedgeTarget from rfl)
    wedgeTarget_weights ?_
  · rw [List.mem_singleton.mp hr] at ht hv
    injection ht with ht
    injection hv with hv
    rw [← ht, ← hv]
    exact wedge_bounds
  · simp only [List.forall_mem_cons]
    norm_num

end ShiftMesh
