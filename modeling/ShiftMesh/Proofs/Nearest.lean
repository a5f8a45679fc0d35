import ShiftMesh.Proofs.Distance
import ShiftMesh.Proofs.Lookup

/-!
# ShiftMesh.Proofs.Nearest — what the outward search is nearest among

* `Ranked`: the best candidate of the rows read so far is the first of the nearest usable triangles
  among them, in exact arithmetic; `Ranked.step` says that one more row keeps it so, although the box
  test drops rows unmeasured.
* `scan_fallback_ranked`: hence so it is for the rows of a window.
* `fallback_selects_nearest`: a match of the outward search is the nearest usable triangle of the last
  window, and of every triangle that lies nearer than the window reaches.
* `nearest_out_of_reach`: it need not be the nearest triangle of the mesh.
-/

namespace ShiftMesh

variable {β : Type} [StoredPoint β ℝ] {strategy : FallbackStrategy} {side : Side} {p : Point ℝ}

/-! ## The rows of one window -/

/-- The best candidate of rows that were read in order: none if no row is usable, and otherwise the
offer of a row that is nearer than every usable row before it and no farther than any after it. -/
inductive Ranked (strategy : FallbackStrategy) (side : Side) (p : Point ℝ)
    (rows : List (TriangleRow β ℝ)) : Option (Candidate ℝ) → Prop
  | unusable (hnone : ∀ r ∈ rows, ∀ v, ¬ r.Usable side v) : Ranked strategy side p rows none
  | nearest {pre r post b} (hrows : rows = pre ++ r :: post) (hoffer : r.Offers strategy side p b)
      (hbefore : ∀ q ∈ pre, ∀ v, q.Usable side v → b.sqDistance < strategy.sqDistance p v)
      (hafter : ∀ q ∈ post, ∀ v, q.Usable side v → b.sqDistance ≤ strategy.sqDistance p v) :
      Ranked strategy side p rows (some b)

/-- The corners of a side are read in one way only. -/
theorem TriangleRow.Usable.vertices_eq {r : TriangleRow β ℝ} {v v' : Triangle ℝ}
    (h : r.Usable side v) (hv : r.vertices side = .ok v') : v = v' := by
  have := h.vertices.symm.trans hv
  injection this

/-- No usable row is nearer than the best candidate. -/
theorem Ranked.le {rows : List (TriangleRow β ℝ)} {b : Candidate ℝ}
    (h : Ranked strategy side p rows (some b)) :
    ∀ q ∈ rows, ∀ v, q.Usable side v → b.sqDistance ≤ strategy.sqDistance p v := by
  intro q hq v hv
  cases h with
  | @nearest pre r post _ hrows hoffer hbefore hafter =>
    rw [hrows] at hq
    rcases List.mem_append.mp hq with hq | hq
    · exact (hbefore q hq v hv).le
    · rcases List.mem_cons.mp hq with rfl | hq
      · rw [hoffer.sqDistance, hv.vertices_eq hoffer.vertices]
      · exact hafter q hq v hv

/-- While there is no best candidate, only degenerate triangles are passed over. -/
theorem isDegenerate_of_passed_over {v : Triangle ℝ} {l : ℝ}
    (h : withinBest none p v = false ∨ v.isDegenerate = true ∨ beatsBest none l = false) :
    v.isDegenerate = true := by
  rcases h with h | h | h
  · cases h
  · exact h
  · cases h

/-- A usable triangle that is passed over is no nearer than the best candidate, be it measured or
dropped by the box test. -/
theorem le_of_passed_over {b : Candidate ℝ} {v : Triangle ℝ}
    (hb : b.sqDistance = strategy.sqDistance p b.vertices) (husable : v.isDegenerate = false)
    (h : withinBest (some b) p v = false ∨ v.isDegenerate = true ∨
      beatsBest (some b) (strategy.sqDistance p v) = false) :
    b.sqDistance ≤ strategy.sqDistance p v := by
  rcases h with h | h | h
  · obtain ⟨w, hw, heq⟩ := strategy.exists_sqDistance_eq p v
    have hfar := Triangle.lt_sqDistance_of_not_boxWithin (Bool.eq_false_iff.mp h) hw
    have hpos := strategy.sqDistance_nonneg p b.vertices
    rw [← heq, Scalar.sqrt_real] at hfar
    rw [← hb] at hpos
    exact ((Real.sqrt_lt_sqrt_iff hpos).mp hfar).le
  · rw [husable] at h
    cases h
  · exact not_lt.mp (of_decide_eq_false h)

/-- One more row keeps the ranking. -/
theorem Ranked.step {pre : List (TriangleRow β ℝ)} {best next : Option (Candidate ℝ)}
    {r : TriangleRow β ℝ} (h : Ranked strategy side p pre best)
    (hs : fallbackStep strategy side p best r = .ok (.more next)) :
    Ranked strategy side p (pre ++ [r]) next := by
  rcases fallbackStep_cases strategy side p best r with ⟨v, hv, hskip, heq⟩ |
    ⟨b', hoffer, -, hbeats, heq⟩ | ⟨e, -, heq⟩ <;> rw [heq] at hs
  · -- the row is passed over
    injection hs with hs
    injection hs with hs
    subst hs
    cases h with
    | unusable hnone =>
      refine .unusable fun q hq v' hv' => ?_
      rcases List.mem_append.mp hq with hq | hq
      · exact hnone q hq v' hv'
      · rw [List.mem_singleton.mp hq] at hv'
        have hdegenerate := isDegenerate_of_passed_over hskip
        rw [← hv'.vertices_eq hv, hv'.usable] at hdegenerate
        cases hdegenerate
    | @nearest pre' r' post b hrows hoffer hbefore hafter =>
      have hrows' : pre ++ [r] = pre' ++ r' :: (post ++ [r]) := by rw [hrows]; simp
      refine .nearest hrows' hoffer hbefore fun q hq v' hv' => ?_
      rcases List.mem_append.mp hq with hq | hq
      · exact hafter q hq v' hv'
      · rw [List.mem_singleton.mp hq] at hv'
        have husable := hv'.usable
        rw [hv'.vertices_eq hv] at husable ⊢
        exact le_of_passed_over hoffer.sqDistance husable hskip
  · -- the row becomes the best candidate: it is nearer than the one before
    injection hs with hs
    injection hs with hs
    subst hs
    refine .nearest rfl hoffer (fun q hq v hv => ?_) (by simp)
    cases best with
    | none =>
      cases h with
      | unusable hnone => exact absurd hv (hnone q hq v)
    | some b => exact (of_decide_eq_true hbeats).trans_le (h.le q hq v hv)
  · cases hs

/-- The best candidate of a window is the first of the nearest usable triangles of its rows. -/
theorem scan_fallback_ranked {stream : RowStream β ℝ} {n : Nat} {best : Option (Candidate ℝ)}
    (h : stream.scan (fallbackStep strategy side p) none = (n, .ok best)) :
    Ranked strategy side p stream.rows best := by
  have hread := readRows_of_scan (fun _ _ _ => fallbackStep_ne_stop) h
  exact readRows_inv (I := Ranked strategy side p) (fun _ _ _ _ hI hs => hI.step hs) stream.rows []
    none (.unusable (by simp)) hread

/-! ## The last window -/

variable {m : MeshMetadata ℝ} {rows : List (TriangleRow β ℝ)}

theorem widened_real (radius : ℝ) : ∀ k, widened radius k = radius * 2 ^ k
  | 0 => by simp [widened]
  | k + 1 => by
    rw [widened, widened_real, Scalar.ofNat_real, pow_succ]
    push_cast
    ring

theorem outwardWindow_real (count : VertexCount) (side : Side) (p : Point ℝ) (k : ℕ) :
    outwardWindow m count side p k =
      .around (searchCenter m side p) (firstRadius m count * 2 ^ k) := by
  rw [outwardWindow, widened_real]

/-- The triangle is so near that an outward window of half-width `reach` cannot leave it out, if the
metadata describes it. -/
structure TriangleRow.WithinReach (r : TriangleRow β ℝ) (m : MeshMetadata ℝ) (side : Side)
    (p : Point ℝ) (reach : ℝ) (v : Triangle ℝ) : Prop where
  described : ∃ t, r.triangle = .ok t ∧ m.Describes side t v
  near : Real.sqrt (m.fallback.sqDistance p v) + (m.sideShift side).spread / 2 ≤ reach

theorem TriangleRow.WithinReach.meets {r : TriangleRow β ℝ} {reach : ℝ} {v : Triangle ℝ}
    (h : r.WithinReach m side p reach v) :
    r.meets (.around (searchCenter m side p) reach) = true := by
  obtain ⟨t, ht, hdescribes⟩ := h.described
  obtain ⟨w, hw, heq⟩ := m.fallback.exists_sqDistance_eq p v
  have hnear := h.near
  rw [heq] at hnear
  rw [TriangleRow.meets_eq ht]
  exact meetsTriangle_around_searchCenter hdescribes hw hnear

/-- **The outward search answers with the nearest triangle that its last window meets.**  Over the rows
of a list, no row that an earlier window meets is usable; the match is read off a usable row that the
last one meets; and no usable row that the last one meets is nearer, nor any that is within its reach.
The windows are squares around the search centre, each twice as wide as the one before
(`outwardWindow_real`). -/
theorem fallback_selects_nearest {cache : Option (CachedTriangle ℝ)} {d : Direction}
    {found : TriangleMatch ℝ}
    (hstage : ((TriangleSource.ofRows m rows).find cache p d).stage = .fallback)
    (hanswer : ((TriangleSource.ofRows m rows).find cache p d).answer = .ok (some found)) :
    ∃ count k, m.vertexCount = some count ∧
      ((TriangleSource.ofRows m rows).find cache p d).queries.map Query.window =
        exactWindow m (m.searchedSide d) p ::
          (List.range (k + 1)).map (outwardWindow m count (m.searchedSide d) p) ∧
      (∀ j < k, ∀ r ∈ rows, r.meets (outwardWindow m count (m.searchedSide d) p j) = true →
        ∀ v, ¬ r.Usable (m.searchedSide d) v) ∧
      ∃ r ∈ rows, ∃ v, r.Usable (m.searchedSide d) v ∧
        r.meets (outwardWindow m count (m.searchedSide d) p k) = true ∧
        v.weights? p = some found.weights ∧
        r.corrections (m.searchedSide d) = .ok found.corrections ∧
        ∀ r' ∈ rows, ∀ v', r'.Usable (m.searchedSide d) v' →
          (r'.meets (outwardWindow m count (m.searchedSide d) p k) = true ∨
            r'.WithinReach m (m.searchedSide d) p (firstRadius m count * 2 ^ k) v') →
          m.fallback.sqDistance p v ≤ m.fallback.sqDistance p v' := by
  obtain ⟨q, hexact, hends, hqueries⟩ := TriangleSource.find_of_stage_fallback hstage
  rw [hends] at hanswer
  obtain ⟨count, k, n, b, hcount, hwindows, hnone, hscan, hw, hcorr⟩ := fallbackSearch_some hanswer
  simp only [TriangleSource.ofRows_metadata] at hcount hwindows hnone hscan
  refine ⟨count, k, hcount, ?_, fun j hj r hr hmeets v => ?_, ?_⟩
  · rw [hqueries, List.map_cons, exactSearch_window hexact]
    exact congrArg (List.cons _) hwindows
  · obtain ⟨n', hscan'⟩ := hnone j hj
    cases scan_fallback_ranked hscan' with
    | unusable hunusable => exact hunusable r (TriangleSource.mem_query_ofRows.mpr ⟨hr, hmeets⟩) v
  · have hranked := scan_fallback_ranked hscan
    have hle := hranked.le
    cases hranked with
    | @nearest pre r post _ hrows hoffer _ _ =>
      have hmem : r ∈ ((TriangleSource.ofRows m rows).query
          (outwardWindow m count (m.searchedSide d) p k)).rows := by rw [hrows]; simp
      obtain ⟨hr, hmeets⟩ := TriangleSource.mem_query_ofRows.mp hmem
      refine ⟨r, hr, b.vertices, hoffer.toUsable, hmeets, hw, hcorr ▸ hoffer.corrections,
        fun r' hr' v' hv' hnear => ?_⟩
      rw [← hoffer.sqDistance]
      refine hle r' (TriangleSource.mem_query_ofRows.mpr ⟨hr', ?_⟩) v' hv'
      rcases hnear with hmeets' | hreach
      · exact hmeets'
      · rw [outwardWindow_real]
        exact hreach.meets

/-! ## Two triangles, one of them hidden -/

section Sparse

/-- A triangle whose box has the origin as a corner, and whose edges stay away from the origin. -/
def farCorners : Triangle ℝ := ⟨.whole 10 0, .whole 10 10, .whole 0 10⟩

/-- A small triangle near the origin. -/
def nearCorners : Triangle ℝ := ⟨.whole 2 0, .whole 3 0, .whole 2 1⟩

def farRow : TriangleRow (Point ℝ) ℝ := ⟨farCorners, none, some (.offset (.all 1))⟩

def nearRow : TriangleRow (Point ℝ) ℝ := ⟨nearCorners, none, some (.offset (.all 0))⟩

def sparseCount : VertexCount := ⟨100, by decide, by decide⟩

/-- The mesh of the two triangles; its vertex count makes the first outward window narrow. -/
noncomputable def sparseMesh : MeshMetadata ℝ where
  horizontal := false
  vertical := some .offset
  shift := .none
  fallback := .nearestSide
  vertexCount := some sparseCount
  extent := ⟨.whole 0 0, .whole 10 10⟩
  inputCrs := none
  outputCrs := none

noncomputable def sparseStore : TriangleSource (Point ℝ) ℝ := .ofRows sparseMesh [farRow, nearRow]

/-! Points on the lower side of the extent. -/

theorem farCorners_weights (x : ℝ) :
    farCorners.weights? ⟨x, 0⟩ = some ⟨1, x / 10 - 1, 1 - x / 10⟩ := by
  refine Triangle.weights?_eq_some_of ?_ (by ring) (Point.eq_of_coordinates ?_ ?_)
  · rw [Scalar.tolerance_real, Triangle.det_real, Scalar.abs_real]
    norm_num [farCorners]
  · simp only [Weights.blendPoint, farCorners, Point.add_x, Point.scale_x, Point.whole_x]
    push_cast
    ring
  · simp only [Weights.blendPoint, farCorners, Point.add_y, Point.scale_y, Point.whole_y]
    push_cast
    ring

theorem nearCorners_weights (x : ℝ) :
    nearCorners.weights? ⟨x, 0⟩ = some ⟨3 - x, x - 2, 0⟩ := by
  refine Triangle.weights?_eq_some_of ?_ (by ring) (Point.eq_of_coordinates ?_ ?_)
  · rw [Scalar.tolerance_real, Triangle.det_real, Scalar.abs_real]
    norm_num [nearCorners]
  · simp only [Weights.blendPoint, nearCorners, Point.add_x, Point.scale_x, Point.whole_x]
    push_cast
    ring
  · simp only [Weights.blendPoint, nearCorners, Point.add_y, Point.scale_y, Point.whole_y]
    push_cast
    ring

theorem farRow_usable : farRow.Usable .source farCorners := by
  refine ⟨rfl, Triangle.isDegenerate_eq_false_iff.mpr
    ⟨Corners.forall_mem_toList.mpr ?_, Triangle.not_lt_of_weights? (farCorners_weights 0)⟩⟩
  norm_num [Triangle.sqEdgeLengths, Point.sqDistance_real, Scalar.tolerance_real, farCorners]

theorem nearRow_usable : nearRow.Usable .source nearCorners := by
  refine ⟨rfl, Triangle.isDegenerate_eq_false_iff.mpr
    ⟨Corners.forall_mem_toList.mpr ?_, Triangle.not_lt_of_weights? (nearCorners_weights 0)⟩⟩
  norm_num [Triangle.sqEdgeLengths, Point.sqDistance_real, Scalar.tolerance_real, nearCorners]

theorem farRow_misses {x : ℝ} (hx : x ≤ 9) : farRow.Misses .source ⟨x, 0⟩ := by
  refine ⟨farCorners, rfl, ?_⟩
  rw [Triangle.inside?, farCorners_weights, Option.filter_some, if_neg]
  rw [Weights.isInside_iff, Scalar.tolerance_real]
  rintro ⟨-, ⟨h, -⟩, -⟩
  linarith

theorem nearRow_misses {x : ℝ} (hx : x ≤ 1 ∨ 7 / 2 ≤ x) : nearRow.Misses .source ⟨x, 0⟩ := by
  refine ⟨nearCorners, rfl, ?_⟩
  rw [Triangle.inside?, nearCorners_weights, Option.filter_some, if_neg]
  rw [Weights.isInside_iff, Scalar.tolerance_real]
  rintro ⟨⟨h, h'⟩, -⟩
  rcases hx with hx | hx <;> linarith

theorem sparseMesh_firstRadius : firstRadius sparseMesh sparseCount = 1 := by
  norm_num [firstRadius, sparseMesh, Extent.width, Extent.height, sparseCount]

theorem sparseMesh_searchCenter {x : ℝ} (h0 : 0 ≤ x) (h10 : x ≤ 10) :
    searchCenter sparseMesh .source ⟨x, 0⟩ = ⟨x, 0⟩ := by
  refine Point.eq_of_coordinates ?_ ?_ <;>
    simp [searchCenter_eq, extent_clamp_x, extent_clamp_y, sparseMesh, MeshMetadata.sideShift,
      ShiftRange.none, ShiftRange.midpoint, h0, h10]

/-- A candidate of the first outward window ends the outward search. -/
theorem sparseStore_searchOutward {x : ℝ} (h0 : 0 ≤ x) (h10 : x ≤ 10) {n : ℕ} {b : Candidate ℝ}
    (hscan : (sparseStore.query (.around ⟨x, 0⟩ 1)).scan (fallbackStep .nearestSide .source ⟨x, 0⟩)
      none = (n, .ok (some b))) :
    searchOutward sparseStore .source ⟨x, 0⟩ (searchCenter sparseMesh .source ⟨x, 0⟩)
      sparseMesh.extent.longerSide maxFallbackRounds (firstRadius sparseMesh sparseCount) =
        ([⟨.around ⟨x, 0⟩ 1, n⟩], .ok (some b)) := by
  have hlimit : ¬ sparseMesh.extent.longerSide < (1 : ℝ) := by
    norm_num [Extent.longerSide, Extent.width, Extent.height, sparseMesh]
  rw [sparseMesh_searchCenter h0 h10, sparseMesh_firstRadius]
  exact searchOutward_of_scan hlimit hscan

/-- A candidate of the first outward window answers. -/
theorem sparseStore_find {x : ℝ} (h0 : 0 ≤ x) (h9 : x ≤ 9) (hx : x ≤ 1 ∨ 7 / 2 ≤ x) {n : ℕ}
    {b : Candidate ℝ} {w : Weights ℝ}
    (hscan : (sparseStore.query (.around ⟨x, 0⟩ 1)).scan (fallbackStep .nearestSide .source ⟨x, 0⟩)
      none = (n, .ok (some b))) (hw : b.vertices.weights? ⟨x, 0⟩ = some w) :
    (sparseStore.find none ⟨x, 0⟩ .forward).stage = .fallback ∧
      (sparseStore.find none ⟨x, 0⟩ .forward).answer = .ok (some ⟨w, b.corrections⟩) := by
  have hmiss : ∀ r ∈ (sparseStore.query (exactWindow sparseMesh .source ⟨x, 0⟩)).rows,
      r.Misses .source ⟨x, 0⟩ := by
    intro r hr
    rcases List.mem_cons.mp (TriangleSource.mem_query_ofRows.mp hr).1 with rfl | hr
    · exact farRow_misses h9
    · rw [List.mem_singleton.mp hr]
      exact nearRow_misses hx
  have houtward := sparseStore_searchOutward h0 (by linarith) hscan
  have hanswer := fallbackSearch_of_searchOutward rfl houtward hw
  rw [(Lookup.Ends.outward rfl (exactSearch_of_misses hmiss rfl) (by decide)).find_eq]
  exact ⟨rfl, congrArg Prod.snd hanswer⟩

theorem farRow_meets {x : ℝ} (h0 : 0 ≤ x) (h9 : x ≤ 9) :
    farRow.meets (.around ⟨x, 0⟩ 1) = true := by
  rw [TriangleRow.meets_eq (t := farCorners) rfl, Window.meetsTriangle, Window.meets_iff]
  norm_num [Window.around, Triangle.boxMin_x, Triangle.boxMin_y, Triangle.boxMax_x,
    Triangle.boxMax_y, farCorners]
  constructor <;> linarith

theorem nearRow_meets {x : ℝ} : nearRow.meets (.around ⟨x, 0⟩ 1) = true ↔ 1 ≤ x ∧ x ≤ 4 := by
  rw [TriangleRow.meets_eq (t := nearCorners) rfl, Window.meetsTriangle, Window.meets_iff]
  norm_num [Window.around, Triangle.boxMin_x, Triangle.boxMin_y, Triangle.boxMax_x,
    Triangle.boxMax_y, nearCorners]
  constructor
  · rintro ⟨h, h'⟩
    constructor <;> linarith
  · rintro ⟨h, h'⟩
    constructor <;> linarith

/-- What the far triangle offers at a distance. -/
theorem farRow_offers {x l : ℝ} (h : farCorners.sqDistanceToEdges ⟨x, 0⟩ = l) :
    farRow.Offers .nearestSide .source ⟨x, 0⟩ ⟨l, farCorners, ⟨none, farRow.vertical⟩⟩ :=
  ⟨farRow_usable, rfl, h.symm⟩

theorem farCorners_sqDistance_origin : farCorners.sqDistanceToEdges ⟨0, 0⟩ = 50 := by
  norm_num [Triangle.sqDistanceToEdges, Triangle.sqDistanceToSegment, Triangle.sqEdgeLengths,
    Point.sqDistance_real, Point.dot_real, farCorners]

theorem nearCorners_sqDistance_origin : nearCorners.sqDistanceToEdges ⟨0, 0⟩ = 4 := by
  norm_num [Triangle.sqDistanceToEdges, Triangle.sqDistanceToSegment, Triangle.sqEdgeLengths,
    Point.sqDistance_real, Point.dot_real, nearCorners]

theorem farCorners_sqDistance : farCorners.sqDistanceToEdges ⟨7 / 2, 0⟩ = 169 / 8 := by
  norm_num [Triangle.sqDistanceToEdges, Triangle.sqDistanceToSegment, Triangle.sqEdgeLengths,
    Point.sqDistance_real, Point.dot_real, farCorners]

theorem nearCorners_sqDistance : nearCorners.sqDistanceToEdges ⟨7 / 2, 0⟩ = 1 / 4 := by
  norm_num [Triangle.sqDistanceToEdges, Triangle.sqDistanceToSegment, Triangle.sqEdgeLengths,
    Point.sqDistance_real, Point.dot_real, nearCorners]

/-- Beside the near triangle the first window meets both triangles. -/
theorem sparseStore_rows_beside :
    (sparseStore.query (.around ⟨7 / 2, 0⟩ 1)).rows = [farRow, nearRow] := by
  have hfar := farRow_meets (x := 7 / 2) (by norm_num) (by norm_num)
  have hnear := nearRow_meets.mpr (⟨by norm_num, by norm_num⟩ : 1 ≤ (7 / 2 : ℝ) ∧ (7 / 2 : ℝ) ≤ 4)
  simp [sparseStore, TriangleSource.ofRows, hfar, hnear]

/-- The near triangle replaces the far one. -/
theorem sparseStore_scan_beside :
    (sparseStore.query (.around ⟨7 / 2, 0⟩ 1)).scan (fallbackStep .nearestSide .source ⟨7 / 2, 0⟩)
      none = (2, .ok (some ⟨1 / 4, nearCorners, ⟨none, nearRow.vertical⟩⟩)) := by
  have hoffer : nearRow.Offers .nearestSide .source ⟨7 / 2, 0⟩
      ⟨1 / 4, nearCorners, ⟨none, nearRow.vertical⟩⟩ :=
    ⟨nearRow_usable, rfl, nearCorners_sqDistance.symm⟩
  have hwithin : nearCorners.boxWithin ⟨7 / 2, 0⟩ (Real.sqrt (169 / 8)) = true := by
    have hroot : 1 / 2 ≤ Real.sqrt (169 / 8) := Real.le_sqrt_of_sq_le (by norm_num)
    generalize Real.sqrt (169 / 8) = distance at hroot ⊢
    rw [Triangle.boxWithin_iff]
    norm_num [Triangle.boxMin_x, Triangle.boxMin_y, Triangle.boxMax_x, Triangle.boxMax_y, nearCorners]
    refine ⟨⟨?_, ?_⟩, ?_, ?_⟩ <;> linarith
  have hfar : fallbackStep .nearestSide .source ⟨7 / 2, 0⟩ none farRow =
      .ok (.more (some ⟨169 / 8, farCorners, ⟨none, farRow.vertical⟩⟩)) :=
    (farRow_offers farCorners_sqDistance).fallbackStep_eq rfl rfl
  have hnear : fallbackStep .nearestSide .source ⟨7 / 2, 0⟩
      (some ⟨169 / 8, farCorners, ⟨none, farRow.vertical⟩⟩) nearRow =
        .ok (.more (some ⟨1 / 4, nearCorners, ⟨none, nearRow.vertical⟩⟩)) :=
    hoffer.fallbackStep_eq hwithin (decide_eq_true (by norm_num))
  simp only [RowStream.scan, sparseStore_rows_beside, readRows, hfar, hnear]
  rfl

theorem sparseStore_find_beside :
    (sparseStore.find none ⟨7 / 2, 0⟩ .forward).stage = .fallback ∧
      (sparseStore.find none ⟨7 / 2, 0⟩ .forward).answer =
        .ok (some ⟨⟨-1 / 2, 3 / 2, 0⟩, ⟨none, nearRow.vertical⟩⟩) := by
  refine sparseStore_find (by norm_num) (by norm_num) (Or.inr le_rfl) sparseStore_scan_beside ?_
  rw [nearCorners_weights]
  norm_num

/-- The near triangle is within reach of that window. -/
theorem nearRow_withinReach :
    nearRow.WithinReach sparseMesh .source ⟨7 / 2, 0⟩ 1 nearCorners := by
  refine ⟨⟨nearCorners, rfl, ⟨Corners.forall_mem_toList.mpr ⟨?_, ?_, ?_⟩,
    ShiftRange.none_bounds nearCorners⟩⟩, ?_⟩
  · constructor <;> norm_num [sparseMesh, nearCorners]
  · constructor <;> norm_num [sparseMesh, nearCorners]
  · constructor <;> norm_num [sparseMesh, nearCorners]
  · have hdistance : sparseMesh.fallback.sqDistance ⟨7 / 2, 0⟩ nearCorners = 1 / 4 :=
      nearCorners_sqDistance
    have hspread : (sparseMesh.sideShift .source).spread = 0 := by
      simp [MeshMetadata.sideShift, ShiftRange.spread, ShiftRange.none]
    rw [hdistance, hspread, zero_div, add_zero, Real.sqrt_le_one]
    norm_num

/-- The near triangle is within reach, and it is the nearest of both. -/
theorem sparse_fallback_selects_nearest :
    nearRow.WithinReach sparseMesh .source ⟨7 / 2, 0⟩ 1 nearCorners ∧
      (sparseStore.find none ⟨7 / 2, 0⟩ .forward).answer =
        .ok (some ⟨⟨-1 / 2, 3 / 2, 0⟩, ⟨none, nearRow.vertical⟩⟩) ∧
      ∃ count k, sparseMesh.vertexCount = some count ∧
        (sparseStore.find none ⟨7 / 2, 0⟩ .forward).queries.map Query.window =
          exactWindow sparseMesh .source ⟨7 / 2, 0⟩ ::
            (List.range (k + 1)).map (outwardWindow sparseMesh count .source ⟨7 / 2, 0⟩) ∧
        ∃ r ∈ [farRow, nearRow], ∃ v, r.Usable .source v ∧
          r.meets (outwardWindow sparseMesh count .source ⟨7 / 2, 0⟩ k) = true ∧
          v.weights? ⟨7 / 2, 0⟩ = some ⟨-1 / 2, 3 / 2, 0⟩ ∧
          r.corrections .source = .ok ⟨none, nearRow.vertical⟩ ∧
          ∀ r' ∈ [farRow, nearRow], ∀ v', r'.Usable .source v' →
            (r'.meets (outwardWindow sparseMesh count .source ⟨7 / 2, 0⟩ k) = true ∨
              r'.WithinReach sparseMesh .source ⟨7 / 2, 0⟩ (firstRadius sparseMesh count * 2 ^ k) v') →
            sparseMesh.fallback.sqDistance ⟨7 / 2, 0⟩ v ≤
              sparseMesh.fallback.sqDistance ⟨7 / 2, 0⟩ v' := by
  obtain ⟨hstage, hanswer⟩ := sparseStore_find_beside
  obtain ⟨count, k, hcount, hwindows, -, hnearest⟩ := fallback_selects_nearest hstage hanswer
  exact ⟨nearRow_withinReach, hanswer, count, k, hcount, hwindows, hnearest⟩

/-- At the origin the first window meets the far triangle only. -/
theorem sparseStore_find_origin :
    (sparseStore.find none ⟨0, 0⟩ .forward).stage = .fallback ∧
      (sparseStore.find none ⟨0, 0⟩ .forward).answer =
        .ok (some ⟨⟨1, -1, 1⟩, ⟨none, farRow.vertical⟩⟩) := by
  have hrows : (sparseStore.query (.around ⟨0, 0⟩ 1)).rows = [farRow] := by
    have hfar := farRow_meets (x := 0) le_rfl (by norm_num)
    have hnear : nearRow.meets (.around ⟨0, 0⟩ 1) = false := by
      rw [Bool.eq_false_iff, ne_eq, nearRow_meets]
      norm_num
    simp [sparseStore, TriangleSource.ofRows, hfar, hnear]
  have hstep : fallbackStep .nearestSide .source ⟨0, 0⟩ none farRow =
      .ok (.more (some ⟨50, farCorners, ⟨none, farRow.vertical⟩⟩)) :=
    (farRow_offers farCorners_sqDistance_origin).fallbackStep_eq rfl rfl
  have hscan : (sparseStore.query (.around ⟨0, 0⟩ 1)).scan
      (fallbackStep .nearestSide .source ⟨0, 0⟩) none =
        (1, .ok (some ⟨50, farCorners, ⟨none, farRow.vertical⟩⟩)) := by
    simp only [RowStream.scan, hrows, readRows, hstep]
    rfl
  refine sparseStore_find le_rfl (by norm_num) (Or.inl zero_le_one) hscan ?_
  rw [farCorners_weights]
  norm_num

/-- The triangle that the outward search selects need not be the nearest one of the mesh: the far
triangle answers for the origin although the near one is usable and nearer. -/
theorem nearest_out_of_reach :
    (sparseStore.find none ⟨0, 0⟩ .forward).stage = .fallback ∧
      (sparseStore.find none ⟨0, 0⟩ .forward).answer =
        .ok (some ⟨⟨1, -1, 1⟩, ⟨none, farRow.vertical⟩⟩) ∧
      ¬ ∃ r ∈ [farRow, nearRow], ∃ v, r.Usable .source v ∧ v.weights? ⟨0, 0⟩ = some ⟨1, -1, 1⟩ ∧
        r.corrections .source = .ok ⟨none, farRow.vertical⟩ ∧
        ∀ r' ∈ [farRow, nearRow], ∀ v', r'.Usable .source v' →
          sparseMesh.fallback.sqDistance ⟨0, 0⟩ v ≤ sparseMesh.fallback.sqDistance ⟨0, 0⟩ v' := by
  refine ⟨sparseStore_find_origin.1, sparseStore_find_origin.2, ?_⟩
  rintro ⟨r, hr, v, husable, hw, -, hle⟩
  have hnear : v.sqDistanceToEdges ⟨0, 0⟩ ≤ 4 :=
    (hle nearRow (by simp) nearCorners nearRow_usable).trans_eq nearCorners_sqDistance_origin
  rcases List.mem_cons.mp hr with rfl | hr
  · -- the far triangle is no nearer than the near one
    rw [husable.vertices_eq farRow_usable.vertices, farCorners_sqDistance_origin] at hnear
    norm_num at hnear
  · -- the weights are not those of the near triangle
    rw [List.mem_singleton.mp hr] at husable
    rw [husable.vertices_eq nearRow_usable.vertices, nearCorners_weights] at hw
    norm_num at hw

end Sparse

end ShiftMesh
