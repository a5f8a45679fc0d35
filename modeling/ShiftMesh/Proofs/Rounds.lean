import ShiftMesh.Proofs.Reach

/-!
# ShiftMesh.Proofs.Rounds — the queries of a lookup, in exact arithmetic

A lookup that the cached triangle does not answer issues the exact window.  If no row hits there and
the mesh declares a fallback, it goes on with squares around one centre, each twice as wide as the one
before.

* `TriangleSource.StreamsUsable`: a window streams a triangle that may be chosen.
* `OutwardRounds`: the squares that a lookup has queried, why it stopped after the last one, and what
  its answer says about them.
* `TriangleSource.Readable.exists_outwardRounds`: over a source that can be read, every outward search
  has such rounds.
* `queries_of_lookup`: which of the two happens, for every lookup.
-/

namespace ShiftMesh

/-- A window lies within another one. -/
structure Window.Within (w w' : Window ℝ) : Prop where
  min_x : w'.min.x ≤ w.min.x
  min_y : w'.min.y ≤ w.min.y
  max_x : w.max.x ≤ w'.max.x
  max_y : w.max.y ≤ w'.max.y

theorem Window.around_within (center : Point ℝ) {a b : ℝ} (hab : a ≤ b) :
    (Window.around center a).Within (Window.around center b) := by
  constructor <;> simp only [Window.around, Point.sub_x, Point.sub_y, Point.add_x, Point.add_y,
    Point.diagonal_x, Point.diagonal_y] <;> linarith

variable {β : Type} [StoredPoint β ℝ] {s : TriangleSource β ℝ} {side : Side} {p : Point ℝ}

/-! ## Windows with and without a usable triangle -/

/-- The window streams a row whose corners on the side form a triangle that may be chosen. -/
def TriangleSource.StreamsUsable (s : TriangleSource β ℝ) (side : Side) (w : Window ℝ) : Prop :=
  ∃ r ∈ (s.query w).rows, ∃ v, r.Usable side v

theorem not_streamsUsable_of_scan {strategy : FallbackStrategy} {w : Window ℝ} {n : ℕ}
    (h : (s.query w).scan (fallbackStep strategy side p) none = (n, .ok none)) :
    ¬ s.StreamsUsable side w := by
  rintro ⟨r, hr, v, hv⟩
  cases scan_fallback_ranked h with
  | unusable hnone => exact hnone r hr v hv

theorem streamsUsable_of_scan {strategy : FallbackStrategy} {w : Window ℝ} {n : ℕ} {b : Candidate ℝ}
    (h : (s.query w).scan (fallbackStep strategy side p) none = (n, .ok (some b))) :
    s.StreamsUsable side w := by
  obtain ⟨r, hr, hoffer⟩ := scan_fallback_some h
  exact ⟨r, hr, b.vertices, hoffer.toUsable⟩

/-! ## The rounds of an outward search -/

/-- What an outward search with this answer has queried: `k + 1` squares around the centre, from
half-width `radius` on, with `limit` as the greatest half-width. -/
structure OutwardRounds (s : TriangleSource β ℝ) (side : Side) (center : Point ℝ)
    (radius limit : ℝ) (answer : Except MeshError (Option (TriangleMatch ℝ)))
    (windows : List (Window ℝ)) (k : ℕ) : Prop where
  windows_eq : windows = (List.range (k + 1)).map fun j => .around center (radius * 2 ^ j)
  rounds : k + 1 ≤ maxFallbackRounds
  /-- Each window lies within the next one. -/
  nested : ∀ j < k, (Window.around center (radius * 2 ^ j)).Within
    (.around center (radius * 2 ^ (j + 1)))
  within : ∀ j ≤ k, radius * 2 ^ j ≤ limit
  /-- Only the last window can stream a usable triangle. -/
  barren : ∀ j < k, ¬ s.StreamsUsable side (.around center (radius * 2 ^ j))
  answered : ∃ found, answer = .ok found
  answer_none_iff : answer = .ok none ↔
    ∀ j ≤ k, ¬ s.StreamsUsable side (.around center (radius * 2 ^ j))
  /-- A search that gives up before the rounds are used up could not double its radius again. -/
  last : answer = .ok none → k + 1 < maxFallbackRounds → limit < 2 * (radius * 2 ^ k)

theorem nested_of_pos {radius : ℝ} (hradius : 0 < radius) (center : Point ℝ) (j : ℕ) :
    (Window.around center (radius * 2 ^ j)).Within (.around center (radius * 2 ^ (j + 1))) := by
  refine Window.around_within center ?_
  have hpos : 0 < radius * 2 ^ j := mul_pos hradius (pow_pos two_pos j)
  rw [pow_succ, ← mul_assoc]
  linarith

/-- Over a source that can be read, an outward search that starts within the limit has at least one
round. -/
theorem TriangleSource.Readable.exists_rounds (hs : s.Readable) (side : Side) (p center : Point ℝ)
    {radius limit : ℝ} (hradius : 0 < radius) (hlimit : radius ≤ limit) :
    ∃ k queries best,
      searchOutward s side p center limit maxFallbackRounds radius = (queries, .ok best) ∧
      OutwardRounds s side center radius limit
        (.ok (best.bind fun b => (b.vertices.weights? p).map fun w => ⟨w, b.corrections⟩))
        (queries.map Query.window) k := by
  obtain ⟨queries, best, hsearch⟩ := hs.exists_searchOutward side p center limit maxFallbackRounds
    radius
  have hrun := outwardRun s side p center limit maxFallbackRounds radius
  rw [hsearch] at hrun
  have hbarren : ∀ {j}, (∃ n, (s.query (.around center (radius * 2 ^ j))).scan
      (fallbackStep s.metadata.fallback side p) none = (n, .ok none)) →
      ¬ s.StreamsUsable side (.around center (radius * 2 ^ j)) :=
    fun ⟨_, hscan⟩ => not_streamsUsable_of_scan hscan
  cases hrun with
  | @gaveUp _ rounds hwindows hwithin hnone hrounds hend =>
    simp only [widened_real] at hwindows hwithin hnone hend
    -- the first radius is within the limit, so there was a round
    obtain ⟨k, rfl⟩ : ∃ k, rounds = k + 1 := by
      refine Nat.exists_eq_succ_of_ne_zero fun hzero => ?_
      rw [hzero] at hend
      rcases hend with hend | hend
      · exact absurd hend (by decide)
      · rw [pow_zero, mul_one] at hend
        exact hlimit.not_gt hend
    have hnever : ∀ j ≤ k, ¬ s.StreamsUsable side (.around center (radius * 2 ^ j)) :=
      fun j hj => hbarren (hnone j (Nat.lt_succ_of_le hj))
    refine ⟨k, queries, none, hsearch, hwindows, hrounds, fun j _ => nested_of_pos hradius center j,
      fun j hj => not_lt.mp (hwithin j (Nat.lt_succ_of_le hj)), fun j hj => hnever j hj.le,
      ⟨none, rfl⟩, iff_of_true rfl hnever, fun _ hk => ?_⟩
    rcases hend with hend | hend
    · exact absurd hend hk.ne
    · rw [pow_succ] at hend
      linarith
  | @ended _ k n _ hwindows hwithin hnone hrounds hscan hresult =>
    simp only [widened_real] at hwindows hwithin hnone hscan
    cases best with
    | none => exact absurd rfl hresult
    | some b =>
      -- the candidate is usable, so it answers
      obtain ⟨r, hr, hoffer⟩ := scan_fallback_some hscan
      obtain ⟨w, hw⟩ := hoffer.exists_weights p
      have hanswer : ((some b).bind fun b : Candidate ℝ =>
          (b.vertices.weights? p).map fun w => (⟨w, b.corrections⟩ : TriangleMatch ℝ)) =
          some ⟨w, b.corrections⟩ := by
        rw [Option.bind_some, hw, Option.map_some]
      refine ⟨k, queries, some b, hsearch, ?_⟩
      rw [hanswer]
      refine ⟨hwindows, hrounds, fun j _ => nested_of_pos hradius center j,
        fun j hj => not_lt.mp (hwithin j hj), fun j hj => hbarren (hnone j hj), ⟨_, rfl⟩,
        iff_of_false nofun fun hnever => ?_, nofun⟩
      exact hnever k le_rfl (streamsUsable_of_scan hscan)

/-! ## The queries of a lookup -/

/-- **The queries of a lookup.**  Over a source that can be read, with a proper extent and an advertised
vertex count, a lookup that the cached triangle does not answer issues the exact window first.  It
issues no other one if a row hits there, or if the mesh has no fallback; otherwise it goes on with
squares of doubling half-width, at least one and at most `maxFallbackRounds` of them, and has no answer
exactly if none of them streams a usable triangle. -/
theorem queries_of_lookup (hs : s.Readable) {count : VertexCount}
    (hcount : s.metadata.vertexCount = some count) (hproper : s.metadata.extent.isProper = true)
    {cache : Option (CachedTriangle ℝ)} {d : Direction} (hcache : cachedMatch? cache p d = none) :
    let m := s.metadata
    let side := m.searchedSide d
    let hit := ∃ r ∈ (s.query (exactWindow m side p)).rows, ∃ found, r.Hits side p found
    (hit ∨ m.fallback = .none → (s.find cache p d).stage = .exact ∧
      (s.find cache p d).queries.map Query.window = [exactWindow m side p]) ∧
    (¬ hit → m.fallback ≠ .none → (s.find cache p d).stage = .fallback ∧
      ∃ k windows, (s.find cache p d).queries.map Query.window = exactWindow m side p :: windows ∧
        OutwardRounds s side (m.extent.clamp (p - (m.sideShift side).midpoint))
          (Real.sqrt (m.extent.width * m.extent.height / count.val))
          (max m.extent.width m.extent.height) (s.find cache p d).answer windows k) := by
  intro m side hit
  have hends := s.find_ends cache p d
  generalize s.find cache p d = lookup at hends ⊢
  have hnohit : ∀ {q}, exactSearch s side p = (q, .ok none) → ¬ hit := by
    rintro q hexact ⟨r, hr, found, hfound⟩
    exact hfound.not_misses (exactSearch_none hexact r hr)
  cases hends with
  | cached hfound => rw [hcache] at hfound; cases hfound
  | @failed q e _ hexact =>
    obtain ⟨q', found, hok⟩ := hs.exists_exactSearch side p
    rw [hok] at hexact
    cases hexact
  | @hit q found _ hexact =>
    refine ⟨fun _ => ⟨rfl, congrArg (· :: []) (exactSearch_window hexact)⟩, fun hno => ?_⟩
    obtain ⟨r, hr, hfound⟩ := exists_hits_of_exactSearch hexact
    rw [exactSearch_window hexact] at hr
    exact absurd ⟨r, hr, found, hfound⟩ hno
  | @missed q _ hexact hnone =>
    exact ⟨fun _ => ⟨rfl, congrArg (· :: []) (exactSearch_window hexact)⟩,
      fun _ hfallback => absurd hnone hfallback⟩
  | @outward q _ hexact hfallback =>
    refine ⟨fun h => (h.elim (hnohit hexact) hfallback).elim, fun _ _ => ⟨rfl, ?_⟩⟩
    obtain ⟨k, queries, best, hsearch, hrounds⟩ := hs.exists_rounds side p (searchCenter m side p)
      (firstRadius_pos hproper count) (firstRadius_le hproper count)
    have hsearched : fallbackSearch s side p = (queries, .ok (best.bind fun b =>
        (b.vertices.weights? p).map fun w => ⟨w, b.corrections⟩)) := by
      simp only [fallbackSearch, hcount, m, hsearch, Except.map]
    rw [searchCenter_eq, extent_longerSide, firstRadius_real] at hrounds
    refine ⟨k, queries.map Query.window, ?_, ?_⟩
    · rw [hsearched, List.map_cons, exactSearch_window hexact]
    · rw [hsearched]
      exact hrounds

/-- From the opposite corner of its extent, no window reaches the triangle in the corner. -/
theorem corner_queries :
    cornerStore.Readable ∧ sparseMesh.extent.isProper = true ∧
      (cornerStore.find none ⟨0, 10⟩ .forward).stage = .fallback ∧
      ∃ k windows, (cornerStore.find none ⟨0, 10⟩ .forward).queries.map Query.window =
          exactWindow sparseMesh .source ⟨0, 10⟩ :: windows ∧
        OutwardRounds cornerStore .source
          (sparseMesh.extent.clamp (⟨0, 10⟩ - (sparseMesh.sideShift .source).midpoint))
          (Real.sqrt (sparseMesh.extent.width * sparseMesh.extent.height / sparseCount.val))
          (max sparseMesh.extent.width sparseMesh.extent.height)
          (cornerStore.find none ⟨0, 10⟩ .forward).answer windows k := by
  have hreadable : cornerStore.Readable := TriangleSource.ofRows_readable cornerRow_readable
  have hnohit : ¬ ∃ r ∈ (cornerStore.query (exactWindow sparseMesh .source ⟨0, 10⟩)).rows,
      ∃ found, r.Hits .source ⟨0, 10⟩ found := by
    rw [cornerStore_exactWindow]
    simp
  have hcount : cornerStore.metadata.vertexCount = some sparseCount := rfl
  have hcache : cachedMatch? none (⟨0, 10⟩ : Point ℝ) .forward = none := rfl
  have hrounds := (queries_of_lookup hreadable hcount sparseMesh_isProper hcache).2 hnohit (by decide)
  exact ⟨hreadable, sparseMesh_isProper, hrounds⟩

end ShiftMesh
