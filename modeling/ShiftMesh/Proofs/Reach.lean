import ShiftMesh.Proofs.Nearest

/-!
# ShiftMesh.Proofs.Reach — how far the outward search looks before it gives up

* `searchOutward_ok`, `Readable.exists_answer`: over a source that can be read no lookup fails.
* `searchOutward_none`: a search that finds nothing has scanned every window whose radius is within the
  limit; `searchOutward_windows`, `fallbackSearch_windows`: it scans no other.
* `UsableWithin`, `LastRound`: a usable row that a window around the search centre meets, and the number
  of doublings after which the search gives up; `not_usableWithin_of_fallbackSearch`: it has found nothing
  only if no such row lies within the last radius.
* `fallback_reaches`: the outward search answers as soon as a usable row is within the last radius, and
  only then.
* `gives_up_within_longer_side`: that radius may be shorter than the longer side of the extent.
-/

namespace ShiftMesh

/-! ## What the search has scanned when it ends -/

section Windows

variable {β α : Type} [Scalar α] [StoredPoint β α] {s : TriangleSource β α}
  {strategy : FallbackStrategy} {side : Side} {p : Point α}

/-- A row that can be read asks the outward search for the next one. -/
theorem exists_fallbackStep_more (strategy : FallbackStrategy) (side : Side) (p : Point α)
    {r : TriangleRow β α} {t : Triangle α} (ht : r.triangle = .ok t) (best : Option (Candidate α)) :
    ∃ next, fallbackStep strategy side p best r = .ok (.more next) := by
  rcases fallbackStep_cases strategy side p best r with ⟨_, -, -, h⟩ | ⟨b, -, -, -, h⟩ | ⟨e, he, -⟩
  · exact ⟨best, h⟩
  · exact ⟨some b, h⟩
  · obtain ⟨v, hv⟩ := TriangleRow.exists_vertices ht side
    obtain ⟨c, hc⟩ := TriangleRow.exists_corrections ht side
    rw [hv, hc] at he
    rcases he with he | he <;> cases he

theorem exists_readRows_exhausted (strategy : FallbackStrategy) (side : Side) (p : Point α) :
    ∀ (rows : List (TriangleRow β α)) (best : Option (Candidate α)),
      (∀ r ∈ rows, ∃ t, r.triangle = .ok t) →
      ∃ n last, readRows (fallbackStep strategy side p) best rows = (n, .exhausted last)
  | [], best, _ => ⟨0, best, rfl⟩
  | r :: rows, best, hrows => by
    obtain ⟨t, ht⟩ := hrows r (by simp)
    obtain ⟨next, hnext⟩ := exists_fallbackStep_more strategy side p ht best
    obtain ⟨n, last, hread⟩ := exists_readRows_exhausted strategy side p rows next
      fun q hq => hrows q (List.mem_cons_of_mem r hq)
    refine ⟨n + 1, last, ?_⟩
    simp only [readRows, hnext, hread]

/-- Over a stream that does not fail and whose rows can be read, a window makes no failure. -/
theorem exists_scan_fallback_ok (strategy : FallbackStrategy) (side : Side) (p : Point α)
    {stream : RowStream β α} (hrows : ∀ r ∈ stream.rows, ∃ t, r.triangle = .ok t)
    (hfail : stream.failure = none) :
    ∃ n best, stream.scan (fallbackStep strategy side p) none = (n, .ok best) := by
  obtain ⟨n, last, hread⟩ := exists_readRows_exhausted strategy side p stream.rows none hrows
  refine ⟨n, last, ?_⟩
  simp only [RowStream.scan, hread, hfail, RowStream.settle]

/-- If no window makes a failure, nor does the search. -/
theorem searchOutward_ok (center : Point α) (limit : α)
    (hscan : ∀ w, ∃ n best,
      (s.query w).scan (fallbackStep s.metadata.fallback side p) none = (n, .ok best))
    (rounds : Nat) (radius : α) : ∃ queries best,
      searchOutward s side p center limit rounds radius = (queries, .ok best) := by
  have hrun := outwardRun s side p center limit rounds radius
  generalize searchOutward s side p center limit rounds radius = search at hrun ⊢
  cases hrun with
  | @gaveUp queries _ _ _ _ _ _ => exact ⟨queries, none, rfl⟩
  | @ended queries _ _ _ _ _ _ _ hlast _ =>
    obtain ⟨n, best, hok⟩ := hscan (.around center (widened radius _))
    rw [hok] at hlast
    cases hlast
    exact ⟨queries, best, rfl⟩

/-- A search that finds nothing has scanned every window up to the first radius beyond the limit. -/
theorem searchOutward_none {center : Point α} {limit : α} (rounds : Nat) (radius : α)
    {queries : List (Query α)}
    (h : searchOutward s side p center limit rounds radius = (queries, .ok none)) :
    ∀ k < rounds, (∀ j ≤ k, ¬ limit < widened radius j) →
      ∃ n, (s.query (.around center (widened radius k))).scan
        (fallbackStep s.metadata.fallback side p) none = (n, .ok none) := by
  intro k hk hlimit
  have hrun := outwardRun s side p center limit rounds radius
  rw [h] at hrun
  cases hrun with
  | @gaveUp _ i _ _ hnone _ hend =>
    refine hnone k (Nat.lt_of_not_le fun hik => ?_)
    rcases hend with hend | hend
    · omega
    · exact hlimit i hik hend
  | ended _ _ _ _ _ hresult => exact absurd rfl hresult

/-- Every window of a search has a radius within the limit, and is one of the rounds. -/
theorem searchOutward_windows {center : Point α} {limit : α} (rounds : Nat) (radius : α) :
    ∀ q ∈ (searchOutward s side p center limit rounds radius).1,
      ∃ k < rounds, ¬ limit < widened radius k ∧ q.window = .around center (widened radius k) := by
  intro q hq
  obtain ⟨k, hk, hlimit, hwindow, -⟩ := (outwardRun s side p center limit rounds radius).of_mem hq
  exact ⟨k, hk, hlimit, hwindow⟩

/-- Every window of the outward search is that of a round whose radius does not exceed the longer side. -/
theorem fallbackSearch_windows :
    ∀ q ∈ (fallbackSearch s side p).1, ∃ count, s.metadata.vertexCount = some count ∧
      ∃ k < maxFallbackRounds, ¬ s.metadata.extent.longerSide < widened (firstRadius s.metadata count) k ∧
        q.window = outwardWindow s.metadata count side p k := by
  intro q hq
  unfold fallbackSearch at hq
  cases hcount : s.metadata.vertexCount with
  | none =>
    simp only [hcount] at hq
    cases hq
  | some count =>
    simp only [hcount] at hq
    exact ⟨count, rfl, searchOutward_windows _ _ q hq⟩

end Windows

/-! ## No lookup fails -/

section Readable

variable {β α : Type} [Scalar α] [StoredPoint β α]

/-- No query of the source fails, and every row that it streams can be read. -/
structure TriangleSource.Readable (s : TriangleSource β α) : Prop where
  rows : ∀ w, ∀ r ∈ (s.query w).rows, ∃ t, r.triangle = .ok t
  failure : ∀ w, (s.query w).failure = none
  stopFailure : ∀ w n, (s.query w).stopFailure n = none

namespace TriangleSource.Readable

variable {s : TriangleSource β α}

theorem exists_exactSearch (h : s.Readable) (side : Side) (p : Point α) :
    ∃ q found, exactSearch s side p = (q, .ok found) :=
  exists_exactSearch_ok (h.rows _) (h.failure _) (h.stopFailure _)

theorem exists_searchOutward (h : s.Readable) (side : Side) (p center : Point α) (limit : α)
    (rounds : Nat) (radius : α) :
    ∃ queries best, searchOutward s side p center limit rounds radius = (queries, .ok best) :=
  searchOutward_ok center limit
    (fun w => exists_scan_fallback_ok _ _ _ (h.rows w) (h.failure w)) rounds radius

/-- Over such a source no lookup fails, whatever the cached triangle. -/
theorem exists_answer (h : s.Readable) (cache : Option (CachedTriangle α)) (p : Point α)
    (d : Direction) : ∃ found, (s.find cache p d).answer = .ok found := by
  have hends := s.find_ends cache p d
  generalize s.find cache p d = lookup at hends ⊢
  cases hends with
  | @cached found _ => exact ⟨some found, rfl⟩
  | @failed q e _ hexact =>
    obtain ⟨q', found, hok⟩ := h.exists_exactSearch (s.metadata.searchedSide d) p
    rw [hok] at hexact
    cases hexact
  | @hit q hit _ _ => exact ⟨some ⟨hit.weights, hit.corrections⟩, rfl⟩
  | missed _ _ _ => exact ⟨none, rfl⟩
  | outward _ _ _ =>
    simp only [fallbackSearch]
    cases s.metadata.vertexCount with
    | none => exact ⟨none, rfl⟩
    | some count =>
      obtain ⟨queries, best, hbest⟩ := h.exists_searchOutward (s.metadata.searchedSide d) p
        (searchCenter s.metadata (s.metadata.searchedSide d) p) s.metadata.extent.longerSide
        maxFallbackRounds (firstRadius s.metadata count)
      simp only [hbest, Except.map]
      exact ⟨_, rfl⟩

end TriangleSource.Readable

variable {m : MeshMetadata α} {rows : List (TriangleRow β α)}

theorem TriangleSource.ofRows_readable (hrows : ∀ r ∈ rows, ∃ t, r.triangle = .ok t) :
    (TriangleSource.ofRows m rows).Readable where
  rows _ r hr := hrows r (TriangleSource.mem_query_ofRows.mp hr).1
  failure _ := rfl
  stopFailure _ _ := rfl

/-- Over rows that can be read no lookup fails, whatever the cached triangle. -/
theorem find_answer_ok (hrows : ∀ r ∈ rows, ∃ t, r.triangle = .ok t)
    (cache : Option (CachedTriangle α)) (p : Point α) (d : Direction) :
    ∃ found, ((TriangleSource.ofRows m rows).find cache p d).answer = .ok found :=
  (TriangleSource.ofRows_readable hrows).exists_answer cache p d

end Readable

/-! ## The last radius -/

section Reach

variable {β : Type} [StoredPoint β ℝ] {m : MeshMetadata ℝ} {rows : List (TriangleRow β ℝ)}

/-- Some usable row has a source box that comes within `reach` of the search centre on both axes. -/
def UsableWithin (m : MeshMetadata ℝ) (rows : List (TriangleRow β ℝ)) (side : Side) (p : Point ℝ)
    (reach : ℝ) : Prop :=
  ∃ r ∈ rows, ∃ v, r.Usable side v ∧ r.meets (.around (searchCenter m side p) reach) = true

/-- The outward search gives up after `k` doublings of its radius: one more would lead beyond the
longer side of the extent, or there is no further round. -/
structure LastRound (m : MeshMetadata ℝ) (count : VertexCount) (k : ℕ) : Prop where
  round : k < maxFallbackRounds
  within : firstRadius m count * 2 ^ k ≤ m.extent.longerSide
  last : k + 1 = maxFallbackRounds ∨ m.extent.longerSide < firstRadius m count * 2 ^ (k + 1)

theorem Window.meets_around_mono {center lo hi : Point ℝ} {a b : ℝ} (hab : a ≤ b)
    (h : (Window.around center a).meets lo hi = true) :
    (Window.around center b).meets lo hi = true := by
  rw [Window.meets_iff] at h ⊢
  simp only [Window.around, Point.sub_x, Point.sub_y, Point.add_x, Point.add_y, Point.diagonal_x,
    Point.diagonal_y] at h ⊢
  obtain ⟨⟨h1, h2⟩, h3, h4⟩ := h
  refine ⟨⟨?_, ?_⟩, ?_, ?_⟩ <;> linarith

theorem UsableWithin.mono {side : Side} {p : Point ℝ} {a b : ℝ} (hab : a ≤ b)
    (h : UsableWithin m rows side p a) : UsableWithin m rows side p b := by
  obtain ⟨r, hr, v, husable, hmeets⟩ := h
  refine ⟨r, hr, v, husable, ?_⟩
  unfold TriangleRow.meets at hmeets ⊢
  cases ht : r.triangle with
  | error e => rfl
  | ok t =>
    simp only [ht] at hmeets
    exact Window.meets_around_mono hab hmeets

theorem extent_pos (hproper : m.extent.isProper = true) :
    0 < m.extent.width ∧ 0 < m.extent.height := by
  simp only [Extent.isProper, Bool.and_eq_true, decide_eq_true_eq] at hproper
  exact ⟨sub_pos.mpr hproper.1, sub_pos.mpr hproper.2⟩

theorem extent_longerSide (e : Extent ℝ) : e.longerSide = max e.width e.height :=
  Scalar.greater_real _ _

theorem firstRadius_real (count : VertexCount) :
    firstRadius m count = Real.sqrt (m.extent.width * m.extent.height / count.val) := rfl

theorem firstRadius_pos (hproper : m.extent.isProper = true) (count : VertexCount) :
    0 < firstRadius m count := by
  obtain ⟨hw, hh⟩ := extent_pos hproper
  have hcount : (0 : ℝ) < count.val := Nat.cast_pos.mpr count.pos
  rw [firstRadius_real]
  exact Real.sqrt_pos.mpr (div_pos (mul_pos hw hh) hcount)

/-- The first radius is within the limit: the area is at most the square of the longer side. -/
theorem firstRadius_le (hproper : m.extent.isProper = true) (count : VertexCount) :
    firstRadius m count ≤ m.extent.longerSide := by
  obtain ⟨hw, hh⟩ := extent_pos hproper
  have hcount : (1 : ℝ) ≤ count.val := Nat.one_le_cast.mpr count.pos
  have hwidth : m.extent.width ≤ m.extent.longerSide := by
    rw [extent_longerSide]; exact le_max_left _ _
  have hheight : m.extent.height ≤ m.extent.longerSide := by
    rw [extent_longerSide]; exact le_max_right _ _
  rw [firstRadius_real]
  refine Real.sqrt_le_iff.mpr ⟨hw.le.trans hwidth, ?_⟩
  calc m.extent.width * m.extent.height / count.val
      ≤ m.extent.width * m.extent.height := div_le_self (mul_pos hw hh).le hcount
    _ ≤ m.extent.longerSide * m.extent.longerSide :=
        mul_le_mul hwidth hheight hh.le (hw.le.trans hwidth)
    _ = m.extent.longerSide ^ 2 := (sq _).symm

/-- Among finitely many rounds that start well there is a last one before the first bad one. -/
theorem exists_last_round {P : ℕ → Prop} (h0 : P 0) :
    ∀ n, ∃ k < n + 1, P k ∧ (k + 1 = n + 1 ∨ ¬ P (k + 1))
  | 0 => ⟨0, Nat.one_pos, h0, Or.inl rfl⟩
  | n + 1 => by
    obtain ⟨k, hk, hPk, hlast⟩ := exists_last_round h0 n
    rcases hlast with hlast | hbad
    · by_cases hnext : P (k + 1)
      · exact ⟨k + 1, by omega, hnext, Or.inl (by omega)⟩
      · exact ⟨k, by omega, hPk, Or.inr hnext⟩
    · exact ⟨k, by omega, hPk, Or.inr hbad⟩

theorem exists_lastRound (hproper : m.extent.isProper = true) (count : VertexCount) :
    ∃ k, LastRound m count k := by
  have h0 : firstRadius m count * 2 ^ 0 ≤ m.extent.longerSide := by
    rw [pow_zero, mul_one]
    exact firstRadius_le hproper count
  obtain ⟨k, hk, hle, hlast⟩ := exists_last_round
    (P := fun k => firstRadius m count * 2 ^ k ≤ m.extent.longerSide) h0 (maxFallbackRounds - 1)
  exact ⟨k, hk, hle, hlast.imp_right not_le.mp⟩

/-- Unless the extent is far longer than wide for its vertices, the last radius is more than half the
longer side. -/
theorem LastRound.half_longerSide_lt {count : VertexCount} {k : ℕ} (h : LastRound m count k)
    (hproper : m.extent.isProper = true)
    (hshape : count.val * m.extent.longerSide <
      2 ^ 40 * min m.extent.width m.extent.height) :
    m.extent.longerSide / 2 < firstRadius m count * 2 ^ k := by
  rcases h.last with hlast | hlast
  · -- the rounds are used up: the first radius is more than the longer side over `2 ^ 20`
    obtain ⟨hw, hh⟩ := extent_pos hproper
    have hcount : (0 : ℝ) < count.val := Nat.cast_pos.mpr count.pos
    have hlonger : 0 < m.extent.longerSide := by
      rw [extent_longerSide]; exact lt_max_of_lt_left hw
    have harea : m.extent.longerSide * min m.extent.width m.extent.height =
        m.extent.width * m.extent.height := by
      rw [extent_longerSide]; exact max_mul_min _ _
    have hfirst : m.extent.longerSide / 2 ^ 20 < firstRadius m count := by
      rw [firstRadius_real]
      refine Real.lt_sqrt_of_sq_lt ?_
      rw [← harea, lt_div_iff₀ hcount, div_pow, ← pow_mul, div_mul_eq_mul_div,
        div_lt_iff₀ (by positivity)]
      calc m.extent.longerSide ^ 2 * count.val
          = m.extent.longerSide * (count.val * m.extent.longerSide) := by ring
        _ < m.extent.longerSide * (2 ^ 40 * min m.extent.width m.extent.height) :=
            mul_lt_mul_of_pos_left hshape hlonger
        _ = m.extent.longerSide * min m.extent.width m.extent.height * 2 ^ (20 * 2) := by ring
    have hk : k = 19 := by
      have hrounds : k + 1 = 20 := hlast
      omega
    rw [hk]
    rw [div_lt_iff₀ (by positivity)] at hfirst
    linarith
  · rw [pow_succ] at hlast
    linarith

/-! ## The search answers within the last radius, and only there -/

variable {cache : Option (CachedTriangle ℝ)} {p : Point ℝ} {d : Direction}

/-- The doubled radii grow. -/
theorem widened_le {radius : ℝ} (hradius : 0 < radius) {j k : ℕ} (h : j ≤ k) :
    widened radius j ≤ widened radius k := by
  rw [widened_real, widened_real]
  exact mul_le_mul_of_nonneg_left (pow_le_pow_right₀ one_le_two h) hradius.le

/-- An outward search that finds nothing has scanned the window of the last radius, which then holds no
usable row. -/
theorem not_usableWithin_of_fallbackSearch {side : Side} {count : VertexCount} {k : ℕ}
    (hcount : m.vertexCount = some count) (hproper : m.extent.isProper = true) (hk : LastRound m count k)
    (h : (fallbackSearch (TriangleSource.ofRows m rows) side p).2 = .ok none) :
    ¬ UsableWithin m rows side p (firstRadius m count * 2 ^ k) := by
  rintro ⟨r, hr, v, hv, hmeets⟩
  simp only [fallbackSearch, TriangleSource.ofRows_metadata, hcount] at h
  generalize hsearch : searchOutward (TriangleSource.ofRows m rows) side p _ _ _ _ = search at h
  obtain ⟨queries, result⟩ := search
  cases result with
  | error e => cases h
  | ok best =>
    cases best with
    | some b =>
      -- a candidate is usable, so it has weights
      obtain ⟨_, -, -, n, hscan⟩ := searchOutward_some _ _ hsearch
      obtain ⟨r, -, hoffer⟩ := scan_fallback_some hscan
      obtain ⟨w, hw⟩ := hoffer.exists_weights p
      simp [Except.map, hw] at h
    | none =>
      have hlimit : ∀ j ≤ k, ¬ m.extent.longerSide < widened (firstRadius m count) j := by
        intro j hj
        have hle := (widened_le (firstRadius_pos hproper count) hj).trans_eq (widened_real _ k)
        exact not_lt.mpr (hle.trans hk.within)
      obtain ⟨n, hscan⟩ := searchOutward_none _ _ hsearch k hk.round hlimit
      rw [widened_real] at hscan
      cases scan_fallback_ranked hscan with
      | unusable hnone => exact hnone r (TriangleSource.mem_query_ofRows.mpr ⟨hr, hmeets⟩) v hv

/-- A usable row within the last radius is answered, by whatever stage. -/
theorem found_of_usableWithin {count : VertexCount} {k : ℕ} (hfallback : m.fallback ≠ .none)
    (hcount : m.vertexCount = some count) (hproper : m.extent.isProper = true)
    (hrows : ∀ r ∈ rows, ∃ t, r.triangle = .ok t) (hk : LastRound m count k)
    (husable : UsableWithin m rows (m.searchedSide d) p (firstRadius m count * 2 ^ k)) :
    ((TriangleSource.ofRows m rows).find cache p d).Found := by
  obtain ⟨found, hanswer⟩ := find_answer_ok hrows cache p d (m := m)
  cases found with
  | some found => exact ⟨found, hanswer⟩
  | none =>
    exfalso
    have hends := (TriangleSource.ofRows m rows).find_ends cache p d
    generalize (TriangleSource.ofRows m rows).find cache p d = lookup at hends hanswer
    cases hends with
    | cached _ => cases hanswer
    | failed _ _ => cases hanswer
    | hit _ _ => cases hanswer
    | missed _ _ hnone => exact hfallback hnone
    | outward _ _ _ => exact not_usableWithin_of_fallbackSearch hcount hproper hk hanswer husable

/-- A match of the outward search is read off a usable row within a radius that is one of the rounds and
does not exceed the longer side. -/
theorem usableWithin_of_found
    (hstage : ((TriangleSource.ofRows m rows).find cache p d).stage = .fallback)
    (hfound : ((TriangleSource.ofRows m rows).find cache p d).Found) :
    ∃ count j, m.vertexCount = some count ∧ j < maxFallbackRounds ∧
      firstRadius m count * 2 ^ j ≤ m.extent.longerSide ∧
      UsableWithin m rows (m.searchedSide d) p (firstRadius m count * 2 ^ j) := by
  obtain ⟨found, hanswer⟩ := hfound
  obtain ⟨_, -, hends, -⟩ := TriangleSource.find_of_stage_fallback hstage
  rw [hends] at hanswer
  obtain ⟨q, hq, r, hr, v, husable, -, -⟩ := exists_row_of_fallbackSearch hanswer
  obtain ⟨count, hcount, j, hj, hle, hwindow⟩ := fallbackSearch_windows q hq
  obtain ⟨hr, hmeets⟩ := TriangleSource.mem_query_ofRows.mp hr
  rw [TriangleSource.ofRows_metadata] at hcount hle hwindow husable
  rw [widened_real] at hle
  rw [hwindow, outwardWindow_real] at hmeets
  exact ⟨count, j, hcount, hj, not_lt.mp hle, r, hr, v, husable, hmeets⟩

/-- **How far the outward search reaches.**  Over rows that can be read, whatever the cached triangle, a
lookup with a fallback does not fail.  It answers if a usable row lies within the last radius, and the
outward search answers only then; so it answers if a usable row lies within half the longer side of the
extent, unless the extent is far longer than wide for its vertices. -/
theorem fallback_reaches {count : VertexCount} (hfallback : m.fallback ≠ .none)
    (hcount : m.vertexCount = some count) (hproper : m.extent.isProper = true)
    (hrows : ∀ r ∈ rows, ∃ t, r.triangle = .ok t) (cache : Option (CachedTriangle ℝ))
    (p : Point ℝ) (d : Direction) :
    ∃ k, LastRound m count k ∧
      (∃ found, ((TriangleSource.ofRows m rows).find cache p d).answer = .ok found) ∧
      (UsableWithin m rows (m.searchedSide d) p (firstRadius m count * 2 ^ k) →
        ((TriangleSource.ofRows m rows).find cache p d).Found) ∧
      (((TriangleSource.ofRows m rows).find cache p d).stage = .fallback →
        ((TriangleSource.ofRows m rows).find cache p d).Found →
        UsableWithin m rows (m.searchedSide d) p (firstRadius m count * 2 ^ k)) ∧
      (count.val * m.extent.longerSide < 2 ^ 40 * min m.extent.width m.extent.height →
        UsableWithin m rows (m.searchedSide d) p (m.extent.longerSide / 2) →
        ((TriangleSource.ofRows m rows).find cache p d).Found) := by
  obtain ⟨k, hk⟩ := exists_lastRound hproper count
  refine ⟨k, hk, find_answer_ok hrows cache p d, ?_, fun hstage hfound => ?_, fun hshape hhalf => ?_⟩
  · exact found_of_usableWithin hfallback hcount hproper hrows hk
  · obtain ⟨count', j, hcount', hj, hle, husable⟩ := usableWithin_of_found hstage hfound
    rw [hcount] at hcount'
    injection hcount' with hcount'
    subst hcount'
    -- the round of the match is not after the last one
    have hjk : j ≤ k := by
      rcases hk.last with hlast | hlast
      · omega
      · by_contra hlt
        have hgrow := widened_le (firstRadius_pos hproper count) (Nat.succ_le_of_lt (not_le.mp hlt))
        rw [widened_real, widened_real, Nat.succ_eq_add_one] at hgrow
        linarith
    have hgrow := widened_le (firstRadius_pos hproper count) hjk
    rw [widened_real, widened_real] at hgrow
    exact husable.mono hgrow
  · have hreach := (hk.half_longerSide_lt hproper hshape).le
    exact found_of_usableWithin hfallback hcount hproper hrows hk (hhalf.mono hreach)

end Reach

/-! ## A triangle in a corner of the extent -/

section Corner

def cornerCorners : Triangle ℝ := ⟨.whole 9 0, .whole 10 0, .whole 10 1⟩

def cornerRow : TriangleRow (Point ℝ) ℝ := ⟨cornerCorners, none, some (.offset (.all 0))⟩

noncomputable def cornerStore : TriangleSource (Point ℝ) ℝ := .ofRows sparseMesh [cornerRow]

theorem cornerRow_usable : cornerRow.Usable .source cornerCorners := by
  refine ⟨rfl, Triangle.isDegenerate_eq_false_iff.mpr ⟨Corners.forall_mem_toList.mpr ?_, ?_⟩⟩
  · norm_num [Triangle.sqEdgeLengths, Point.sqDistance_real, Scalar.tolerance_real, cornerCorners]
  · rw [Scalar.tolerance_real, Triangle.det_real, Scalar.abs_real]
    norm_num [cornerCorners]

theorem cornerRow_readable : ∀ r ∈ [cornerRow], ∃ t, r.triangle = .ok t := by
  intro r hr
  rw [List.mem_singleton.mp hr]
  exact ⟨cornerCorners, rfl⟩

theorem sparseMesh_isProper : sparseMesh.extent.isProper = true := by
  norm_num [Extent.isProper, sparseMesh]

theorem sparseMesh_longerSide : sparseMesh.extent.longerSide = 10 := by
  norm_num [extent_longerSide, Extent.width, Extent.height, sparseMesh]

/-- A square window around a point of the extent meets the corner if it comes near on both axes. -/
theorem cornerRow_meets {x y reach : ℝ} (hx : 0 ≤ x ∧ x ≤ 10) (hy : 0 ≤ y ∧ y ≤ 10) :
    cornerRow.meets (.around (searchCenter sparseMesh .source ⟨x, y⟩) reach) = true ↔
      (x - reach ≤ 10 ∧ 9 ≤ x + reach) ∧ y - reach ≤ 1 ∧ 0 ≤ y + reach := by
  have hcenter : searchCenter sparseMesh .source ⟨x, y⟩ = ⟨x, y⟩ := by
    refine Point.eq_of_coordinates ?_ ?_ <;>
      simp [searchCenter_eq, extent_clamp_x, extent_clamp_y, sparseMesh, MeshMetadata.sideShift,
        ShiftRange.none, ShiftRange.midpoint, hx, hy]
  rw [hcenter, TriangleRow.meets_eq (t := cornerCorners) rfl, Window.meetsTriangle, Window.meets_iff]
  norm_num [Window.around, Triangle.boxMin_x, Triangle.boxMin_y, Triangle.boxMax_x,
    Triangle.boxMax_y, cornerCorners]

/-- The exact window of the opposite corner meets no triangle. -/
theorem cornerStore_exactWindow :
    (cornerStore.query (exactWindow sparseMesh .source ⟨0, 10⟩)).rows = [] := by
  have hmeets : cornerRow.meets (exactWindow sparseMesh .source ⟨0, 10⟩) = false := by
    rw [Bool.eq_false_iff, ne_eq, TriangleRow.meets_eq (t := cornerCorners) rfl,
      Window.meetsTriangle, Window.meets_iff]
    norm_num [exactWindow, Window.around, Scalar.tolerance_real, Triangle.boxMin_x,
      Triangle.boxMin_y, Triangle.boxMax_x, Triangle.boxMax_y, cornerCorners]
  simp [cornerStore, TriangleSource.ofRows, hmeets]

/-- From the middle of the extent the corner is within half the longer side. -/
theorem corner_fallback_reaches :
    UsableWithin sparseMesh [cornerRow] .source ⟨5, 5⟩ (sparseMesh.extent.longerSide / 2) ∧
      ∃ k, LastRound sparseMesh sparseCount k ∧ (cornerStore.find none ⟨5, 5⟩ .forward).Found := by
  have hhalf : UsableWithin sparseMesh [cornerRow] .source ⟨5, 5⟩
      (sparseMesh.extent.longerSide / 2) := by
    refine ⟨cornerRow, List.mem_singleton_self _, cornerCorners, cornerRow_usable, ?_⟩
    rw [sparseMesh_longerSide, cornerRow_meets (by norm_num) (by norm_num)]
    norm_num
  have hshape : sparseCount.val * sparseMesh.extent.longerSide <
      2 ^ 40 * min sparseMesh.extent.width sparseMesh.extent.height := by
    rw [sparseMesh_longerSide]
    norm_num [sparseCount, sparseMesh, Extent.width, Extent.height]
  have hcount : sparseMesh.vertexCount = some sparseCount := rfl
  obtain ⟨k, hk, -, -, -, hfound⟩ := fallback_reaches (by decide) hcount sparseMesh_isProper
    cornerRow_readable none ⟨5, 5⟩ .forward
  exact ⟨hhalf, k, hk, hfound hshape hhalf⟩

/-- From the opposite corner the radii 1, 2, 4 and 8 are too short and 16 exceeds the longer side: the
search gives up, although the extent holds the triangle and the triangle is within the longer side. -/
theorem gives_up_within_longer_side :
    sparseMesh.Describes .source cornerCorners cornerCorners ∧
      UsableWithin sparseMesh [cornerRow] .source ⟨0, 10⟩ sparseMesh.extent.longerSide ∧
      (cornerStore.find none ⟨0, 10⟩ .forward).stage = .fallback ∧
      (cornerStore.find none ⟨0, 10⟩ .forward).answer = .ok none := by
  have hmiss : ∀ r ∈ (cornerStore.query (exactWindow sparseMesh .source ⟨0, 10⟩)).rows,
      r.Misses .source ⟨0, 10⟩ := by
    rw [cornerStore_exactWindow]
    simp
  have hstage : (cornerStore.find none ⟨0, 10⟩ .forward).stage = .fallback := by
    rw [(Lookup.Ends.outward rfl (exactSearch_of_misses hmiss rfl) (by decide)).find_eq]
  refine ⟨⟨Corners.forall_mem_toList.mpr ⟨?_, ?_, ?_⟩, ShiftRange.none_bounds _⟩, ?_, hstage, ?_⟩
  · constructor <;> norm_num [sparseMesh, cornerCorners]
  · constructor <;> norm_num [sparseMesh, cornerCorners]
  · constructor <;> norm_num [sparseMesh, cornerCorners]
  · refine ⟨cornerRow, List.mem_singleton_self _, cornerCorners, cornerRow_usable, ?_⟩
    rw [sparseMesh_longerSide, cornerRow_meets (by norm_num) (by norm_num)]
    norm_num
  · obtain ⟨found, hanswer⟩ := find_answer_ok (m := sparseMesh) cornerRow_readable none ⟨0, 10⟩ .forward
    cases found with
    | none => exact hanswer
    | some found =>
      exfalso
      obtain ⟨count, j, hcount, -, hle, r, hr, v, -, hmeets⟩ :=
        usableWithin_of_found hstage ⟨found, hanswer⟩
      have hcount' : sparseCount = count := Option.some.inj hcount
      rw [← hcount', sparseMesh_firstRadius, sparseMesh_longerSide, one_mul] at hle
      rw [List.mem_singleton.mp hr, ← hcount', sparseMesh_firstRadius, one_mul] at hmeets
      have hnear := ((cornerRow_meets (by norm_num) (by norm_num)).mp hmeets).1.2
      -- no power of two lies between nine and ten
      rw [zero_add] at hnear
      have hlow : 9 ≤ 2 ^ j := by exact_mod_cast hnear
      have hhigh : 2 ^ j ≤ 10 := by exact_mod_cast hle
      rcases Nat.lt_or_ge j 4 with hj | hj
      · have := Nat.pow_le_pow_right Nat.two_pos (Nat.le_of_lt_succ hj)
        omega
      · have := Nat.pow_le_pow_right Nat.two_pos hj
        omega

end Corner

end ShiftMesh
