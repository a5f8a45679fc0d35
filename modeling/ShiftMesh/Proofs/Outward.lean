import ShiftMesh.Proofs.Scan

/-!
# ShiftMesh.Proofs.Outward — what the outward search has met when it ends

* `TriangleRow.Usable`, `TriangleRow.Offers`: a triangle that may be chosen, and the candidate that a
  row can become.
* `fallbackStep_cases`: a row is passed over, becomes the best candidate, or cannot be read.
* `outwardWindow`: the windows of the outward search, each twice as wide as the one before.
* `scan_fallback_some`: the best candidate of a window is offered by one of its rows.
* `OutwardRun`: the ways in which the search ends, with the windows that it has queried; `outwardRun`
  says so of `searchOutward`.  `OutwardRun.of_mem`, `OutwardRun.exists_scan`: what each query of the run
  has found, and which one gave the result.
* `searchOutward_some`, `fallbackSearch_some`: a match comes from the last window queried;
  `exists_row_of_fallbackSearch`: it is read off one of its rows.
-/

namespace ShiftMesh

variable {β α : Type} [Scalar α] [StoredPoint β α]

/-! ## One row -/

/-- The corners of the row on a side can be read and form a triangle that the outward search may
choose. -/
structure TriangleRow.Usable (r : TriangleRow β α) (side : Side) (v : Triangle α) : Prop where
  vertices : r.vertices side = .ok v
  usable : v.isDegenerate = false

/-- The candidate that a row can become: its corners are usable, its corrections can be read, and
the candidate is ranked by the strategy's measure. -/
structure TriangleRow.Offers (r : TriangleRow β α) (strategy : FallbackStrategy) (side : Side)
    (p : Point α) (b : Candidate α) : Prop extends r.Usable side b.vertices where
  corrections : r.corrections side = .ok b.corrections
  sqDistance : b.sqDistance = strategy.sqDistance p b.vertices

/-- What a row does to the best candidate so far. -/
theorem fallbackStep_cases (strategy : FallbackStrategy) (side : Side) (p : Point α)
    (best : Option (Candidate α)) (r : TriangleRow β α) :
    (∃ v, r.vertices side = .ok v ∧
      (withinBest best p v = false ∨ v.isDegenerate = true ∨
        beatsBest best (strategy.sqDistance p v) = false) ∧
      fallbackStep strategy side p best r = .ok (.more best)) ∨
    (∃ b, r.Offers strategy side p b ∧ withinBest best p b.vertices = true ∧
      beatsBest best b.sqDistance = true ∧
      fallbackStep strategy side p best r = .ok (.more (some b))) ∨
    (∃ e, (r.vertices side = .error e ∨ r.corrections side = .error e) ∧
      fallbackStep strategy side p best r = .error (.decode e)) := by
  unfold fallbackStep
  cases hv : r.vertices side with
  | error e => exact Or.inr (Or.inr ⟨e, Or.inl rfl, rfl⟩)
  | ok v =>
    by_cases hskip : (!withinBest best p v || v.isDegenerate) = true
    · refine Or.inl ⟨v, rfl, ?_, by simp only [if_pos hskip]⟩
      rw [Bool.or_eq_true, Bool.not_eq_true'] at hskip
      exact hskip.imp_right Or.inl
    · simp only [if_neg hskip]
      rw [Bool.or_eq_true, Bool.not_eq_true', not_or, Bool.not_eq_false, Bool.not_eq_true] at hskip
      by_cases hbeats : beatsBest best (strategy.sqDistance p v) = true
      · simp only [if_pos hbeats]
        cases hc : r.corrections side with
        | error e => exact Or.inr (Or.inr ⟨e, Or.inr rfl, rfl⟩)
        | ok c =>
          exact Or.inr (Or.inl ⟨⟨strategy.sqDistance p v, v, c⟩, ⟨⟨hv, hskip.2⟩, hc, rfl⟩, hskip.1,
            hbeats, rfl⟩)
      · rw [if_neg hbeats]
        exact Or.inl ⟨v, rfl, Or.inr (Or.inr (Bool.not_eq_true _ ▸ hbeats)), rfl⟩

/-- A row that offers a better candidate than the best so far makes it the best one. -/
theorem TriangleRow.Offers.fallbackStep_eq {r : TriangleRow β α} {strategy : FallbackStrategy}
    {side : Side} {p : Point α} {b : Candidate α} (h : r.Offers strategy side p b)
    {best : Option (Candidate α)} (hwithin : withinBest best p b.vertices = true)
    (hbeats : beatsBest best b.sqDistance = true) :
    fallbackStep strategy side p best r = .ok (.more (some b)) := by
  have hskip : ¬ (!withinBest best p b.vertices || b.vertices.isDegenerate) = true := by
    rw [hwithin, h.usable]
    decide
  simp only [fallbackStep, h.vertices, if_neg hskip, ← h.sqDistance, if_pos hbeats, h.corrections]

/-- A triangle that may be chosen spans an area, so every point has weights. -/
theorem TriangleRow.Usable.exists_weights {r : TriangleRow β α} {side : Side} {v : Triangle α}
    (h : r.Usable side v) (p : Point α) : ∃ w, v.weights? p = some w := by
  have harea := (Triangle.isDegenerate_eq_false_iff.mp h.usable).2
  exact ⟨_, by rw [Triangle.weights?, if_neg harea]⟩

/-- The outward search never stops within a window. -/
theorem fallbackStep_ne_stop {strategy : FallbackStrategy} {side : Side} {p : Point α}
    {best next : Option (Candidate α)} {r : TriangleRow β α} :
    fallbackStep strategy side p best r ≠ .ok (.stop next) := by
  rcases fallbackStep_cases strategy side p best r with ⟨_, -, -, h⟩ | ⟨_, -, -, -, h⟩ | ⟨_, -, h⟩ <;>
    rw [h] <;> simp

/-! ## The rows of a window -/

variable {s : TriangleSource β α} {strategy : FallbackStrategy} {side : Side} {p : Point α}

/-- The best candidate of a window is offered by a row of the window. -/
theorem scan_fallback_some {stream : RowStream β α} {n : Nat} {b : Candidate α}
    (h : stream.scan (fallbackStep strategy side p) none = (n, .ok (some b))) :
    ∃ r ∈ stream.rows, r.Offers strategy side p b := by
  have hread := readRows_of_scan (fun _ _ _ => fallbackStep_ne_stop) h
  -- the rows read so far hold one that offers the best candidate so far
  have hinv := readRows_inv (I := fun pre best => ∀ b, best = some b →
      ∃ r ∈ pre, r.Offers strategy side p b) (fun pre best r next hI hs b hb => ?_)
    stream.rows [] none (by simp) hread
  · exact hinv b rfl
  · rcases fallbackStep_cases strategy side p best r with ⟨_, -, -, h⟩ | ⟨b', hb', -, -, h⟩ |
      ⟨_, -, h⟩ <;> rw [h] at hs
    · injection hs with hs
      injection hs with hs
      obtain ⟨r', hr', ho⟩ := hI b (hs.trans hb)
      exact ⟨r', List.mem_append_left _ hr', ho⟩
    · injection hs with hs
      injection hs with hs
      rw [← hs] at hb
      injection hb with hb
      exact ⟨r, by simp, hb ▸ hb'⟩
    · cases hs

/-! ## The windows of a search -/

/-- A radius after so many doublings. -/
def widened (radius : α) : Nat → α
  | 0 => radius
  | k + 1 => widened (radius * Scalar.ofNat 2) k

/-- The windows of the outward search, by the number of doublings. -/
def outwardWindow (m : MeshMetadata α) (count : VertexCount) (side : Side) (p : Point α)
    (k : Nat) : Window α :=
  .around (searchCenter m side p) (widened (firstRadius m count) k)

/-- The ways in which an outward search ends.  It has queried windows of radii within the limit, each
twice the one before, and all but the last held no candidate; the last one held none either if the
search gave up, and otherwise its outcome is that of the search. -/
inductive OutwardRun (s : TriangleSource β α) (side : Side) (p center : Point α) (limit : α)
    (rounds : Nat) (radius : α) : List (Query α) × Except MeshError (Option (Candidate α)) → Prop
  | gaveUp {queries k}
      (hwindows : queries.map Query.window =
        (List.range k).map fun j => .around center (widened radius j))
      (hwithin : ∀ j < k, ¬ limit < widened radius j)
      (hnone : ∀ j < k, ∃ n, (s.query (.around center (widened radius j))).scan
        (fallbackStep s.metadata.fallback side p) none = (n, .ok none))
      (hrounds : k ≤ rounds) (hend : k = rounds ∨ limit < widened radius k) :
      OutwardRun s side p center limit rounds radius (queries, .ok none)
  | ended {queries k n result}
      (hwindows : queries.map Query.window =
        (List.range (k + 1)).map fun j => .around center (widened radius j))
      (hwithin : ∀ j ≤ k, ¬ limit < widened radius j)
      (hnone : ∀ j < k, ∃ n, (s.query (.around center (widened radius j))).scan
        (fallbackStep s.metadata.fallback side p) none = (n, .ok none))
      (hrounds : k < rounds)
      (hscan : (s.query (.around center (widened radius k))).scan
        (fallbackStep s.metadata.fallback side p) none = (n, result))
      (hresult : result ≠ .ok none) :
      OutwardRun s side p center limit rounds radius (queries, result)

/-- One more window without a candidate in front. -/
theorem OutwardRun.cons {center : Point α} {limit radius : α} {rounds n : Nat}
    {queries : List (Query α)} {result : Except MeshError (Option (Candidate α))}
    (h : OutwardRun s side p center limit rounds (radius * Scalar.ofNat 2) (queries, result))
    (hlimit : ¬ limit < radius)
    (hscan : (s.query (.around center radius)).scan (fallbackStep s.metadata.fallback side p) none =
      (n, .ok none)) :
    OutwardRun s side p center limit (rounds + 1) radius
      (⟨.around center radius, n⟩ :: queries, result) := by
  -- the windows and the bounds of the run, with the first radius in front of the others
  have hcons : ∀ {k}, queries.map Query.window = (List.range k).map (fun j =>
      Window.around center (widened (radius * Scalar.ofNat 2) j)) →
      ((⟨.around center radius, n⟩ : Query α) :: queries).map Query.window =
        (List.range (k + 1)).map fun j => Window.around center (widened radius j) := by
    intro k hwindows
    rw [List.range_succ_eq_map, List.map_cons, List.map_cons, List.map_map]
    exact congrArg (List.cons _) hwindows
  have hfirst : ∀ {P : Nat → Prop} {k}, P 0 → (∀ j < k, P (j + 1)) → ∀ j < k + 1, P j := by
    intro P k h0 hsucc j hj
    cases j with
    | zero => exact h0
    | succ j => exact hsucc j (Nat.lt_of_succ_lt_succ hj)
  cases h with
  | gaveUp hwindows hwithin hnone hrounds hend =>
    exact .gaveUp (hcons hwindows) (hfirst hlimit hwithin) (hfirst ⟨n, hscan⟩ hnone)
      (Nat.succ_le_succ hrounds) (hend.imp_left (congrArg (· + 1)))
  | @ended _ k _ _ hwindows hwithin hnone hrounds hlast hresult =>
    refine .ended (hcons hwindows) (fun j hj => ?_) (hfirst ⟨n, hscan⟩ hnone)
      (Nat.succ_lt_succ hrounds) hlast hresult
    exact hfirst (P := fun j => ¬ limit < widened radius j) hlimit
      (fun i hi => hwithin i (Nat.le_of_lt_succ hi)) j (Nat.lt_succ_of_le hj)

/-- Every outward search ends in one of these ways. -/
theorem outwardRun (s : TriangleSource β α) (side : Side) (p center : Point α) (limit : α) :
    ∀ (rounds : Nat) (radius : α), OutwardRun s side p center limit rounds radius
      (searchOutward s side p center limit rounds radius)
  | 0, radius => .gaveUp (k := 0) rfl (by simp) (by simp) (Nat.le_refl 0) (Or.inl rfl)
  | rounds + 1, radius => by
    unfold searchOutward
    by_cases hlimit : limit < radius
    · rw [if_pos hlimit]
      exact .gaveUp (k := 0) rfl (by simp) (by simp) (Nat.zero_le _) (Or.inr hlimit)
    · rw [if_neg hlimit]
      have hwithin : ∀ j ≤ 0, ¬ limit < widened radius j := by
        intro j hj
        rw [Nat.le_zero.mp hj]
        exact hlimit
      cases hscan : (s.query (.around center radius)).scan
          (fallbackStep s.metadata.fallback side p) none with
      | mk n result =>
        simp only [hscan]
        cases result with
        | error e => exact .ended (k := 0) rfl hwithin (by simp) (Nat.succ_pos _) hscan nofun
        | ok best =>
          cases best with
          | some b => exact .ended (k := 0) rfl hwithin (by simp) (Nat.succ_pos _) hscan nofun
          | none =>
            exact (outwardRun s side p center limit rounds (radius * Scalar.ofNat 2)).cons hlimit hscan

/-- Each query of a run is a round with a radius within the limit; its scan found nothing, or it has the
result of the run. -/
theorem OutwardRun.of_mem {center : Point α} {limit radius : α} {rounds : Nat} {queries : List (Query α)}
    {result : Except MeshError (Option (Candidate α))}
    (h : OutwardRun s side p center limit rounds radius (queries, result)) {q : Query α}
    (hq : q ∈ queries) :
    ∃ k < rounds, ¬ limit < widened radius k ∧ q.window = .around center (widened radius k) ∧
      ∃ n, (s.query q.window).scan (fallbackStep s.metadata.fallback side p) none = (n, .ok none) ∨
        (s.query q.window).scan (fallbackStep s.metadata.fallback side p) none = (n, result) := by
  have hmem := List.mem_map_of_mem (f := Query.window) hq
  cases h with
  | gaveUp hwindows hwithin hnone hrounds _ =>
    rw [hwindows] at hmem
    obtain ⟨k, hk, hwindow⟩ := List.mem_map.mp hmem
    have hlt := List.mem_range.mp hk
    obtain ⟨n, hscan⟩ := hnone k hlt
    rw [← hwindow]
    exact ⟨k, Nat.lt_of_lt_of_le hlt hrounds, hwithin k hlt, rfl, n, Or.inl hscan⟩
  | ended hwindows hwithin hnone hrounds hlast _ =>
    rw [hwindows] at hmem
    obtain ⟨k, hk, hwindow⟩ := List.mem_map.mp hmem
    have hle := Nat.le_of_lt_succ (List.mem_range.mp hk)
    rw [← hwindow]
    refine ⟨k, Nat.lt_of_le_of_lt hle hrounds, hwithin k hle, rfl, ?_⟩
    rcases Nat.lt_or_eq_of_le hle with hlt | rfl
    · obtain ⟨n, hscan⟩ := hnone k hlt
      exact ⟨n, Or.inl hscan⟩
    · exact ⟨_, Or.inr hlast⟩

/-- A result other than "nothing found" is that of the scan of one of the queries. -/
theorem OutwardRun.exists_scan {center : Point α} {limit radius : α} {rounds : Nat}
    {queries : List (Query α)} {result : Except MeshError (Option (Candidate α))}
    (h : OutwardRun s side p center limit rounds radius (queries, result)) (hresult : result ≠ .ok none) :
    ∃ q ∈ queries, ∃ n,
      (s.query q.window).scan (fallbackStep s.metadata.fallback side p) none = (n, result) := by
  cases h with
  | gaveUp _ _ _ _ _ => exact absurd rfl hresult
  | @ended _ k n _ hwindows _ _ _ hlast _ =>
    have hmem : .around center (widened radius k) ∈ queries.map Query.window := by
      rw [hwindows]
      exact List.mem_map_of_mem List.self_mem_range_succ
    obtain ⟨q, hq, hwindow⟩ := List.mem_map.mp hmem
    exact ⟨q, hq, n, hwindow ▸ hlast⟩

/-- A candidate found by the outward search comes from the last window it has queried; the windows
before that one, each of twice the radius of the one before, made none. -/
theorem searchOutward_some {center : Point α} {limit : α} (rounds : Nat) (radius : α)
    {queries : List (Query α)} {b : Candidate α}
    (h : searchOutward s side p center limit rounds radius = (queries, .ok (some b))) :
    ∃ k, queries.map Query.window =
        (List.range (k + 1)).map (fun j => .around center (widened radius j)) ∧
      (∀ j < k, ∃ n, (s.query (.around center (widened radius j))).scan
        (fallbackStep s.metadata.fallback side p) none = (n, .ok none)) ∧
      ∃ n, (s.query (.around center (widened radius k))).scan
        (fallbackStep s.metadata.fallback side p) none = (n, .ok (some b)) := by
  have hrun := outwardRun s side p center limit rounds radius
  rw [h] at hrun
  cases hrun with
  | ended hwindows _ hnone _ hscan _ => exact ⟨_, hwindows, hnone, _, hscan⟩

/-- A first window that holds a candidate ends the outward search. -/
theorem searchOutward_of_scan {center : Point α} {limit radius : α} {rounds n : Nat}
    {b : Candidate α} (hlimit : ¬ limit < radius)
    (hscan : (s.query (.around center radius)).scan (fallbackStep s.metadata.fallback side p) none =
      (n, .ok (some b))) :
    searchOutward s side p center limit (rounds + 1) radius =
      ([⟨.around center radius, n⟩], .ok (some b)) := by
  rw [searchOutward, if_neg hlimit]
  simp only [hscan]

/-- A candidate found by the outward search answers with its weights. -/
theorem fallbackSearch_of_searchOutward {count : VertexCount}
    (hcount : s.metadata.vertexCount = some count) {queries : List (Query α)} {b : Candidate α}
    (h : searchOutward s side p (searchCenter s.metadata side p) s.metadata.extent.longerSide
      maxFallbackRounds (firstRadius s.metadata count) = (queries, .ok (some b)))
    {w : Weights α} (hw : b.vertices.weights? p = some w) :
    fallbackSearch s side p = (queries, .ok (some ⟨w, b.corrections⟩)) := by
  simp only [fallbackSearch, hcount, h, Except.map, Option.bind_some, hw, Option.map_some]

/-- A match of the fallback search: weights and corrections of the best candidate of the last window
queried; the windows before that one made none. -/
theorem fallbackSearch_some {found : TriangleMatch α}
    (h : (fallbackSearch s side p).2 = .ok (some found)) :
    ∃ count k n b, s.metadata.vertexCount = some count ∧
      (fallbackSearch s side p).1.map Query.window =
        (List.range (k + 1)).map (outwardWindow s.metadata count side p) ∧
      (∀ j < k, ∃ n, (s.query (outwardWindow s.metadata count side p j)).scan
        (fallbackStep s.metadata.fallback side p) none = (n, .ok none)) ∧
      (s.query (outwardWindow s.metadata count side p k)).scan
        (fallbackStep s.metadata.fallback side p) none = (n, .ok (some b)) ∧
      b.vertices.weights? p = some found.weights ∧ b.corrections = found.corrections := by
  unfold fallbackSearch at h ⊢
  cases hcount : s.metadata.vertexCount with
  | none => simp [hcount] at h
  | some count =>
    simp only [hcount] at h ⊢
    generalize hsearch : searchOutward s side p _ _ _ _ = search at h ⊢
    obtain ⟨queries, result⟩ := search
    cases result with
    | error e => cases h
    | ok best =>
      cases best with
      | none => cases h
      | some b =>
        obtain ⟨k, hwindows, hnone, n, hscan⟩ := searchOutward_some _ _ hsearch
        refine ⟨count, k, n, b, rfl, hwindows, hnone, hscan, ?_⟩
        simp only [Except.map, Option.bind_some, Except.ok.injEq, Option.map_eq_some_iff] at h
        obtain ⟨w, hw, rfl⟩ := h
        exact ⟨hw, rfl⟩

/-- A match of the outward search is read off a usable row of one of the windows that it queries. -/
theorem exists_row_of_fallbackSearch {found : TriangleMatch α}
    (h : (fallbackSearch s side p).2 = .ok (some found)) :
    ∃ q ∈ (fallbackSearch s side p).1, ∃ r ∈ (s.query q.window).rows, ∃ v, r.Usable side v ∧
      v.weights? p = some found.weights ∧ r.corrections side = .ok found.corrections := by
  obtain ⟨count, k, n, b, -, hwindows, -, hscan, hw, hcorr⟩ := fallbackSearch_some h
  obtain ⟨r, hr, hoffer⟩ := scan_fallback_some hscan
  -- the last window is one of those queried
  have hlast : outwardWindow s.metadata count side p k ∈
      (List.range (k + 1)).map (outwardWindow s.metadata count side p) :=
    List.mem_map_of_mem List.self_mem_range_succ
  rw [← hwindows, List.mem_map] at hlast
  obtain ⟨q, hq, hwindow⟩ := hlast
  exact ⟨q, hq, r, hwindow ▸ hr, b.vertices, hoffer.toUsable, hw, hcorr ▸ hoffer.corrections⟩

end ShiftMesh
