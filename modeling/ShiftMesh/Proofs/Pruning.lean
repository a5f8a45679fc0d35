import ShiftMesh.Proofs.Reach

/-!
# ShiftMesh.Proofs.Pruning — the box test of the outward search costs nothing

The outward search measures a triangle only if its box comes near enough to beat the best one so far.

* `measuringStep`: the same step without the box test, every usable triangle measured.
* `fallbackStep_eq_measuringStep`: the two steps agree as long as the best candidate carries its own
  distance, in exact arithmetic; `scan_fallback_eq_measuring`: hence so do the scans.
* `pruned_scan_first_nearest`: a window's best candidate is the first of the nearest usable triangles of
  its rows, and the search answers with it.
-/

namespace ShiftMesh

/-- Keeps the nearer of the best triangle so far and the row's triangle, measuring every triangle that
is not degenerate. -/
def measuringStep {β α : Type} [Scalar α] [StoredPoint β α] (strategy : FallbackStrategy)
    (side : Side) (p : Point α) (best : Option (Candidate α)) (r : TriangleRow β α) :
    Except MeshError (Signal (Option (Candidate α))) :=
  match r.vertices side with
  | .error e => .error (.decode e)
  | .ok v =>
    if v.isDegenerate then .ok (.more best)
    else if beatsBest best (strategy.sqDistance p v) then
      match r.corrections side with
      | .error e => .error (.decode e)
      | .ok c => .ok (.more (some ⟨strategy.sqDistance p v, v, c⟩))
    else .ok (.more best)

variable {β : Type} [StoredPoint β ℝ] {strategy : FallbackStrategy} {side : Side} {p : Point ℝ}

/-- The best candidate, if there is one, carries its own distance. -/
def Measured (strategy : FallbackStrategy) (p : Point ℝ) (best : Option (Candidate ℝ)) : Prop :=
  ∀ b, best = some b → b.sqDistance = strategy.sqDistance p b.vertices

/-- A usable triangle whose box is out of reach does not beat the best candidate. -/
theorem not_beatsBest_of_not_withinBest {best : Option (Candidate ℝ)} {v : Triangle ℝ}
    (hbest : Measured strategy p best) (husable : v.isDegenerate = false)
    (hfar : withinBest best p v = false) : beatsBest best (strategy.sqDistance p v) = false := by
  cases best with
  | none => cases hfar
  | some b =>
    have hle := le_of_passed_over (hbest b rfl) husable (Or.inl hfar)
    exact decide_eq_false (not_lt.mpr hle)

theorem fallbackStep_eq_measuringStep {best : Option (Candidate ℝ)}
    (hbest : Measured strategy p best) (r : TriangleRow β ℝ) :
    fallbackStep strategy side p best r = measuringStep strategy side p best r := by
  unfold fallbackStep measuringStep
  cases r.vertices side with
  | error e => rfl
  | ok v =>
    cases hdegenerate : v.isDegenerate with
    | true => simp [hdegenerate]
    | false =>
      cases hwithin : withinBest best p v with
      | true =>
        -- both steps go on to measure the triangle
        have hskip : ¬ (!withinBest best p v || v.isDegenerate) = true := by
          simp [hwithin, hdegenerate]
        have husable : ¬ v.isDegenerate = true := by simp [hdegenerate]
        exact (if_neg hskip).trans (if_neg husable).symm
      | false =>
        have hbeats := not_beatsBest_of_not_withinBest hbest hdegenerate hwithin
        simp [hdegenerate, hwithin, hbeats]

theorem Measured.step {best next : Option (Candidate ℝ)} {r : TriangleRow β ℝ}
    (hbest : Measured strategy p best) (h : fallbackStep strategy side p best r = .ok (.more next)) :
    Measured strategy p next := by
  rcases fallbackStep_cases strategy side p best r with ⟨_, -, -, heq⟩ | ⟨b, hoffer, -, -, heq⟩ |
    ⟨_, -, heq⟩ <;> rw [heq] at h
  · injection h with h
    injection h with h
    exact h ▸ hbest
  · injection h with h
    injection h with h
    intro b' hb'
    rw [← h] at hb'
    injection hb' with hb'
    rw [← hb']
    exact hoffer.sqDistance
  · cases h

/-- With and without the box test a stream is scanned alike: the same rows are read, and the same
candidate or failure comes of them. -/
theorem scan_fallback_eq_measuring (strategy : FallbackStrategy) (side : Side) (p : Point ℝ)
    (stream : RowStream β ℝ) :
    stream.scan (fallbackStep strategy side p) none =
      stream.scan (measuringStep strategy side p) none := by
  have hread : readRows (fallbackStep strategy side p) none stream.rows =
      readRows (measuringStep strategy side p) none stream.rows :=
    readRows_congr (I := Measured strategy p)
      (fun best r hbest => fallbackStep_eq_measuringStep hbest r)
      (fun best r next hbest h => hbest.step h) stream.rows none (fun b hb => nomatch hb)
  rw [RowStream.scan, RowStream.scan, hread]

/-- Rows have no best candidate exactly if each of them is degenerate. -/
theorem Ranked.eq_none_iff {rows : List (TriangleRow β ℝ)} {best : Option (Candidate ℝ)}
    (h : Ranked strategy side p rows best) :
    best = none ↔ ∀ r ∈ rows, ∀ v, r.vertices side = .ok v → v.isDegenerate = true := by
  cases h with
  | unusable hnone =>
    refine iff_of_true rfl fun r hr v hv => ?_
    cases husable : v.isDegenerate with
    | true => rfl
    | false => exact absurd ⟨hv, husable⟩ (hnone r hr v)
  | @nearest pre r post b hrows hoffer _ _ =>
    refine iff_of_false nofun fun hall => ?_
    have hmem : r ∈ rows := by rw [hrows]; simp
    have hdegenerate := hall r hmem b.vertices hoffer.vertices
    rw [hoffer.usable] at hdegenerate
    cases hdegenerate

/-- A candidate that the outward search has found is offered by a row of the last window queried, and
the search answers with its weights and its corrections. -/
theorem exists_fallbackSearch_eq {s : TriangleSource β ℝ} {count : VertexCount}
    (hcount : s.metadata.vertexCount = some count) {queries : List (Query ℝ)} {b : Candidate ℝ}
    (h : searchOutward s side p (searchCenter s.metadata side p) s.metadata.extent.longerSide
      maxFallbackRounds (firstRadius s.metadata count) = (queries, .ok (some b))) :
    ∃ window w, (queries.map Query.window).getLast? = some window ∧
      (∃ r ∈ (s.query window).rows, r.Offers s.metadata.fallback side p b) ∧
      b.vertices.weights? p = some w ∧
      fallbackSearch s side p = (queries, .ok (some ⟨w, b.corrections⟩)) := by
  obtain ⟨k, hwindows, -, n, hscan⟩ := searchOutward_some _ _ h
  obtain ⟨r, hr, hoffer⟩ := scan_fallback_some hscan
  obtain ⟨w, hw⟩ := hoffer.exists_weights p
  refine ⟨_, w, ?_, ⟨r, hr, hoffer⟩, hw, fallbackSearch_of_searchOutward hcount h hw⟩
  rw [hwindows, List.range_succ, List.map_append, List.map_singleton, List.getLast?_concat]

/-- **The box test never changes the outcome of a window.**  With and without it a stream is scanned
alike.  Over rows that can be read, the best candidate is the first of the nearest usable triangles in
the order of the stream (`Ranked`), and there is none exactly if every row is degenerate.  A candidate
that the outward search has found is the one of its last window, it always has weights, and the search
answers with them and with the corrections of the same row. -/
theorem pruned_scan_first_nearest (s : TriangleSource β ℝ) (side : Side) (p : Point ℝ) :
    (∀ (strategy : FallbackStrategy) (stream : RowStream β ℝ),
      stream.scan (fallbackStep strategy side p) none =
        stream.scan (measuringStep strategy side p) none ∧
      ((∀ r ∈ stream.rows, ∃ t, r.triangle = .ok t) → stream.failure = none →
        ∃ n best, stream.scan (fallbackStep strategy side p) none = (n, .ok best) ∧
          Ranked strategy side p stream.rows best ∧
          (best = none ↔
            ∀ r ∈ stream.rows, ∀ v, r.vertices side = .ok v → v.isDegenerate = true))) ∧
    ∀ count queries b, s.metadata.vertexCount = some count →
      searchOutward s side p (searchCenter s.metadata side p) s.metadata.extent.longerSide
        maxFallbackRounds (firstRadius s.metadata count) = (queries, .ok (some b)) →
      ∃ window w, (queries.map Query.window).getLast? = some window ∧
        (∃ r ∈ (s.query window).rows, r.Offers s.metadata.fallback side p b) ∧
        b.vertices.weights? p = some w ∧
        fallbackSearch s side p = (queries, .ok (some ⟨w, b.corrections⟩)) := by
  refine ⟨fun strategy stream => ⟨scan_fallback_eq_measuring strategy side p stream,
    fun hrows hfail => ?_⟩, fun count queries b hcount h => exists_fallbackSearch_eq hcount h⟩
  obtain ⟨n, best, hscan⟩ := exists_scan_fallback_ok strategy side p hrows hfail
  have hranked := scan_fallback_ranked hscan
  exact ⟨n, best, hscan, hranked, hranked.eq_none_iff⟩

/-- Of the far and the near triangle the near one is chosen, and the search answers with it. -/
theorem sparse_scan_first_nearest :
    let stream := sparseStore.query (.around ⟨7 / 2, 0⟩ 1)
    let near : Candidate ℝ := ⟨1 / 4, nearCorners, ⟨none, nearRow.vertical⟩⟩
    (∃ n best, stream.scan (measuringStep .nearestSide .source ⟨7 / 2, 0⟩) none = (n, .ok best) ∧
      best = some near ∧ Ranked .nearestSide .source ⟨7 / 2, 0⟩ stream.rows best) ∧
    ∃ w, nearCorners.weights? ⟨7 / 2, 0⟩ = some w ∧
      fallbackSearch sparseStore .source ⟨7 / 2, 0⟩ =
        ([⟨.around ⟨7 / 2, 0⟩ 1, 2⟩], .ok (some ⟨w, ⟨none, nearRow.vertical⟩⟩)) := by
  intro stream near
  obtain ⟨hwindow, hsearch⟩ := pruned_scan_first_nearest sparseStore .source ⟨7 / 2, 0⟩
  obtain ⟨hsame, hscanned⟩ := hwindow .nearestSide stream
  have hrows : ∀ r ∈ stream.rows, ∃ t, r.triangle = .ok t := by
    rw [sparseStore_rows_beside]
    refine List.forall_mem_cons.mpr ⟨⟨farCorners, rfl⟩, fun r hr => ?_⟩
    rw [List.mem_singleton.mp hr]
    exact ⟨nearCorners, rfl⟩
  obtain ⟨n, best, hscan, hranked, -⟩ := hscanned hrows rfl
  have hbest : best = some near := by
    rw [sparseStore_scan_beside] at hscan
    injection hscan with _ hbest
    injection hbest with hbest
    exact hbest.symm
  obtain ⟨window, w, -, -, hw, hanswer⟩ := hsearch sparseCount _ near rfl
    (sparseStore_searchOutward (by norm_num) (by norm_num) sparseStore_scan_beside)
  exact ⟨⟨n, best, hsame ▸ hscan, hbest, hranked⟩, w, hw, hanswer⟩

end ShiftMesh
