import ShiftMesh.Mesh.Locator

/-!
# ShiftMesh.Proofs.Scan — what the exact search has read when it ends

Nothing here depends on the arithmetic: every statement holds over any `Scalar` and for any stored
form of points.

* `readRows_inv`: what every step keeps along the rows read so far holds of all rows at the end;
  `readRows_congr`: steps that agree under an invariant read rows alike.
* `readRows_failed_iff`: reading fails with the step on a row up to which all rows can be read.
* `scan_error`: a scan fails with its step or with its stream.
* `TriangleRow.Hits`, `TriangleRow.Misses`, `TriangleRow.Spoils`: what one row does to the search.
* `TriangleRow.misses_or_hits_or_spoils`: each row does one of the three.
* `ExactReading`: the search reads misses up to the first row that is none, and `exactReading` says
  so of `readRows`.
* `exactSearch_cases`: the same for a query, with the failures of the stream.
* `exists_exactSearch_ok`: rows that can be read, from a stream that does not fail, make no failure.
-/

namespace ShiftMesh

/-! ## Reading a list of rows -/

section Rows

variable {β α σ ρ : Type} {step : σ → ρ → Except MeshError (Signal σ)}

/-- A reader that gets past a first row has asked for more there. -/
theorem readRows_cons_exhausted {r : ρ} {rows : List ρ} {st final : σ} {n : Nat}
    (h : readRows step st (r :: rows) = (n, .exhausted final)) :
    ∃ next k, step st r = .ok (.more next) ∧ readRows step next rows = (k, .exhausted final) ∧
      n = k + 1 := by
  cases hs : step st r with
  | error e => simp [readRows, hs] at h
  | ok signal =>
    cases signal with
    | stop next => simp [readRows, hs] at h
    | more next =>
      simp only [readRows, hs, Prod.mk.injEq] at h
      exact ⟨next, _, rfl, Prod.ext rfl h.2, h.1.symm⟩

/-- An invariant of the rows read so far and the state they lead to holds at the end of the rows, if
each step that asks for more keeps it. -/
theorem readRows_inv {I : List ρ → σ → Prop}
    (hstep : ∀ pre st r next, I pre st → step st r = .ok (.more next) → I (pre ++ [r]) next) :
    ∀ (rows pre : List ρ) (st : σ) {n : Nat} {final : σ}, I pre st →
      readRows step st rows = (n, .exhausted final) → I (pre ++ rows) final
  | [], pre, st, n, final, hI, h => by
    simp only [readRows, Prod.mk.injEq, Ending.exhausted.injEq] at h
    rw [List.append_nil, ← h.2]
    exact hI
  | r :: rows, pre, st, n, final, hI, h => by
    obtain ⟨next, k, hs, hrest, -⟩ := readRows_cons_exhausted h
    have hfinal := readRows_inv hstep rows (pre ++ [r]) next (hstep pre st r next hI hs) hrest
    rwa [List.append_assoc] at hfinal

/-- Two readers that agree on every state of an invariant, which their steps keep, read rows alike. -/
theorem readRows_congr {step' : σ → ρ → Except MeshError (Signal σ)} {I : σ → Prop}
    (hsame : ∀ st r, I st → step st r = step' st r)
    (hkeep : ∀ st r next, I st → step st r = .ok (.more next) → I next) :
    ∀ (rows : List ρ) (st : σ), I st → readRows step st rows = readRows step' st rows
  | [], _, _ => rfl
  | r :: rows, st, hI => by
    rw [readRows, readRows, ← hsame st r hI]
    cases hs : step st r with
    | error e => rfl
    | ok signal =>
      cases signal with
      | stop next => rfl
      | more next => simp only [readRows_congr hsame hkeep rows next (hkeep st r next hI hs)]

/-- Rows that are read to their end can be followed by others. -/
theorem readRows_append : ∀ (pre rest : List ρ) (st : σ) {n : Nat} {last : σ},
    readRows step st pre = (n, .exhausted last) →
      readRows step st (pre ++ rest) =
        ((readRows step last rest).1 + n, (readRows step last rest).2)
  | [], rest, st, n, last, h => by
    simp only [readRows, Prod.mk.injEq, Ending.exhausted.injEq] at h
    rw [← h.1, ← h.2]
    rfl
  | r :: pre, rest, st, n, last, h => by
    obtain ⟨next, k, hs, hpre, hn⟩ := readRows_cons_exhausted h
    simp only [List.cons_append, readRows, hs, readRows_append pre rest next hpre, hn, Nat.add_assoc]

/-- Reading fails with the step on a row up to which all rows can be read. -/
theorem readRows_failed_iff {e : MeshError} {rows : List ρ} {st : σ} :
    (∃ n, readRows step st rows = (n, .failed e)) ↔
      ∃ pre r post n last, rows = pre ++ r :: post ∧
        readRows step st pre = (n, .exhausted last) ∧ step last r = .error e := by
  constructor
  · induction rows generalizing st with
    | nil =>
      rintro ⟨n, h⟩
      simp [readRows] at h
    | cons r rows ih =>
      rintro ⟨n, h⟩
      cases hs : step st r with
      | error e' =>
        simp only [readRows, hs, Prod.mk.injEq, Ending.failed.injEq] at h
        exact ⟨[], r, rows, 0, st, rfl, rfl, by rw [hs, h.2]⟩
      | ok signal =>
        cases signal with
        | stop next => simp [readRows, hs] at h
        | more next =>
          simp only [readRows, hs, Prod.mk.injEq] at h
          obtain ⟨pre, r', post, k, last, hrows, hpre, hstep⟩ := ih ⟨_, Prod.ext rfl h.2⟩
          refine ⟨r :: pre, r', post, k + 1, last, by rw [hrows]; rfl, ?_, hstep⟩
          simp only [readRows, hs, hpre]
  · rintro ⟨pre, r, post, n, last, rfl, hpre, hstep⟩
    refine ⟨1 + n, ?_⟩
    rw [readRows_append pre (r :: post) st hpre]
    simp only [readRows, hstep]

/-- A failure is that of the step on one of the rows. -/
theorem readRows_failed {e : MeshError} (rows : List ρ) (st : σ) {n : Nat}
    (h : readRows step st rows = (n, .failed e)) : ∃ r ∈ rows, ∃ st', step st' r = .error e := by
  obtain ⟨pre, r, post, -, last, hrows, -, hstep⟩ := readRows_failed_iff.mp ⟨n, h⟩
  exact ⟨r, by rw [hrows]; simp, last, hstep⟩

theorem settle_eq_ok {state final : σ} {failure : Option MeshError}
    (h : RowStream.settle state failure = .ok final) : state = final ∧ failure = none := by
  cases failure with
  | none => exact ⟨by injection h, rfl⟩
  | some e => cases h

/-- A step that never stops never makes its reader stop. -/
theorem readRows_ne_stopped (hstep : ∀ st r next, step st r ≠ .ok (.stop next)) (rows : List ρ) (st : σ)
    (n : Nat) (last : σ) : readRows step st rows ≠ (n, .stopped last) := by
  induction rows generalizing st n with
  | nil => intro h; simp [readRows] at h
  | cons r rows ih =>
    intro h
    cases hs : step st r with
    | error e => simp [readRows, hs] at h
    | ok signal =>
      cases signal with
      | stop next => exact hstep st r next hs
      | more next =>
        simp only [readRows, hs, Prod.mk.injEq] at h
        exact ih next _ (Prod.ext rfl h.2)

/-- A step that never stops can only exhaust the rows of a scan that succeeds. -/
theorem readRows_of_scan {s : RowStream β α} {step : σ → TriangleRow β α → Except MeshError (Signal σ)}
    (hstep : ∀ st r next, step st r ≠ .ok (.stop next)) {st final : σ} {n : Nat}
    (h : s.scan step st = (n, .ok final)) : readRows step st s.rows = (n, .exhausted final) := by
  unfold RowStream.scan at h
  cases hr : readRows step st s.rows with
  | mk m ending =>
    rw [hr] at h
    cases ending with
    | exhausted last =>
      simp only [Prod.mk.injEq] at h
      rw [h.1, (settle_eq_ok h.2).1]
    | stopped last => exact absurd hr (readRows_ne_stopped hstep _ _ _ _)
    | failed e => cases h

/-- A failure that the stream itself can end with, whatever reads it. -/
def RowStream.CanFail (s : RowStream β α) (e : MeshError) : Prop :=
  s.failure = some e ∨ ∃ n, s.stopFailure n = some e

theorem settle_eq_error {state : σ} {failure : Option MeshError} {e : MeshError}
    (h : RowStream.settle state failure = .error e) : failure = some e := by
  cases failure with
  | none => cases h
  | some e' =>
    injection h with h
    rw [h]

/-- A scan fails with its step, on one of the rows, or with the stream. -/
theorem scan_error {s : RowStream β α} {step : σ → TriangleRow β α → Except MeshError (Signal σ)}
    {st : σ} {n : Nat} {e : MeshError} (h : s.scan step st = (n, .error e)) :
    (∃ r ∈ s.rows, ∃ st', step st' r = .error e) ∨ s.CanFail e := by
  unfold RowStream.scan at h
  cases hr : readRows step st s.rows with
  | mk m ending =>
    rw [hr] at h
    cases ending with
    | exhausted last => exact Or.inr (Or.inl (settle_eq_error (Prod.ext_iff.mp h).2))
    | stopped last => exact Or.inr (Or.inr ⟨m, settle_eq_error (Prod.ext_iff.mp h).2⟩)
    | failed e' =>
      simp only [Prod.mk.injEq, Except.error.injEq] at h
      rw [h.2] at hr
      exact Or.inl (readRows_failed s.rows st hr)

end Rows

variable {β α : Type} [Scalar α] [StoredPoint β α]

/-! ## Weights of a point -/

namespace Triangle

theorem not_lt_of_weights? {v : Triangle α} {p : Point α} {w : Weights α}
    (h : v.weights? p = some w) : ¬ Scalar.abs v.det < Scalar.tolerance := by
  intro hlt
  rw [weights?, if_pos hlt] at h
  cases h

theorem inside?_eq_some {v : Triangle α} {p : Point α} {w : Weights α} :
    v.inside? p = some w ↔ v.weights? p = some w ∧ w.isInside = true := by
  unfold inside?
  exact Option.filter_eq_some_iff

/-- A triangle is usable if no edge is short and it has an area. -/
theorem isDegenerate_eq_false_iff {v : Triangle α} : v.isDegenerate = false ↔
    (∀ l ∈ v.sqEdgeLengths.toList, ¬ l < Scalar.tolerance) ∧
      ¬ Scalar.abs v.det < Scalar.tolerance := by
  rw [isDegenerate, Bool.or_eq_false_iff, hasShortEdge, List.any_eq_false]
  refine and_congr (by simp only [decide_eq_true_eq]) ?_
  by_cases h : Scalar.abs v.det < Scalar.tolerance
  · simp [weights?, h]
  · simp [weights?, h]

end Triangle

/-! ## What a row does to the exact search -/

namespace TriangleRow

/-- The row answers for the point: its corners contain it, and its corrections can be read. -/
structure Hits (r : TriangleRow β α) (side : Side) (p : Point α) (hit : Hit α) : Prop where
  vertices : r.vertices side = .ok hit.vertices
  inside : hit.vertices.inside? p = some hit.weights
  corrections : r.corrections side = .ok hit.corrections

/-- The corners of the row can be read and do not contain the point. -/
def Misses (r : TriangleRow β α) (side : Side) (p : Point α) : Prop :=
  ∃ v, r.vertices side = .ok v ∧ v.inside? p = none

/-- The corners cannot be read, or they contain the point and the corrections cannot be read. -/
def Spoils (r : TriangleRow β α) (side : Side) (p : Point α) (e : DecodeError) : Prop :=
  r.vertices side = .error e ∨
    ∃ v w, r.vertices side = .ok v ∧ v.inside? p = some w ∧ r.corrections side = .error e

omit [Scalar α] in
theorem vertices_target {r : TriangleRow β α} {v : Triangle α} (h : r.target = some v) :
    r.vertices .target = .ok v := by
  simp only [vertices, h]

omit [Scalar α] in
theorem corrections_target {r : TriangleRow β α} {t v : Triangle α} (ht : r.triangle = .ok t)
    (hv : r.target = some v) : r.corrections .target = .ok ⟨some t, r.vertical⟩ := by
  simp only [corrections, hv, ht, Except.map]

theorem meets_eq {r : TriangleRow β α} {t : Triangle α} (ht : r.triangle = .ok t) (w : Window α) :
    r.meets w = w.meetsTriangle t := by
  simp only [meets, ht]

omit [Scalar α] in
/-- If the source corners can be read, so can the corners of either side. -/
theorem exists_vertices {r : TriangleRow β α} {t : Triangle α} (h : r.triangle = .ok t)
    (side : Side) : ∃ v, r.vertices side = .ok v := by
  unfold vertices
  split
  · exact ⟨_, rfl⟩
  · exact ⟨t, h⟩

omit [Scalar α] in
/-- If the source corners can be read, so can the corrections of either side. -/
theorem exists_corrections {r : TriangleRow β α} {t : Triangle α} (h : r.triangle = .ok t)
    (side : Side) : ∃ c, r.corrections side = .ok c := by
  unfold corrections
  split
  · rw [h]; exact ⟨_, rfl⟩
  · exact ⟨_, rfl⟩

theorem not_spoils {r : TriangleRow β α} {t : Triangle α} (h : r.triangle = .ok t) {side : Side}
    {p : Point α} {e : DecodeError} : ¬ r.Spoils side p e := by
  obtain ⟨v, hv⟩ := exists_vertices h side
  obtain ⟨c, hc⟩ := exists_corrections h side
  rintro (he | ⟨v', w, -, -, he⟩)
  · rw [hv] at he; cases he
  · rw [hc] at he; cases he

/-- A row whose corners contain the point does not miss. -/
theorem not_misses_of_inside {r : TriangleRow β α} {side : Side} {p : Point α} {v : Triangle α}
    {w : Weights α} (hv : r.vertices side = .ok v) (hin : v.inside? p = some w) :
    ¬ r.Misses side p := by
  rintro ⟨v', hv', hmiss⟩
  rw [hv] at hv'
  injection hv' with hv'
  rw [← hv', hin] at hmiss
  cases hmiss

theorem Hits.not_misses {r : TriangleRow β α} {side : Side} {p : Point α} {hit : Hit α}
    (h : r.Hits side p hit) : ¬ r.Misses side p :=
  not_misses_of_inside h.vertices h.inside

/-- Each row misses, hits or spoils. -/
theorem misses_or_hits_or_spoils (r : TriangleRow β α) (side : Side) (p : Point α) :
    r.Misses side p ∨ (∃ hit, r.Hits side p hit) ∨ ∃ e, r.Spoils side p e := by
  cases hv : r.vertices side with
  | error e => exact Or.inr (Or.inr ⟨e, Or.inl hv⟩)
  | ok v =>
    cases hw : v.inside? p with
    | none => exact Or.inl ⟨v, hv, hw⟩
    | some w =>
      cases hc : r.corrections side with
      | error e => exact Or.inr (Or.inr ⟨e, Or.inr ⟨v, w, hv, hw, hc⟩⟩)
      | ok c => exact Or.inr (Or.inl ⟨⟨w, v, c⟩, hv, hw, hc⟩)

variable {r : TriangleRow β α} {side : Side} {p : Point α}

theorem Misses.exactStep_eq (h : r.Misses side p) (st : Option (Hit α)) :
    exactStep side p st r = .ok (.more none) := by
  obtain ⟨v, hv, hp⟩ := h
  simp only [exactStep, hv, hp]

theorem Hits.exactStep_eq {hit : Hit α} (h : r.Hits side p hit) (st : Option (Hit α)) :
    exactStep side p st r = .ok (.stop (some hit)) := by
  simp only [exactStep, h.vertices, h.inside, h.corrections]

theorem Spoils.exactStep_eq {e : DecodeError} (h : r.Spoils side p e) (st : Option (Hit α)) :
    exactStep side p st r = .error (.decode e) := by
  rcases h with hv | ⟨v, w, hv, hp, hc⟩
  · simp only [exactStep, hv]
  · simp only [exactStep, hv, hp, hc]

end TriangleRow

/-! ## The rows that the exact search reads -/

/-- The ways in which reading rows for the exact search ends: the rows before the last one read all
miss the point. -/
inductive ExactReading (side : Side) (p : Point α) (rows : List (TriangleRow β α)) :
    Nat × Ending (Option (Hit α)) → Prop
  | exhausted (hmiss : ∀ r ∈ rows, r.Misses side p) :
      ExactReading side p rows (rows.length, .exhausted none)
  | stopped {pre post r hit} (hrows : rows = pre ++ r :: post)
      (hmiss : ∀ q ∈ pre, q.Misses side p) (hhit : r.Hits side p hit) :
      ExactReading side p rows (pre.length + 1, .stopped (some hit))
  | failed {pre post r e} (hrows : rows = pre ++ r :: post)
      (hmiss : ∀ q ∈ pre, q.Misses side p) (hspoil : r.Spoils side p e) :
      ExactReading side p rows (pre.length + 1, .failed (.decode e))

/-- One more row that misses in front. -/
theorem ExactReading.cons {side : Side} {p : Point α} {rows : List (TriangleRow β α)}
    {n : Nat} {ending : Ending (Option (Hit α))} (h : ExactReading side p rows (n, ending))
    {r : TriangleRow β α} (hr : r.Misses side p) :
    ExactReading side p (r :: rows) (n + 1, ending) := by
  have hpre : ∀ {pre : List (TriangleRow β α)}, (∀ q ∈ pre, q.Misses side p) →
      ∀ q ∈ r :: pre, q.Misses side p := fun hmiss => List.forall_mem_cons.mpr ⟨hr, hmiss⟩
  cases h with
  | exhausted hmiss => exact .exhausted (hpre hmiss)
  | @stopped pre post r' hit hrows hmiss hhit =>
    have hrows' : r :: rows = (r :: pre) ++ r' :: post := by rw [hrows]; rfl
    exact .stopped hrows' (hpre hmiss) hhit
  | @failed pre post r' e hrows hmiss hspoil =>
    have hrows' : r :: rows = (r :: pre) ++ r' :: post := by rw [hrows]; rfl
    exact .failed hrows' (hpre hmiss) hspoil

theorem exactReading (side : Side) (p : Point α) :
    ∀ rows : List (TriangleRow β α),
      ExactReading side p rows (readRows (exactStep side p) none rows)
  | [] => .exhausted (by simp)
  | r :: rows => by
    have hrows : r :: rows = [] ++ r :: rows := rfl
    rcases r.misses_or_hits_or_spoils side p with hr | ⟨hit, hr⟩ | ⟨e, hr⟩
    · simp only [readRows, hr.exactStep_eq]
      exact (exactReading side p rows).cons hr
    · simp only [readRows, hr.exactStep_eq]
      exact .stopped hrows (by simp) hr
    · simp only [readRows, hr.exactStep_eq]
      exact .failed hrows (by simp) hr

/-- Rows that miss are read and passed over. -/
theorem readRows_append_of_misses {side : Side} {p : Point α} (rest : List (TriangleRow β α)) :
    ∀ {pre : List (TriangleRow β α)}, (∀ q ∈ pre, q.Misses side p) →
      readRows (exactStep side p) none (pre ++ rest) =
        ((readRows (exactStep side p) none rest).1 + pre.length,
          (readRows (exactStep side p) none rest).2)
  | [], _ => rfl
  | r :: pre, h => by
    obtain ⟨hr, hpre⟩ := List.forall_mem_cons.mp h
    simp only [List.cons_append, readRows, hr.exactStep_eq, readRows_append_of_misses rest hpre,
      List.length_cons, Nat.add_assoc]

/-! ## The exact search of a source -/

/-- The ways in which the exact search ends, with the query it has issued: every row of the stream
misses, or the first row that does not miss hits, or it spoils. -/
theorem exactSearch_cases (s : TriangleSource β α) (side : Side) (p : Point α) :
    ((∀ r ∈ (s.query (exactWindow s.metadata side p)).rows, r.Misses side p) ∧
      exactSearch s side p =
        (⟨exactWindow s.metadata side p, (s.query (exactWindow s.metadata side p)).rows.length⟩,
          RowStream.settle none (s.query (exactWindow s.metadata side p)).failure)) ∨
    (∃ pre r post hit, (s.query (exactWindow s.metadata side p)).rows = pre ++ r :: post ∧
      (∀ q ∈ pre, q.Misses side p) ∧ r.Hits side p hit ∧
      exactSearch s side p =
        (⟨exactWindow s.metadata side p, pre.length + 1⟩, RowStream.settle (some hit)
          ((s.query (exactWindow s.metadata side p)).stopFailure (pre.length + 1)))) ∨
    (∃ pre r post e, (s.query (exactWindow s.metadata side p)).rows = pre ++ r :: post ∧
      (∀ q ∈ pre, q.Misses side p) ∧ r.Spoils side p e ∧
      exactSearch s side p =
        (⟨exactWindow s.metadata side p, pre.length + 1⟩, .error (.decode e))) := by
  have hread := exactReading side p (s.query (exactWindow s.metadata side p)).rows
  simp only [exactSearch, RowStream.scan]
  generalize readRows _ _ _ = result at hread ⊢
  cases hread with
  | exhausted hmiss => exact Or.inl ⟨hmiss, rfl⟩
  | stopped hrows hmiss hhit => exact Or.inr (Or.inl ⟨_, _, _, _, hrows, hmiss, hhit, rfl⟩)
  | failed hrows hmiss hspoil => exact Or.inr (Or.inr ⟨_, _, _, _, hrows, hmiss, hspoil, rfl⟩)

section Search

variable {s : TriangleSource β α} {side : Side} {p : Point α} {q : Query α}

theorem exactSearch_window {found : Except MeshError (Option (Hit α))}
    (h : exactSearch s side p = (q, found)) : q.window = exactWindow s.metadata side p :=
  congrArg (fun x => x.1.window) h.symm

/-- A hit of the exact search is the first row of the stream that does not miss. -/
theorem exactSearch_some {hit : Hit α} (h : exactSearch s side p = (q, .ok (some hit))) :
    ∃ pre r post, (s.query (exactWindow s.metadata side p)).rows = pre ++ r :: post ∧
      (∀ r' ∈ pre, r'.Misses side p) ∧ r.Hits side p hit := by
  rcases exactSearch_cases s side p with ⟨-, he⟩ | ⟨pre, r, post, hit', hrows, hmiss, hhit, he⟩ |
    ⟨pre, r, post, e, -, -, -, he⟩ <;> rw [he, Prod.mk.injEq] at h
  · have hnone := (settle_eq_ok h.2).1
    cases hnone
  · have hsome := (settle_eq_ok h.2).1
    injection hsome with hhit'
    exact ⟨pre, r, post, hrows, hmiss, hhit' ▸ hhit⟩
  · cases h.2

/-- A hit of the exact search is a row of the window that it queries. -/
theorem exists_hits_of_exactSearch {hit : Hit α} (h : exactSearch s side p = (q, .ok (some hit))) :
    ∃ r ∈ (s.query q.window).rows, r.Hits side p hit := by
  obtain ⟨pre, r, post, hrows, -, hhit⟩ := exactSearch_some h
  exact ⟨r, by rw [exactSearch_window h, hrows]; simp, hhit⟩

/-- If the exact search finds nothing, every row of the stream misses. -/
theorem exactSearch_none (h : exactSearch s side p = (q, .ok none)) :
    ∀ r ∈ (s.query (exactWindow s.metadata side p)).rows, r.Misses side p := by
  rcases exactSearch_cases s side p with ⟨hmiss, -⟩ | ⟨pre, r, post, hit', -, -, -, he⟩ |
    ⟨pre, r, post, e, -, -, -, he⟩
  · exact hmiss
  · rw [he, Prod.mk.injEq] at h
    have hsome := (settle_eq_ok h.2).1
    cases hsome
  · rw [he, Prod.mk.injEq] at h
    cases h.2

/-- A first row that hits, in a stream that can be stopped there, is the hit of the exact search. -/
theorem exactSearch_of_hits {pre post : List (TriangleRow β α)} {r : TriangleRow β α} {hit : Hit α}
    (hrows : (s.query (exactWindow s.metadata side p)).rows = pre ++ r :: post)
    (hmiss : ∀ r' ∈ pre, r'.Misses side p) (hhit : r.Hits side p hit)
    (hstop : (s.query (exactWindow s.metadata side p)).stopFailure (pre.length + 1) = none) :
    exactSearch s side p =
      (⟨exactWindow s.metadata side p, pre.length + 1⟩, .ok (some hit)) := by
  have hread : readRows (exactStep side p) none (s.query (exactWindow s.metadata side p)).rows =
      (pre.length + 1, .stopped (some hit)) := by
    rw [hrows, readRows_append_of_misses _ hmiss]
    simp only [readRows, hhit.exactStep_eq, Nat.add_comm]
  simp only [exactSearch, RowStream.scan, hread, hstop, RowStream.settle]

/-- If every row misses, in a stream that does not fail, the exact search finds nothing. -/
theorem exactSearch_of_misses
    (hmiss : ∀ r ∈ (s.query (exactWindow s.metadata side p)).rows, r.Misses side p)
    (hfail : (s.query (exactWindow s.metadata side p)).failure = none) :
    exactSearch s side p =
      (⟨exactWindow s.metadata side p, (s.query (exactWindow s.metadata side p)).rows.length⟩,
        .ok none) := by
  have hread := readRows_append_of_misses [] hmiss
  rw [List.append_nil] at hread
  simp only [exactSearch, RowStream.scan, hread, readRows, hfail, RowStream.settle, Nat.zero_add]

/-- Over a stream that does not fail and whose rows can be read, the exact search does not fail. -/
theorem exists_exactSearch_ok
    (hrows : ∀ r ∈ (s.query (exactWindow s.metadata side p)).rows, ∃ t, r.triangle = .ok t)
    (hfail : (s.query (exactWindow s.metadata side p)).failure = none)
    (hstop : ∀ n, (s.query (exactWindow s.metadata side p)).stopFailure n = none) :
    ∃ q found, exactSearch s side p = (q, .ok found) := by
  rcases exactSearch_cases s side p with ⟨-, he⟩ | ⟨pre, r, post, hit, -, -, -, he⟩ |
    ⟨pre, r, post, e, hsplit, -, hspoil, -⟩
  · exact ⟨_, none, by rw [he, hfail]; rfl⟩
  · exact ⟨_, some hit, by rw [he, hstop]; rfl⟩
  · obtain ⟨t, ht⟩ := hrows r (by rw [hsplit]; simp)
    exact absurd hspoil (TriangleRow.not_spoils ht)

end Search

end ShiftMesh
