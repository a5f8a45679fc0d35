import ShiftMesh.Proofs.Checks
import ShiftMesh.Proofs.Evaluation
import ShiftMesh.Proofs.PointBlob
import ShiftMesh.Proofs.Reach
import ShiftMesh.Proofs.Retention

/-!
# ShiftMesh.Proofs.DecodeFailures — when a lookup fails because stored corners cannot be read

A row is decoded when it is needed.  A search of source corners reads every row that it meets.  A search of
target corners reads the source corners of a row only to answer with them: the exact search those of its
hit, the outward search those of each row that it adopts.

* `exactSearch_error_iff`, `searchOutward_error_iff`, `find_error_iff`: a lookup on a source that never
  fails itself fails with the step of one of its searches.
* `TriangleRow.AboutToAdopt`: the outward search would make the row its best candidate.
* `find_error_source_iff`, `find_error_target_iff`: which row makes a lookup fail, on either side.
* `TriangleRow.triangle_error_iff`: the corners of a row cannot be read if and only if some blob has a wrong
  length; the error reports the first one.
* `lookup_fails_by_decoding`: the two together, and that no row after the hit is read.
-/

namespace ShiftMesh

section Any

variable {β α : Type} [Scalar α] [StoredPoint β α]

/-! ## A lookup on a source that never fails itself -/

/-- The rows that the exact window streams. -/
def TriangleSource.exactRows (s : TriangleSource β α) (side : Side) (p : Point α) :
    List (TriangleRow β α) :=
  (s.query (exactWindow s.metadata side p)).rows

/-- No query of the source fails, at its end or when it is stopped. -/
structure TriangleSource.NeverFails (s : TriangleSource β α) : Prop where
  failure : ∀ w, (s.query w).failure = none
  stopFailure : ∀ w n, (s.query w).stopFailure n = none

variable {s : TriangleSource β α} {side : Side} {p : Point α} {e : MeshError}

omit [Scalar α] [StoredPoint β α] in
/-- A scan fails with the step on a row up to which all rows can be read. -/
theorem TriangleSource.NeverFails.scan_error_iff (hs : s.NeverFails) (w : Window α) {σ : Type}
    {step : σ → TriangleRow β α → Except MeshError (Signal σ)} {st : σ} :
    ((s.query w).scan step st).2 = .error e ↔
      ∃ pre r post n last, (s.query w).rows = pre ++ r :: post ∧
        readRows step st pre = (n, .exhausted last) ∧ step last r = .error e := by
  rw [← readRows_failed_iff]
  unfold RowStream.scan
  generalize readRows step st (s.query w).rows = reading
  obtain ⟨n, ending⟩ := reading
  cases ending with
  | exhausted last => simp [hs.failure, RowStream.settle]
  | stopped last => simp [hs.stopFailure, RowStream.settle]
  | failed e' => simp

/-- The exact search fails with the first row that does not miss, if it spoils. -/
theorem exactSearch_error_iff (hs : s.NeverFails) :
    (exactSearch s side p).2 = .error e ↔
      ∃ r d, Foremost (fun q => ¬ q.Misses side p) (s.exactRows side p) r ∧ r.Spoils side p d ∧
        e = .decode d := by
  refine (hs.scan_error_iff (exactWindow s.metadata side p)).trans ⟨?_, ?_⟩
  · rintro ⟨pre, r, post, n, last, hrows, hread, hstep⟩
    have hpre := exactReading side p pre
    rw [hread] at hpre
    cases hpre with
    | exhausted hmiss =>
      have hforemost : Foremost (fun q => ¬ q.Misses side p) _ r :=
        ⟨pre, post, hrows, fun q hq hnot => hnot (hmiss q hq)⟩
      rcases r.misses_or_hits_or_spoils side p with hr | ⟨hit, hr⟩ | ⟨d, hr⟩ <;>
        rw [hr.exactStep_eq] at hstep <;> cases hstep
      exact ⟨r, d, hforemost, hr, rfl⟩
  · rintro ⟨r, d, ⟨pre, post, hrows, hpre⟩, hspoil, rfl⟩
    have hmiss : ∀ q ∈ pre, q.Misses side p := fun q hq => not_not.mp (hpre q hq)
    have hread := readRows_append_of_misses [] hmiss
    rw [List.append_nil] at hread
    exact ⟨pre, r, post, _, _, hrows, hread, hspoil.exactStep_eq none⟩

theorem exactSearch_none_iff (hs : s.NeverFails) :
    (exactSearch s side p).2 = .ok none ↔
      ∀ r ∈ s.exactRows side p, r.Misses side p :=
  ⟨fun h => exactSearch_none (Prod.ext rfl h),
    fun h => by rw [exactSearch_of_misses h (hs.failure _)]⟩

/-- The outward search fails with the scan of one of its windows. -/
theorem searchOutward_error_iff (s : TriangleSource β α) (side : Side) (p center : Point α) (limit : α)
    (e : MeshError) (rounds : Nat) (radius : α) :
    (searchOutward s side p center limit rounds radius).2 = .error e ↔
      ∃ q ∈ (searchOutward s side p center limit rounds radius).1,
        ((s.query q.window).scan (fallbackStep s.metadata.fallback side p) none).2 = .error e := by
  have hrun := outwardRun s side p center limit rounds radius
  constructor
  · intro herror
    obtain ⟨q, hq, n, hscan⟩ := hrun.exists_scan (by rw [herror]; nofun)
    exact ⟨q, hq, by rw [hscan, herror]⟩
  · rintro ⟨q, hq, herror⟩
    obtain ⟨k, -, -, -, n, hscan | hscan⟩ := hrun.of_mem hq <;> rw [hscan] at herror
    · cases herror
    · exact herror

theorem fallbackSearch_error_iff (s : TriangleSource β α) (side : Side) (p : Point α) (e : MeshError) :
    (fallbackSearch s side p).2 = .error e ↔ ∃ q ∈ (fallbackSearch s side p).1,
      ((s.query q.window).scan (fallbackStep s.metadata.fallback side p) none).2 = .error e := by
  unfold fallbackSearch
  cases hcount : s.metadata.vertexCount with
  | none => simp
  | some count =>
    simp only
    have hsearch := searchOutward_error_iff s side p (searchCenter s.metadata side p)
      s.metadata.extent.longerSide e maxFallbackRounds (firstRadius s.metadata count)
    generalize searchOutward s side p _ _ _ _ = search at hsearch ⊢
    obtain ⟨queries, result⟩ := search
    rw [← hsearch]
    cases result with
    | error e' => simp [Except.map]
    | ok best => simp [Except.map]

/-- A lookup that the cached triangle does not answer fails with its exact search, or with a scan of its
outward search. -/
theorem find_error_iff {cache : Option (CachedTriangle α)} {d : Direction}
    (hcache : cachedMatch? cache p d = none) :
    (s.find cache p d).answer = .error e ↔
      (exactSearch s (s.metadata.searchedSide d) p).2 = .error e ∨
      ((exactSearch s (s.metadata.searchedSide d) p).2 = .ok none ∧ s.metadata.fallback ≠ .none ∧
        ∃ q ∈ (s.find cache p d).queries.tail, ((s.query q.window).scan
          (fallbackStep s.metadata.fallback (s.metadata.searchedSide d) p) none).2 = .error e) := by
  have hends := s.find_ends cache p d
  generalize s.find cache p d = lookup at hends ⊢
  cases hends with
  | cached hmatch => rw [hcache] at hmatch; cases hmatch
  | failed _ hexact => simp [hexact]
  | hit _ hexact => simp [hexact]
  | missed _ hexact hfallback => simp [hexact, hfallback]
  | outward _ hexact hfallback => simp [hexact, hfallback, fallbackSearch_error_iff]

/-! ## Which rows make it fail -/

namespace TriangleRow

variable {r : TriangleRow β α} {d : DecodeError}

/-- The corners of the row on the side can be read, and they contain the point. -/
def Contains (r : TriangleRow β α) (side : Side) (p : Point α) : Prop :=
  ∃ v w, r.vertices side = .ok v ∧ v.inside? p = some w

omit [Scalar α] in
/-- The source corners of the row cannot be read. -/
def Unreadable (r : TriangleRow β α) : Prop := ∃ d, r.triangle = .error d

theorem spoils_source_iff : r.Spoils .source p d ↔ r.triangle = .error d := by
  constructor
  · rintro (h | ⟨v, w, -, -, h⟩)
    · exact h
    · rw [corrections_source] at h
      cases h
  · exact fun h => Or.inl h

theorem misses_source_iff : r.Misses .source p ↔ ¬ (r.Contains .source p ∨ r.Unreadable) := by
  rw [not_or]
  constructor
  · rintro ⟨v, hv, hmiss⟩
    have htriangle : r.triangle = .ok v := hv
    refine ⟨?_, ?_⟩
    · rintro ⟨v', w, hv', hin⟩
      exact not_misses_of_inside hv' hin ⟨v, hv, hmiss⟩
    · rintro ⟨d, hd⟩
      rw [htriangle] at hd
      cases hd
  · rintro ⟨hout, hreadable⟩
    cases ht : r.triangle with
    | error d => exact absurd ⟨d, ht⟩ hreadable
    | ok v =>
      refine ⟨v, ht, Option.eq_none_iff_forall_ne_some.mpr fun w hin => hout ⟨v, w, ht, hin⟩⟩

theorem spoils_target_iff (ht : r.target ≠ none) :
    r.Spoils .target p d ↔ r.Contains .target p ∧ r.triangle = .error d := by
  obtain ⟨t, htarget⟩ := Option.ne_none_iff_exists'.mp ht
  have hcorrections : r.corrections .target = .error d ↔ r.triangle = .error d := by
    simp only [corrections, htarget]
    cases r.triangle <;> simp [Except.map]
  constructor
  · rintro (h | ⟨v, w, hv, hin, h⟩)
    · rw [vertices_target htarget] at h
      cases h
    · exact ⟨⟨v, w, hv, hin⟩, hcorrections.mp h⟩
  · rintro ⟨⟨v, w, hv, hin⟩, h⟩
    exact Or.inr ⟨v, w, hv, hin, hcorrections.mpr h⟩

theorem misses_target_iff (ht : r.target ≠ none) : r.Misses .target p ↔ ¬ r.Contains .target p := by
  obtain ⟨t, htarget⟩ := Option.ne_none_iff_exists'.mp ht
  have hvertices := vertices_target htarget
  constructor
  · rintro hmiss ⟨v, w, hv, hin⟩
    exact not_misses_of_inside hv hin hmiss
  · intro hout
    exact ⟨t, hvertices, Option.eq_none_iff_forall_ne_some.mpr fun w hin => hout ⟨t, w, hvertices, hin⟩⟩

/-- The row forms a usable triangle that would replace the best candidate so far. -/
def Beats (r : TriangleRow β α) (strategy : FallbackStrategy) (side : Side) (p : Point α)
    (best : Option (Candidate α)) : Prop :=
  ∃ v, r.Usable side v ∧ withinBest best p v = true ∧ beatsBest best (strategy.sqDistance p v) = true

/-- The outward search has read the rows before this one and is about to make it the best candidate. -/
def AboutToAdopt (strategy : FallbackStrategy) (side : Side) (p : Point α)
    (rows : List (TriangleRow β α)) (r : TriangleRow β α) : Prop :=
  ∃ pre post n best, rows = pre ++ r :: post ∧
    readRows (fallbackStep strategy side p) none pre = (n, .exhausted best) ∧ r.Beats strategy side p best

end TriangleRow

variable {strategy : FallbackStrategy} {best : Option (Candidate α)} {r : TriangleRow β α}

/-- On the source side a row fails the outward search if and only if it cannot be read. -/
theorem fallbackStep_source_error_iff :
    fallbackStep strategy .source p best r = .error e ↔ ∃ d, r.triangle = .error d ∧ e = .decode d := by
  constructor
  · intro h
    rcases fallbackStep_cases strategy .source p best r with ⟨_, -, -, hr⟩ | ⟨_, -, -, -, hr⟩ |
      ⟨d, hd, hr⟩ <;> rw [hr] at h <;> cases h
    rcases hd with hd | hd
    · exact ⟨d, hd, rfl⟩
    · rw [TriangleRow.corrections_source] at hd
      cases hd
  · rintro ⟨d, hd, rfl⟩
    have hvertices : r.vertices .source = .error d := hd
    simp only [fallbackStep, hvertices]

/-- On the target side a row fails the outward search if and only if it would become the best candidate and
its source corners cannot be read. -/
theorem fallbackStep_target_error_iff (ht : r.target ≠ none) :
    fallbackStep strategy .target p best r = .error e ↔
      r.Beats strategy .target p best ∧ ∃ d, r.triangle = .error d ∧ e = .decode d := by
  obtain ⟨t, htarget⟩ := Option.ne_none_iff_exists'.mp ht
  have hvertices := TriangleRow.vertices_target htarget
  have hbeats : r.Beats strategy .target p best ↔ withinBest best p t = true ∧ t.isDegenerate = false ∧
      beatsBest best (strategy.sqDistance p t) = true := by
    constructor
    · rintro ⟨v, husable, hwithin, hbetter⟩
      have hv := husable.vertices
      rw [hvertices] at hv
      injection hv with hv
      subst hv
      exact ⟨hwithin, husable.usable, hbetter⟩
    · rintro ⟨hwithin, husable, hbetter⟩
      exact ⟨t, ⟨hvertices, husable⟩, hwithin, hbetter⟩
  rw [hbeats]
  simp only [fallbackStep, hvertices, TriangleRow.corrections, htarget]
  by_cases hskip : (!withinBest best p t || t.isDegenerate) = true
  · rw [if_pos hskip]
    rw [Bool.or_eq_true, Bool.not_eq_true'] at hskip
    rcases hskip with hskip | hskip <;> simp [hskip]
  · rw [if_neg hskip]
    rw [Bool.or_eq_true, Bool.not_eq_true', not_or, Bool.not_eq_false, Bool.not_eq_true] at hskip
    by_cases hbetter : beatsBest best (strategy.sqDistance p t) = true
    · rw [if_pos hbetter]
      cases r.triangle with
      | error d => simp [Except.map, hskip, hbetter, eq_comm]
      | ok v => simp [Except.map]
    · rw [if_neg hbetter]
      simp [hbetter]

/-- A window of the source side fails with its first row that cannot be read. -/
theorem TriangleSource.NeverFails.scan_source_error_iff (hs : s.NeverFails) (w : Window α) :
    ((s.query w).scan (fallbackStep strategy .source p) none).2 = .error e ↔
      ∃ r d, Foremost TriangleRow.Unreadable (s.query w).rows r ∧ r.triangle = .error d ∧
        e = .decode d := by
  refine (hs.scan_error_iff w).trans ⟨?_, ?_⟩
  · rintro ⟨pre, r, post, n, last, hrows, hread, hstep⟩
    obtain ⟨d, hd, rfl⟩ := fallbackStep_source_error_iff.mp hstep
    -- the rows that were read could be read
    have hpre := readRows_inv (I := fun pre _ => ∀ q ∈ pre, ¬ q.Unreadable)
      (fun pre st q next hI hq => ?_) pre [] none (by simp) hread
    · exact ⟨r, d, ⟨pre, post, hrows, hpre⟩, hd, rfl⟩
    · rw [List.forall_mem_append, List.forall_mem_singleton]
      refine ⟨hI, ?_⟩
      rintro ⟨d', hd'⟩
      rw [fallbackStep_source_error_iff.mpr ⟨d', hd', rfl⟩] at hq
      cases hq
  · rintro ⟨r, d, ⟨pre, post, hrows, hpre⟩, hd, rfl⟩
    have hreadable : ∀ q ∈ pre, ∃ t, q.triangle = .ok t := by
      intro q hq
      cases ht : q.triangle with
      | error d' => exact absurd ⟨d', ht⟩ (hpre q hq)
      | ok t => exact ⟨t, rfl⟩
    obtain ⟨n, last, hread⟩ := exists_readRows_exhausted strategy .source p pre none hreadable
    exact ⟨pre, r, post, n, last, hrows, hread, fallbackStep_source_error_iff.mpr ⟨d, hd, rfl⟩⟩

/-- A window of the target side fails with the row that is about to be adopted and cannot be read. -/
theorem TriangleSource.NeverFails.scan_target_error_iff (hs : s.NeverFails) {w : Window α}
    (ht : ∀ r ∈ (s.query w).rows, r.target ≠ none) :
    ((s.query w).scan (fallbackStep strategy .target p) none).2 = .error e ↔
      ∃ (r : TriangleRow β α) (d : DecodeError), r.AboutToAdopt strategy .target p (s.query w).rows ∧
        r.triangle = .error d ∧ e = .decode d := by
  refine (hs.scan_error_iff w).trans ⟨?_, ?_⟩
  · rintro ⟨pre, r, post, n, last, hrows, hread, hstep⟩
    have hr : r ∈ (s.query w).rows := by rw [hrows]; simp
    obtain ⟨hbeats, d, hd, he⟩ := (fallbackStep_target_error_iff (ht r hr)).mp hstep
    exact ⟨r, d, ⟨pre, post, n, last, hrows, hread, hbeats⟩, hd, he⟩
  · rintro ⟨r, d, ⟨pre, post, n, last, hrows, hread, hbeats⟩, hd, he⟩
    have hr : r ∈ (s.query w).rows := by rw [hrows]; simp
    exact ⟨pre, r, post, n, last, hrows, hread,
      (fallbackStep_target_error_iff (ht r hr)).mpr ⟨hbeats, d, hd, he⟩⟩

variable {cache : Option (CachedTriangle α)} {d : Direction}

/-- A lookup on the source side fails with the first row that cannot be read: in the exact window before
the first row that contains the point, or in a window of the outward search. -/
theorem find_error_source_iff (hs : s.NeverFails) (hcache : cachedMatch? cache p d = none)
    (hside : s.metadata.searchedSide d = .source) :
    (s.find cache p d).answer = .error e ↔
      ∃ (r : TriangleRow β α) (fault : DecodeError), r.triangle = .error fault ∧ e = .decode fault ∧
        (Foremost (fun q => q.Contains .source p ∨ q.Unreadable) (s.exactRows .source p) r ∨
          (∀ q ∈ s.exactRows .source p, ¬ (q.Contains .source p ∨ q.Unreadable)) ∧
            s.metadata.fallback ≠ .none ∧
            ∃ k ∈ (s.find cache p d).queries.tail,
              Foremost TriangleRow.Unreadable (s.query k.window).rows r) := by
  have hmisses : (fun q : TriangleRow β α => ¬ q.Misses .source p) =
      fun q => q.Contains .source p ∨ q.Unreadable := by
    funext q
    rw [TriangleRow.misses_source_iff, not_not]
  rw [find_error_iff hcache, hside, exactSearch_error_iff hs, exactSearch_none_iff hs, hmisses]
  simp only [hs.scan_source_error_iff, TriangleRow.spoils_source_iff, TriangleRow.misses_source_iff]
  constructor
  · rintro (⟨r, fault, hforemost, hr, he⟩ | ⟨hmiss, hfallback, k, hk, r, fault, hforemost, hr, he⟩)
    · exact ⟨r, fault, hr, he, Or.inl hforemost⟩
    · exact ⟨r, fault, hr, he, Or.inr ⟨hmiss, hfallback, k, hk, hforemost⟩⟩
  · rintro ⟨r, fault, hr, he, hforemost | ⟨hmiss, hfallback, k, hk, hforemost⟩⟩
    · exact Or.inl ⟨r, fault, hforemost, hr, he⟩
    · exact Or.inr ⟨hmiss, hfallback, k, hk, r, fault, hforemost, hr, he⟩

/-- Such a lookup fails if a row that cannot be read stands before every row that contains the point, or if
none contains the point and the outward search streams a row that cannot be read. -/
theorem find_fails_source_iff (hs : s.NeverFails) (hcache : cachedMatch? cache p d = none)
    (hside : s.metadata.searchedSide d = .source) :
    (∃ e, (s.find cache p d).answer = .error e) ↔
      (∃ r, Foremost (fun q => q.Contains .source p) (s.exactRows .source p) r ∧ r.Unreadable) ∨
        (∀ q ∈ s.exactRows .source p, ¬ q.Contains .source p) ∧
          s.metadata.fallback ≠ .none ∧
          ∃ k ∈ (s.find cache p d).queries.tail, ∃ r ∈ (s.query k.window).rows, r.Unreadable := by
  generalize hexact : s.exactRows .source p = exact
  have herror : ∀ {r : TriangleRow β α}, r.Unreadable →
      (Foremost (fun q => q.Contains .source p ∨ q.Unreadable) exact r ∨
        (∀ q ∈ exact, ¬ (q.Contains .source p ∨ q.Unreadable)) ∧ s.metadata.fallback ≠ .none ∧
          ∃ k ∈ (s.find cache p d).queries.tail,
            Foremost TriangleRow.Unreadable (s.query k.window).rows r) →
      ∃ e, (s.find cache p d).answer = .error e := by
    rintro r ⟨fault, hfault⟩ h
    exact ⟨_, (find_error_source_iff hs hcache hside).mpr ⟨r, fault, hfault, rfl, hexact ▸ h⟩⟩
  constructor
  · rintro ⟨e, h⟩
    obtain ⟨r, fault, hr, -, h⟩ := (find_error_source_iff hs hcache hside).mp h
    rw [hexact] at h
    rcases h with h | ⟨hnone, hfallback, k, hk, h⟩
    · exact Or.inl ⟨r, h.mono fun q hq => Or.inl hq, fault, hr⟩
    · exact Or.inr ⟨fun q hq hin => hnone q hq (Or.inl hin), hfallback, k, hk, r, h.mem, fault, hr⟩
  · rintro (⟨r, hforemost, hr⟩ | ⟨hout, hfallback, k, hk, r, hr, hbad⟩)
    · obtain ⟨first, hfirst, hbad⟩ := hforemost.exists_first hr
      exact herror hbad (Or.inl hfirst)
    · by_cases hexists : ∃ q ∈ exact, q.Contains .source p ∨ q.Unreadable
      · obtain ⟨first, hforemost, hkind⟩ := exists_foremost hexists
        exact herror (hkind.resolve_left (hout first hforemost.mem)) (Or.inl hforemost)
      · obtain ⟨first, hforemost, hkind⟩ := exists_foremost ⟨r, hr, hbad⟩
        exact herror hkind (Or.inr ⟨fun q hq hA => hexists ⟨q, hq, hA⟩, hfallback, k, hk, hforemost⟩)

/-- A lookup on the target side of rows with targets fails with the first row that contains the point, or
with a row that the outward search is about to adopt, if its source corners cannot be read. -/
theorem find_error_target_iff (hs : s.NeverFails) (ht : ∀ w, ∀ r ∈ (s.query w).rows, r.target ≠ none)
    (hcache : cachedMatch? cache p d = none) (hside : s.metadata.searchedSide d = .target) :
    (s.find cache p d).answer = .error e ↔
      ∃ (r : TriangleRow β α) (fault : DecodeError), r.triangle = .error fault ∧ e = .decode fault ∧
        (Foremost (fun q => q.Contains .target p) (s.exactRows .target p) r ∧ r.Contains .target p ∨
          (∀ q ∈ s.exactRows .target p, ¬ q.Contains .target p) ∧
            s.metadata.fallback ≠ .none ∧
            ∃ k ∈ (s.find cache p d).queries.tail,
              r.AboutToAdopt s.metadata.fallback .target p (s.query k.window).rows) := by
  have hmisses : ∀ {w r}, r ∈ (s.query w).rows → (r.Misses .target p ↔ ¬ r.Contains .target p) :=
    fun hr => TriangleRow.misses_target_iff (ht _ _ hr)
  have hforemost : ∀ {r}, Foremost (fun q => ¬ q.Misses .target p) (s.exactRows .target p) r ↔
      Foremost (fun q => q.Contains .target p) (s.exactRows .target p) r := by
    intro r
    refine exists_congr fun pre => exists_congr fun post => and_congr_right fun hrows => ?_
    refine forall₂_congr fun q hq => ?_
    show ¬ ¬ q.Misses .target p ↔ ¬ q.Contains .target p
    have hmem : q ∈ s.exactRows .target p := by
      rw [hrows]
      exact List.mem_append_left _ hq
    rw [hmisses hmem, not_not]
  rw [find_error_iff hcache, hside, exactSearch_error_iff hs, exactSearch_none_iff hs]
  simp only [hs.scan_target_error_iff (ht _), hforemost]
  constructor
  · rintro (⟨r, fault, hfirst, hspoil, he⟩ | ⟨hmiss, hfallback, k, hk, r, fault, hadopt, hr, he⟩)
    · obtain ⟨hin, hr⟩ := (TriangleRow.spoils_target_iff (ht _ r hfirst.mem)).mp hspoil
      exact ⟨r, fault, hr, he, Or.inl ⟨hfirst, hin⟩⟩
    · exact ⟨r, fault, hr, he,
        Or.inr ⟨fun q hq => (hmisses hq).mp (hmiss q hq), hfallback, k, hk, hadopt⟩⟩
  · rintro ⟨r, fault, hr, he, ⟨hfirst, hin⟩ | ⟨hmiss, hfallback, k, hk, hadopt⟩⟩
    · exact Or.inl ⟨r, fault, hfirst,
        (TriangleRow.spoils_target_iff (ht _ r hfirst.mem)).mpr ⟨hin, hr⟩, he⟩
    · exact Or.inr ⟨fun q hq => (hmisses hq).mpr (hmiss q hq), hfallback, k, hk, r, fault, hadopt, hr,
        he⟩

/-- Such a lookup fails if the first row that contains the point cannot be read, or if none contains the
point and the outward search is about to adopt a row that cannot be read. -/
theorem find_fails_target_iff (hs : s.NeverFails) (ht : ∀ w, ∀ r ∈ (s.query w).rows, r.target ≠ none)
    (hcache : cachedMatch? cache p d = none) (hside : s.metadata.searchedSide d = .target) :
    (∃ e, (s.find cache p d).answer = .error e) ↔
      (∃ r, Foremost (fun q => q.Contains .target p) (s.exactRows .target p) r ∧
          r.Contains .target p ∧ r.Unreadable) ∨
        (∀ q ∈ s.exactRows .target p, ¬ q.Contains .target p) ∧
          s.metadata.fallback ≠ .none ∧
          ∃ k ∈ (s.find cache p d).queries.tail, ∃ r : TriangleRow β α,
            r.AboutToAdopt s.metadata.fallback .target p (s.query k.window).rows ∧ r.Unreadable := by
  constructor
  · rintro ⟨e, h⟩
    obtain ⟨r, fault, hr, -, h⟩ := (find_error_target_iff hs ht hcache hside).mp h
    rcases h with ⟨hforemost, hin⟩ | ⟨hout, hfallback, k, hk, hadopt⟩
    · exact Or.inl ⟨r, hforemost, hin, fault, hr⟩
    · exact Or.inr ⟨hout, hfallback, k, hk, r, hadopt, fault, hr⟩
  · rintro (⟨r, hforemost, hin, fault, hr⟩ | ⟨hout, hfallback, k, hk, r, hadopt, fault, hr⟩)
    · exact ⟨_, (find_error_target_iff hs ht hcache hside).mpr
        ⟨r, fault, hr, rfl, Or.inl ⟨hforemost, hin⟩⟩⟩
    · exact ⟨_, (find_error_target_iff hs ht hcache hside).mpr
        ⟨r, fault, hr, rfl, Or.inr ⟨hout, hfallback, k, hk, hadopt⟩⟩⟩

/-- No row after the hit is read: a source that streams others there is looked up alike. -/
theorem find_of_same_until_hit (hs : s.NeverFails) (h : (s.find cache p d).ExactHit) :
    ∃ pre r post,
      s.exactRows (s.metadata.searchedSide d) p = pre ++ r :: post ∧
      r.Contains (s.metadata.searchedSide d) p ∧
      (s.find cache p d).queries =
        [⟨exactWindow s.metadata (s.metadata.searchedSide d) p, pre.length + 1⟩] ∧
      ∀ (s' : TriangleSource β α) others, s'.NeverFails → s'.metadata = s.metadata →
        s'.exactRows (s.metadata.searchedSide d) p = pre ++ r :: others →
        s'.find cache p d = s.find cache p d := by
  obtain ⟨hcache, q, hit, hexact⟩ := TriangleSource.find_exactHit_iff.mp h
  obtain ⟨pre, r, post, hrows, hmiss, hhit⟩ := exactSearch_some hexact
  have hsearch := exactSearch_of_hits hrows hmiss hhit (hs.stopFailure _ _)
  have hfind := (Lookup.Ends.hit hcache hsearch).find_eq
  refine ⟨pre, r, post, hrows, ⟨_, _, hhit.vertices, hhit.inside⟩, by rw [hfind],
    fun s' others hs' hm hrows' => ?_⟩
  rw [← hm] at hrows' hmiss hhit
  have hsearch' := exactSearch_of_hits hrows' hmiss hhit (hs'.stopFailure _ _)
  rw [(Lookup.Ends.hit hcache hsearch').find_eq, hfind, hm]

end Any

/-! ## Stored blobs -/

namespace TriangleRow

variable {r : TriangleRow Blob Float}

/-- The length of the first corner whose blob has not the length of a point. -/
def firstWrongLength? (r : TriangleRow Blob Float) : Option Nat :=
  (r.geometry.toList.map List.length).find? (· != PointBlob.length)

/-- Some corner has a blob of another length than that of a point. -/
def BadCorner (r : TriangleRow Blob Float) : Prop :=
  ∃ blob ∈ r.geometry.toList, blob.length ≠ PointBlob.length

/-- The corners are read one by one, up to the first wrong length. -/
theorem triangle_cases (r : TriangleRow Blob Float) :
    (∃ n, r.firstWrongLength? = some n ∧ r.triangle = .error ⟨PointBlob.length, n⟩) ∨
      r.firstWrongLength? = none ∧ ∃ t, r.triangle = .ok t :=
  PointBlob.decodeTriangle_cases r.geometry

/-- Reading the corners fails with the length of the first corner that has a wrong one. -/
theorem triangle_error_iff {fault : DecodeError} :
    r.triangle = .error fault ↔ ∃ n, r.firstWrongLength? = some n ∧ fault = ⟨PointBlob.length, n⟩ := by
  rcases r.triangle_cases with ⟨n, hn, ht⟩ | ⟨hnone, t, ht⟩
  · rw [ht, hn]
    simp [eq_comm]
  · rw [ht, hnone]
    simp

theorem unreadable_iff : r.Unreadable ↔ r.BadCorner := by
  have hsome : r.BadCorner ↔ r.firstWrongLength?.isSome = true := by
    simp [BadCorner, firstWrongLength?]
  rw [hsome, Option.isSome_iff_exists]
  constructor
  · rintro ⟨fault, h⟩
    obtain ⟨n, hn, -⟩ := triangle_error_iff.mp h
    exact ⟨n, hn⟩
  · rintro ⟨n, hn⟩
    exact ⟨_, triangle_error_iff.mpr ⟨n, hn, rfl⟩⟩

end TriangleRow

/-! ## Lookups of stored meshes -/

section Stored

variable {s : TriangleSource Blob Float} {p : Point Float} {lookup : Lookup Float}

/-- When and how a lookup on source corners fails, by the rows that the source streams for its windows; the
first window is the exact one. -/
structure TriangleSource.FailsOnSource (s : TriangleSource Blob Float) (p : Point Float)
    (lookup : Lookup Float) : Prop where
  /-- A bad row stands before every row that contains the point, or none contains it and a further window
  streams a bad row. -/
  fails_iff : (∃ e, lookup.answer = .error e) ↔
    (∃ r, Foremost (fun q => q.Contains .source p) (s.exactRows .source p) r ∧ r.BadCorner) ∨
    (∀ q ∈ s.exactRows .source p, ¬ q.Contains .source p) ∧
      s.metadata.fallback ≠ .none ∧
      ∃ k ∈ lookup.queries.tail, ∃ r ∈ (s.query k.window).rows, r.BadCorner
  /-- The error reports the first bad corner of the first bad row. -/
  error_iff : ∀ e, lookup.answer = .error e ↔
    ∃ (r : TriangleRow Blob Float) (n : Nat), r.firstWrongLength? = some n ∧
      e = .decode ⟨PointBlob.length, n⟩ ∧
      (Foremost (fun q => q.Contains .source p ∨ q.BadCorner) (s.exactRows .source p) r ∨
        (∀ q ∈ s.exactRows .source p, ¬ (q.Contains .source p ∨ q.BadCorner)) ∧
          s.metadata.fallback ≠ .none ∧ ∃ k ∈ lookup.queries.tail,
            Foremost TriangleRow.BadCorner (s.query k.window).rows r)

/-- When and how a lookup on target corners fails.  The row that fails it is the first one that contains the
point, or, if none contains it, one that the scan of a further window is about to adopt. -/
structure TriangleSource.FailsOnTarget (s : TriangleSource Blob Float) (p : Point Float)
    (lookup : Lookup Float) : Prop where
  fails_iff : (∃ e, lookup.answer = .error e) ↔
    (∃ r, Foremost (fun q => q.Contains .target p) (s.exactRows .target p) r ∧
      r.Contains .target p ∧ r.BadCorner) ∨
    (∀ q ∈ s.exactRows .target p, ¬ q.Contains .target p) ∧
      s.metadata.fallback ≠ .none ∧
      ∃ k ∈ lookup.queries.tail, ∃ r : TriangleRow Blob Float,
        r.AboutToAdopt s.metadata.fallback .target p (s.query k.window).rows ∧ r.BadCorner
  /-- The error reports the first bad corner of that row. -/
  error_iff : ∀ e, lookup.answer = .error e ↔
    ∃ (r : TriangleRow Blob Float) (n : Nat), r.firstWrongLength? = some n ∧
      e = .decode ⟨PointBlob.length, n⟩ ∧
      (Foremost (fun q => q.Contains .target p) (s.exactRows .target p) r ∧ r.Contains .target p ∨
        (∀ q ∈ s.exactRows .target p, ¬ q.Contains .target p) ∧
          s.metadata.fallback ≠ .none ∧ ∃ k ∈ lookup.queries.tail,
            r.AboutToAdopt s.metadata.fallback .target p (s.query k.window).rows)

/-- A row that cannot be read, by the length of its first bad corner. -/
theorem exists_fault_iff {X : TriangleRow Blob Float → Prop} {e : MeshError} :
    (∃ (r : TriangleRow Blob Float) (fault : DecodeError), r.triangle = .error fault ∧
      e = .decode fault ∧ X r) ↔
    ∃ (r : TriangleRow Blob Float) (n : Nat), r.firstWrongLength? = some n ∧
      e = .decode ⟨PointBlob.length, n⟩ ∧ X r := by
  constructor
  · rintro ⟨r, fault, hr, he, hX⟩
    obtain ⟨n, hn, rfl⟩ := TriangleRow.triangle_error_iff.mp hr
    exact ⟨r, n, hn, he, hX⟩
  · rintro ⟨r, n, hn, he, hX⟩
    exact ⟨r, _, TriangleRow.triangle_error_iff.mpr ⟨n, hn, rfl⟩, he, hX⟩

/-- **When a lookup fails to decode.**  Over a source that never fails itself, a lookup that the cached
triangle does not answer fails as follows.  Searching source corners, it fails if in the exact window a row
with a corner blob of a wrong length stands before every row that contains the point, or if no row contains
the point, the mesh declares a fallback, and one of the further windows streams such a row.  Searching the
target corners of rows that have them, it fails if the first row that contains the point has such a blob, or
if no row contains the point, the mesh declares a fallback, and the search is about to adopt such a row.  The
error reports the first bad corner of the first such row.  After a hit no row is read: what the source
streams behind it changes nothing. -/
theorem lookup_fails_by_decoding (hs : s.NeverFails) {cache : Option (CachedTriangle Float)}
    {d : Direction} (hcache : cachedMatch? cache p d = none) :
    (d = .forward ∨ s.metadata.horizontal = false → s.FailsOnSource p (s.find cache p d)) ∧
    (d = .inverse → s.metadata.horizontal = true → (∀ w, ∀ r ∈ (s.query w).rows, r.target ≠ none) →
      s.FailsOnTarget p (s.find cache p d)) ∧
    ((s.find cache p d).ExactHit → ∃ pre r post,
      s.exactRows (s.metadata.searchedSide d) p = pre ++ r :: post ∧
      r.Contains (s.metadata.searchedSide d) p ∧
      (s.find cache p d).queries =
        [⟨exactWindow s.metadata (s.metadata.searchedSide d) p, pre.length + 1⟩] ∧
      ∀ (s' : TriangleSource Blob Float) others, s'.NeverFails → s'.metadata = s.metadata →
        s'.exactRows (s.metadata.searchedSide d) p = pre ++ r :: others →
        s'.find cache p d = s.find cache p d) := by
  have hbad : (TriangleRow.Unreadable : TriangleRow Blob Float → Prop) = TriangleRow.BadCorner :=
    funext fun r => propext r.unreadable_iff
  refine ⟨fun hd => ?_, fun hd hhorizontal ht => ?_, fun hhit => find_of_same_until_hit hs hhit⟩
  · have hside : s.metadata.searchedSide d = .source := by
      rcases hd with rfl | hflat
      · rfl
      · exact MeshMetadata.searchedSide_flat hflat d
    have hfails := find_fails_source_iff hs hcache hside
    have herror := fun e => (find_error_source_iff (e := e) hs hcache hside).trans exists_fault_iff
    rw [hbad] at hfails herror
    exact ⟨hfails, herror⟩
  · subst hd
    have hside := MeshMetadata.searchedSide_inverse hhorizontal
    have hfails := find_fails_target_iff hs ht hcache hside
    have herror := fun e => (find_error_target_iff (e := e) hs ht hcache hside).trans exists_fault_iff
    rw [hbad] at hfails
    exact ⟨hfails, herror⟩

/-! ## One row with a truncated corner -/

section Truncated

def truncatedTarget : Triangle Float := ⟨⟨0, 0⟩, ⟨10, 0⟩, ⟨0, 10⟩⟩

/-- The second corner of the row is cut short, and the third one is missing; its target corners are there. -/
def truncatedRow : TriangleRow Blob Float :=
  ⟨⟨List.replicate PointBlob.length 0, List.replicate 5 0, []⟩, some truncatedTarget, none⟩

/-- A mesh with horizontal corrections that streams this row for every window. -/
def truncatedStore : TriangleSource Blob Float :=
  .ofAllRows
    { horizontal := true, vertical := none, shift := .none, fallback := .none, vertexCount := none,
      extent := ⟨⟨0, 0⟩, ⟨10, 10⟩⟩, inputCrs := none, outputCrs := none }
    [truncatedRow]

/-- A mesh with a fallback that streams this row for the windows which meet a corner of its extent. -/
def truncatedCorner : TriangleSource Blob Float where
  metadata := { truncatedStore.metadata with fallback := .nearestSide, vertexCount := VertexCount.ofInt? 3 }
  query w := { rows := if w.meets ⟨0, 0⟩ ⟨4, 4⟩ then [truncatedRow] else [] }

/-- Far from that corner the exact window is empty, and a further one has the row. -/
theorem truncatedCorner_windows (d : Direction) :
    truncatedCorner.exactRows (truncatedCorner.metadata.searchedSide d) ⟨9, 9⟩ = [] ∧
    ∃ k ∈ (truncatedCorner.find none ⟨9, 9⟩ d).queries.tail,
      (truncatedCorner.query k.window).rows = [truncatedRow] := by
  have hexact : ¬ (exactWindow truncatedCorner.metadata (truncatedCorner.metadata.searchedSide d)
      ⟨9, 9⟩).meets ⟨0, 0⟩ ⟨4, 4⟩ = true := by
    cases d <;> decide +kernel
  have hfurther : ∃ k ∈ (truncatedCorner.find none ⟨9, 9⟩ d).queries.tail,
      k.window.meets ⟨0, 0⟩ ⟨4, 4⟩ = true := by
    cases d <;> decide +kernel
  obtain ⟨k, hk, hmeets⟩ := hfurther
  exact ⟨if_neg hexact, k, hk, if_pos hmeets⟩

/-- Before any other row is read, the outward search from the target side is about to adopt it. -/
theorem truncatedRow_aboutToAdopt :
    truncatedRow.AboutToAdopt .nearestSide .target ⟨9, 9⟩ [truncatedRow] := by
  refine ⟨[], [], 0, none, rfl, rfl, truncatedTarget, ⟨rfl, ?_⟩, rfl, ?_⟩
  · decide +kernel
  · decide +kernel

/-- Going forward the row fails every lookup, with the length of its second corner.  Going back it fails the
lookups of the points in its target triangle.  With a fallback it fails, both ways, the lookup of a point far
from it. -/
theorem truncatedStore_lookup_fails :
    (truncatedStore.find none ⟨1, 1⟩ .forward).answer = .error (.decode ⟨PointBlob.length, 5⟩) ∧
    ((∃ e, (truncatedStore.find none ⟨1, 1⟩ .inverse).answer = .error e) ↔
      ∃ w, truncatedTarget.inside? ⟨1, 1⟩ = some w) ∧
    (truncatedCorner.find none ⟨9, 9⟩ .forward).answer = .error (.decode ⟨PointBlob.length, 5⟩) ∧
    (truncatedCorner.find none ⟨9, 9⟩ .inverse).answer = .error (.decode ⟨PointBlob.length, 5⟩) := by
  have hs : truncatedStore.NeverFails := ⟨fun _ => rfl, fun _ _ => rfl⟩
  have hs' : truncatedCorner.NeverFails := ⟨fun _ => rfl, fun _ _ => rfl⟩
  have hforemost : ∀ {A : TriangleRow Blob Float → Prop}, Foremost A [truncatedRow] truncatedRow :=
    ⟨[], [], rfl, by simp⟩
  have hbad : truncatedRow.firstWrongLength? = some 5 := by decide
  have hcache : ∀ (p : Point Float) d, cachedMatch? none p d = none := fun _ _ => rfl
  refine ⟨?_, ?_, ?_, ?_⟩
  · obtain ⟨hsource, -⟩ := lookup_fails_by_decoding hs (hcache ⟨1, 1⟩ .forward)
    exact ((hsource (Or.inl rfl)).error_iff _).mpr ⟨truncatedRow, 5, hbad, rfl, Or.inl hforemost⟩
  · obtain ⟨-, htarget, -⟩ := lookup_fails_by_decoding hs (hcache ⟨1, 1⟩ .inverse)
    have ht : ∀ w, ∀ r ∈ (truncatedStore.query w).rows, r.target ≠ none := by
      intro w r hr
      rw [List.mem_singleton.mp hr]
      decide
    refine (htarget rfl rfl ht).fails_iff.trans ⟨?_, ?_⟩
    · rintro (⟨r, hr, ⟨v, w, hv, hin⟩, -⟩ | ⟨-, hfallback, -⟩)
      · rw [List.mem_singleton.mp hr.mem] at hv
        injection hv with hv
        exact ⟨w, hv ▸ hin⟩
      · exact absurd rfl hfallback
    · rintro ⟨w, hin⟩
      refine Or.inl ⟨truncatedRow, hforemost, ⟨truncatedTarget, w, rfl, hin⟩, ?_⟩
      exact ⟨List.replicate 5 0, by simp [truncatedRow, Corners.toList], by decide⟩
  · obtain ⟨hsource, -⟩ := lookup_fails_by_decoding hs' (hcache ⟨9, 9⟩ .forward)
    obtain ⟨hexact, k, hk, hrows⟩ := truncatedCorner_windows .forward
    refine ((hsource (Or.inl rfl)).error_iff _).mpr
      ⟨truncatedRow, 5, hbad, rfl, Or.inr ⟨fun q hq => ?_, by decide, k, hk, ?_⟩⟩
    · have hempty : truncatedCorner.exactRows .source ⟨9, 9⟩ = [] := hexact
      rw [hempty] at hq
      cases hq
    · rw [hrows]
      exact hforemost
  · obtain ⟨-, htarget, -⟩ := lookup_fails_by_decoding hs' (hcache ⟨9, 9⟩ .inverse)
    obtain ⟨hexact, k, hk, hrows⟩ := truncatedCorner_windows .inverse
    have ht : ∀ w, ∀ r ∈ (truncatedCorner.query w).rows, r.target ≠ none := by
      intro w r hr
      have hr' : r ∈ if w.meets ⟨0, 0⟩ ⟨4, 4⟩ then [truncatedRow] else [] := hr
      split_ifs at hr'
      · rw [List.mem_singleton.mp hr']
        decide
      · cases hr'
    refine ((htarget rfl rfl ht).error_iff _).mpr
      ⟨truncatedRow, 5, hbad, rfl, Or.inr ⟨fun q hq => ?_, by decide, k, hk, ?_⟩⟩
    · have hempty : truncatedCorner.exactRows .target ⟨9, 9⟩ = [] := hexact
      rw [hempty] at hq
      cases hq
    · rw [hrows]
      exact truncatedRow_aboutToAdopt

end Truncated

end Stored

end ShiftMesh
