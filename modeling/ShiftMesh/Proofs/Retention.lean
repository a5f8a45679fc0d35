import ShiftMesh.Proofs.Lookup

/-!
# ShiftMesh.Proofs.Retention — what a run of lookups leaves of the cached triangle

The cached triangle is the only state that one lookup hands to the next.  Except for the example at the
end, nothing here depends on the arithmetic, and the initial cache is arbitrary.

* `Lookup.ExactHit`: the exact search ran, hit, and did not fail; `TriangleSource.find_exactHit_iff` says
  so of the search itself.
* `Call`, `lookups`, `cacheAfter`: a run of lookups, each on the source as it is at that moment.
* `cacheAfter_of_no_exactHit`: a run without an exact hit leaves the cached triangle as it was, whatever
  it misses, extrapolates or fails at.
* `only_exact_hit_replaces_cache`: the law of one lookup and of a run.
-/

namespace ShiftMesh

variable {β α : Type} [Scalar α] [StoredPoint β α]

/-! ## One lookup -/

/-- The lookup was answered by its own exact search. -/
def Lookup.ExactHit (lookup : Lookup α) : Prop := lookup.stage = .exact ∧ lookup.Found

section One

variable {s : TriangleSource β α} {cache : Option (CachedTriangle α)} {p : Point α} {d : Direction}

/-- After an exact hit the cached triangle is that of the row hit. -/
theorem TriangleSource.find_of_exactSearch {q : Query α} {hit : Hit α}
    (hcache : cachedMatch? cache p d = none)
    (hexact : exactSearch s (s.metadata.searchedSide d) p = (q, .ok (some hit))) :
    s.find cache p d = ⟨.ok (some ⟨hit.weights, hit.corrections⟩),
      some ⟨d, hit.vertices, hit.corrections⟩, .exact, [q]⟩ :=
  (Lookup.Ends.hit hcache hexact).find_eq

/-- A lookup is an exact hit if and only if the cached triangle does not answer and the exact search
returns a hit; a failure of the stream after the hit makes it none. -/
theorem TriangleSource.find_exactHit_iff : (s.find cache p d).ExactHit ↔
    cachedMatch? cache p d = none ∧
      ∃ q hit, exactSearch s (s.metadata.searchedSide d) p = (q, .ok (some hit)) := by
  constructor
  · rintro ⟨hstage, found, hanswer⟩
    have hends := s.find_ends cache p d
    generalize s.find cache p d = lookup at hends hstage hanswer
    cases hends with
    | cached _ => cases hstage
    | failed _ _ => cases hanswer
    | @hit q hit hcache hexact => exact ⟨hcache, q, hit, hexact⟩
    | missed _ _ _ => cases hanswer
    | outward _ _ _ => cases hstage
  · rintro ⟨hcache, q, hit, hexact⟩
    rw [TriangleSource.find_of_exactSearch hcache hexact]
    exact ⟨rfl, _, rfl⟩

/-- A lookup that is no exact hit leaves the cache as it was. -/
theorem TriangleSource.find_cache_of_not_exactHit (h : ¬ (s.find cache p d).ExactHit) :
    (s.find cache p d).cache = cache := by
  have hends := s.find_ends cache p d
  generalize s.find cache p d = lookup at hends h
  cases hends with
  | cached _ => rfl
  | failed _ _ => rfl
  | hit _ _ => exact absurd ⟨rfl, _, rfl⟩ h
  | missed _ _ _ => rfl
  | outward _ _ _ => rfl

/-- A triangle in the cache answers for every point inside it, without a query. -/
theorem TriangleSource.find_of_inside {c : CachedTriangle α} {w : Weights α}
    (h : c.vertices.inside? p = some w) :
    s.find (some c) p c.direction = ⟨.ok (some ⟨w, c.corrections⟩), some c, .cache, []⟩ := by
  have hmatch : cachedMatch? (some c) p c.direction = some ⟨w, c.corrections⟩ := by
    simp only [cachedMatch?, if_true, h, Option.map_some]
  exact (Lookup.Ends.cached hmatch).find_eq

/-- A lookup that is answered before the outward search leaves the answering triangle in the cache. -/
theorem TriangleSource.find_cache_of_answer {found : TriangleMatch α}
    (hanswer : (s.find cache p d).answer = .ok (some found))
    (hstage : (s.find cache p d).stage ≠ .fallback) :
    ∃ c, (s.find cache p d).cache = some c ∧ c.direction = d ∧
      c.vertices.inside? p = some found.weights ∧ c.corrections = found.corrections := by
  have hfound := TriangleSource.find_foundBy hanswer
  generalize s.find cache p d = lookup at hfound hstage ⊢
  cases hfound with
  | cached hcache =>
    obtain ⟨c, hc, hd, hin, hcorr⟩ := cachedMatch?_eq_some hcache
    exact ⟨c, hc, hd, hin, hcorr.symm⟩
  | @hit q v r _ hhit => exact ⟨⟨d, v, found.corrections⟩, rfl, rfl, hhit.inside, rfl⟩
  | outward _ _ _ _ _ => exact absurd rfl hstage

end One

/-! ## Runs -/

/-- One lookup of a run, with the source as it is when the lookup is made. -/
structure Call (β α : Type) where
  source : TriangleSource β α
  point : Point α
  direction : Direction

/-- The lookup of a call. -/
def Call.run (call : Call β α) (cache : Option (CachedTriangle α)) : Lookup α :=
  call.source.find cache call.point call.direction

/-- The lookups of a run, the cached triangle handed from one to the next. -/
def lookups (cache : Option (CachedTriangle α)) : List (Call β α) → List (Lookup α)
  | [] => []
  | call :: rest => call.run cache :: lookups (call.run cache).cache rest

/-- The cached triangle at the end of a run. -/
def cacheAfter (cache : Option (CachedTriangle α)) : List (Call β α) → Option (CachedTriangle α)
  | [] => cache
  | call :: rest => cacheAfter (call.run cache).cache rest

/-- A run without an exact hit leaves the cached triangle as it was. -/
theorem cacheAfter_of_no_exactHit : ∀ (calls : List (Call β α)) (cache : Option (CachedTriangle α)),
    (∀ lookup ∈ lookups cache calls, ¬ lookup.ExactHit) → cacheAfter cache calls = cache
  | [], _, _ => rfl
  | call :: rest, cache, h => by
    obtain ⟨hcall, hrest⟩ := List.forall_mem_cons.mp h
    have hkept : (call.run cache).cache = cache := TriangleSource.find_cache_of_not_exactHit hcall
    rw [hkept] at hrest
    rw [cacheAfter, hkept]
    exact cacheAfter_of_no_exactHit rest cache hrest

/-- **Only an exact hit replaces the cached triangle.**  Over every source, from every cache and in every
arithmetic: a lookup whose exact search returns a hit leaves the triangle of the row hit in the cache,
and every other lookup leaves the cache as it was.  Hence, once the cached triangle or the exact search
has answered a call, the answering triangle stays through every run without an exact hit: after it each
call of the same direction inside that triangle is answered by it, without a query and with the weights
of its own point, and the same call gets the same match. -/
theorem only_exact_hit_replaces_cache (cache : Option (CachedTriangle α)) (call : Call β α) :
    (∀ q hit, cachedMatch? cache call.point call.direction = none →
      exactSearch call.source (call.source.metadata.searchedSide call.direction) call.point =
        (q, .ok (some hit)) →
      (call.run cache).cache = some ⟨call.direction, hit.vertices, hit.corrections⟩ ∧
        ∃ r ∈ (call.source.query q.window).rows,
          r.Hits (call.source.metadata.searchedSide call.direction) call.point hit) ∧
    ((¬ ∃ q hit, cachedMatch? cache call.point call.direction = none ∧
      exactSearch call.source (call.source.metadata.searchedSide call.direction) call.point =
        (q, .ok (some hit))) →
      (call.run cache).cache = cache) ∧
    ∀ found, (call.run cache).answer = .ok (some found) → (call.run cache).stage ≠ .fallback →
      ∃ c, (call.run cache).cache = some c ∧ c.direction = call.direction ∧
        c.vertices.inside? call.point = some found.weights ∧ c.corrections = found.corrections ∧
        ∀ between : List (Call β α),
          (∀ lookup ∈ lookups (some c) between, ¬ lookup.ExactHit) →
          cacheAfter (some c) between = some c ∧
          (∀ again : Call β α, again.direction = call.direction → ∀ w,
            c.vertices.inside? again.point = some w →
            c.vertices.weights? again.point = some w ∧
              again.run (cacheAfter (some c) between) =
                ⟨.ok (some ⟨w, c.corrections⟩), some c, .cache, []⟩) ∧
          ∀ s : TriangleSource β α,
            (s.find (cacheAfter (some c) between) call.point call.direction).answer =
              .ok (some found) := by
  refine ⟨fun q hit hcache hexact => ?_, fun hnone => ?_, fun found hanswer hstage => ?_⟩
  · refine ⟨?_, exists_hits_of_exactSearch hexact⟩
    rw [Call.run, TriangleSource.find_of_exactSearch hcache hexact]
  · refine TriangleSource.find_cache_of_not_exactHit fun h => hnone ?_
    obtain ⟨hcache, q, hit, hexact⟩ := TriangleSource.find_exactHit_iff.mp h
    exact ⟨q, hit, hcache, hexact⟩
  · obtain ⟨c, hc, hd, hin, hcorr⟩ := TriangleSource.find_cache_of_answer hanswer hstage
    refine ⟨c, hc, hd, hin, hcorr, fun between hbetween => ?_⟩
    rw [cacheAfter_of_no_exactHit between (some c) hbetween]
    refine ⟨rfl, ?_, ?_⟩
    · intro again hagain w hw
      refine ⟨(Triangle.inside?_eq_some.mp hw).1, ?_⟩
      rw [Call.run, hagain, ← hd]
      exact TriangleSource.find_of_inside hw
    · intro s
      rw [← hd, TriangleSource.find_of_inside hin, hcorr]

/-! ## A stream that fails after its hit -/

section Interrupted

/-- The triangle that the lookup of a point of the wedge leaves in the cache. -/
noncomputable def cachedWedge : CachedTriangle ℝ :=
  ⟨.forward, wedgeCorners, ⟨some wedgeTarget, wedge.vertical⟩⟩

/-- The wedge is streamed for every window, and the storage fails as soon as a reader stops. -/
noncomputable def interruptedStore : TriangleSource (Point ℝ) ℝ where
  metadata := wedgeMesh
  query _ := { rows := [wedge], stopFailure := fun _ => some (.storage .notADatabase) }

/-- A way back on that store. -/
noncomputable def interruptedCall (p : Point ℝ) : Call (Point ℝ) ℝ := ⟨interruptedStore, p, .inverse⟩

/-- Going back from the middle of the shifted wedge: the row is hit, and then the storage fails. -/
theorem interruptedCall_run : (interruptedCall ⟨4, 17 / 4⟩).run (some cachedWedge) =
    ⟨.error (.storage .notADatabase), some cachedWedge, .exact,
      [⟨exactWindow wedgeMesh .target ⟨4, 17 / 4⟩, 1⟩]⟩ := by
  have hhit : wedge.Hits .target ⟨4, 17 / 4⟩
      ⟨⟨1 / 2, 1 / 4, 1 / 4⟩, wedgeTarget, ⟨some wedgeCorners, wedge.vertical⟩⟩ := by
    refine ⟨rfl, Triangle.inside?_of_mem_unit wedgeTarget_weights ?_, rfl⟩
    simp only [List.forall_mem_cons]
    norm_num
  have hexact : exactSearch interruptedStore .target ⟨4, 17 / 4⟩ =
      (⟨exactWindow wedgeMesh .target ⟨4, 17 / 4⟩, 1⟩, .error (.storage .notADatabase)) := by
    simp only [exactSearch, RowStream.scan, interruptedStore, readRows, hhit.exactStep_eq,
      RowStream.settle]
  exact (Lookup.Ends.failed rfl hexact).find_eq

/-- The wedge answers a first call.  A second one hits it from the other side and then fails.  After that
the cache still holds the wedge for its first direction: it answers for another point inside without a
query, and the first call, repeated, gets the same match. -/
theorem wedge_kept_through_interruption :
    (wedgeStore.find none ⟨1, 1⟩ .forward).cache = some cachedWedge ∧
    ((interruptedCall ⟨4, 17 / 4⟩).run (some cachedWedge)).answer = .error (.storage .notADatabase) ∧
    interruptedStore.find (cacheAfter (some cachedWedge) [interruptedCall ⟨4, 17 / 4⟩]) ⟨2, 3⟩
        .forward =
      ⟨.ok (some ⟨⟨1 / 2, 1 / 5, 3 / 10⟩, ⟨some wedgeTarget, wedge.vertical⟩⟩), some cachedWedge,
        .cache, []⟩ ∧
    (interruptedStore.find (cacheAfter (some cachedWedge) [interruptedCall ⟨4, 17 / 4⟩]) ⟨1, 1⟩
        .forward).answer =
      (wedgeStore.find none ⟨1, 1⟩ .forward).answer := by
  have hrun : Call.run ⟨wedgeStore, ⟨1, 1⟩, .forward⟩ none =
      ⟨.ok (some ⟨⟨4 / 5, 1 / 10, 1 / 10⟩, ⟨some wedgeTarget, wedge.vertical⟩⟩),
        some cachedWedge, .exact, [⟨exactWindow wedgeMesh .source ⟨1, 1⟩, 1⟩]⟩ :=
    wedgeStore_find_forward
  have hbetween : ∀ lookup ∈ lookups (some cachedWedge) [interruptedCall ⟨4, 17 / 4⟩],
      ¬ lookup.ExactHit := by
    intro lookup hmem
    rw [lookups, lookups, List.mem_singleton] at hmem
    rintro ⟨-, found, hfound⟩
    rw [hmem, interruptedCall_run] at hfound
    cases hfound
  have hinside : wedgeCorners.inside? ⟨2, 3⟩ = some ⟨1 / 2, 1 / 5, 3 / 10⟩ := by
    refine Triangle.inside?_of_mem_unit (Triangle.weights?_eq_some_of
      (Triangle.not_lt_of_weights? wedgeCorners_weights) (by norm_num)
      (Point.eq_of_coordinates ?_ ?_)) ?_
    · norm_num [Weights.blendPoint, wedgeCorners]
    · norm_num [Weights.blendPoint, wedgeCorners]
    · simp only [List.forall_mem_cons]
      norm_num
  obtain ⟨c, hc, -, -, -, hkept⟩ := (only_exact_hit_replaces_cache none
    ⟨wedgeStore, ⟨1, 1⟩, .forward⟩).2.2 _ (congrArg Lookup.answer hrun) (by rw [hrun]; decide)
  rw [hrun] at hc
  injection hc with hc
  rw [← hc] at hkept
  obtain ⟨-, hanswers, hrepeat⟩ := hkept [interruptedCall ⟨4, 17 / 4⟩] hbetween
  refine ⟨congrArg Lookup.cache hrun, by rw [interruptedCall_run], ?_, ?_⟩
  · exact (hanswers ⟨interruptedStore, ⟨2, 3⟩, .forward⟩ rfl _ hinside).2
  · rw [hrepeat interruptedStore]
    exact (congrArg Lookup.answer hrun).symm

end Interrupted

end ShiftMesh
