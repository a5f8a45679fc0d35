import ShiftMesh.Proofs.Evaluation

/-!
# ShiftMesh.Proofs.Simulation — two sources that lookups cannot tell apart

Two sources stream rows in pairs, and the triangles of a pair contain the same points, lie at the same
distances and can be read or not alike.  Then lookups on the two sources issue the same queries, end at the
same stage, and answer or fail alike; the matches they answer with are read off the two rows of a pair.
Nothing here depends on the arithmetic.

* `readRows_rel`: readers whose steps agree on paired rows read paired lists alike.
* `Triangle.Alike`, `TriangleRow.Alike`: what a search can observe of a triangle and of a row.
* `exactStep_rel`, `fallbackStep_rel`: one row of either search.
* `TriangleSource.Paired`: the two sources; `exactSearch_rel`, `searchOutward_rel`, `fallbackSearch_rel`:
  the searches on them.
* `TriangleSource.Paired.find`: one lookup keeps two paired caches paired.
* `TriangleSource.Paired.findAll`, `TriangleSource.Paired.transformAll_calls`: runs of lookups and of
  transformations, by induction on the calls.
* `TriangleSource.Paired.transformAll_seen`: runs that a caller cannot tell apart.
-/

namespace ShiftMesh

/-! ## Readers in step -/

section Readers

variable {ε κ σ τ ρ ρ' : Type}

/-- Two results that succeed with related values, or fail alike. -/
inductive SameOutcome (R : σ → τ → Prop) : Except ε σ → Except ε τ → Prop
  | ok {a b} (h : R a b) : SameOutcome R (.ok a) (.ok b)
  | error (e) : SameOutcome R (.error e) (.error e)

theorem SameOutcome.dest {R : σ → τ → Prop} {x : Except ε σ} {y : Except ε τ}
    (h : SameOutcome R x y) :
    (∃ a b, x = .ok a ∧ y = .ok b ∧ R a b) ∨ ∃ e, x = .error e ∧ y = .error e := by
  cases h with
  | ok h => exact Or.inl ⟨_, _, rfl, rfl, h⟩
  | error e => exact Or.inr ⟨e, rfl, rfl⟩

theorem SameOutcome.refl {R : σ → σ → Prop} (hR : ∀ a, R a a) (x : Except ε σ) : SameOutcome R x x := by
  cases x with
  | ok a => exact .ok (hR a)
  | error e => exact .error e

theorem SameOutcome.imp {R R' : σ → τ → Prop} (hR : ∀ a b, R a b → R' a b) {x : Except ε σ}
    {y : Except ε τ} (h : SameOutcome R x y) : SameOutcome R' x y := by
  cases h with
  | ok h => exact .ok (hR _ _ h)
  | error e => exact .error e

/-- Results that are mapped alike. -/
theorem SameOutcome.map {σ' τ' : Type} {R : σ → τ → Prop} {R' : σ' → τ' → Prop} {f : σ → σ'}
    {g : τ → τ'} {x : Except ε σ} {y : Except ε τ} (h : SameOutcome R x y)
    (hfg : ∀ a b, R a b → R' (f a) (g b)) : SameOutcome R' (x.map f) (y.map g) := by
  cases h with
  | ok h => exact .ok (hfg _ _ h)
  | error e => exact .error e

/-- Results that are carried on alike. -/
theorem SameOutcome.bind {σ' τ' : Type} {R : σ → τ → Prop} {R' : σ' → τ' → Prop}
    {f : σ → Except ε σ'} {g : τ → Except ε τ'} {x : Except ε σ} {y : Except ε τ}
    (h : SameOutcome R x y) (hfg : ∀ a b, R a b → SameOutcome R' (f a) (g b)) :
    SameOutcome R' (x >>= f) (y >>= g) := by
  cases h with
  | ok h => exact hfg _ _ h
  | error e => exact .error e

/-- Two results with the same record of what was done. -/
structure SameReport (R : σ → τ → Prop) (x : κ × Except ε σ) (y : κ × Except ε τ) : Prop where
  record : x.1 = y.1
  outcome : SameOutcome R x.2 y.2

/-- Two signals that ask for the same, in related states. -/
inductive Signal.Rel (V : σ → τ → Prop) : Signal σ → Signal τ → Prop
  | more {a b} (h : V a b) : Rel V (.more a) (.more b)
  | stop {a b} (h : V a b) : Rel V (.stop a) (.stop b)

/-- Two lists of rows whose reading ends alike, in related states. -/
inductive Ending.Rel (V : σ → τ → Prop) : Ending σ → Ending τ → Prop
  | exhausted {a b} (h : V a b) : Rel V (.exhausted a) (.exhausted b)
  | stopped {a b} (h : V a b) : Rel V (.stopped a) (.stopped b)
  | failed (e) : Rel V (.failed e) (.failed e)

/-- Readers whose steps agree on paired rows read paired lists alike. -/
theorem readRows_rel {P : ρ → ρ' → Prop} {V : σ → τ → Prop}
    {step : σ → ρ → Except MeshError (Signal σ)} {step' : τ → ρ' → Except MeshError (Signal τ)}
    (hstep : ∀ st st' r r', V st st' → P r r' → SameOutcome (Signal.Rel V) (step st r) (step' st' r'))
    {rows : List ρ} {rows' : List ρ'} (hrows : List.Forall₂ P rows rows') :
    ∀ st st', V st st' → (readRows step st rows).1 = (readRows step' st' rows').1 ∧
      Ending.Rel V (readRows step st rows).2 (readRows step' st' rows').2 := by
  induction hrows with
  | nil => exact fun st st' h => ⟨rfl, .exhausted h⟩
  | @cons r r' rows rows' hr _ ih =>
    intro st st' h
    have hs := hstep st st' r r' h hr
    rw [readRows, readRows]
    generalize step st r = signal at hs ⊢
    generalize step' st' r' = signal' at hs ⊢
    cases hs with
    | error e => exact ⟨rfl, .failed e⟩
    | ok hs =>
      cases hs with
      | stop h => exact ⟨rfl, .stopped h⟩
      | @more next next' h =>
        obtain ⟨hcount, hending⟩ := ih next next' h
        exact ⟨congrArg (· + 1) hcount, hending⟩

variable {β α : Type}

/-- Two streams of paired rows that fail alike. -/
structure RowStream.Paired (P : TriangleRow β α → TriangleRow β α → Prop) (a b : RowStream β α) :
    Prop where
  rows : List.Forall₂ P a.rows b.rows
  failure : a.failure = b.failure
  stopFailure : a.stopFailure = b.stopFailure

theorem RowStream.settle_rel {V : σ → τ → Prop} {st : σ} {st' : τ} (h : V st st')
    (failure : Option MeshError) : SameOutcome V (settle st failure) (settle st' failure) := by
  cases failure with
  | none => exact .ok h
  | some e => exact .error e

/-- Readers whose steps agree on paired rows scan paired streams alike. -/
theorem RowStream.Paired.scan {P : TriangleRow β α → TriangleRow β α → Prop} {a b : RowStream β α}
    (hab : RowStream.Paired P a b) {V : σ → τ → Prop}
    {step : σ → TriangleRow β α → Except MeshError (Signal σ)}
    {step' : τ → TriangleRow β α → Except MeshError (Signal τ)}
    (hstep : ∀ st st' r r', V st st' → P r r' → SameOutcome (Signal.Rel V) (step st r) (step' st' r'))
    {st : σ} {st' : τ} (h : V st st') : SameReport V (a.scan step st) (b.scan step' st') := by
  obtain ⟨hcount, hending⟩ := readRows_rel hstep hab.rows st st' h
  unfold RowStream.scan
  rw [← hab.failure, ← hab.stopFailure]
  generalize readRows step st a.rows = reading at hcount hending ⊢
  generalize readRows step' st' b.rows = reading' at hcount hending ⊢
  obtain ⟨n, ending⟩ := reading
  obtain ⟨n', ending'⟩ := reading'
  obtain rfl : n = n' := hcount
  cases hending with
  | exhausted h => exact ⟨rfl, settle_rel h _⟩
  | stopped h => exact ⟨rfl, settle_rel h _⟩
  | failed e => exact ⟨rfl, .error e⟩

end Readers

variable {β α : Type} [Scalar α] [StoredPoint β α]

/-! ## Triangles and rows that look alike -/

/-- A search observes the same of both triangles. -/
structure Triangle.Alike (v v' : Triangle α) : Prop where
  weights : ∀ p, (v.weights? p).isSome = (v'.weights? p).isSome
  inside : ∀ p, (v.inside? p).isSome = (v'.inside? p).isSome
  degenerate : v.isDegenerate = v'.isDegenerate
  box : ∀ p distance, v.boxWithin p distance = v'.boxWithin p distance
  sqDistance : ∀ (strategy : FallbackStrategy) p, strategy.sqDistance p v = strategy.sqDistance p v'

/-- A search on a side observes the same of both rows. -/
structure TriangleRow.Alike (side : Side) (r r' : TriangleRow β α) : Prop where
  vertices : SameOutcome Triangle.Alike (r.vertices side) (r'.vertices side)
  corrections : SameOutcome (fun _ _ => True) (r.corrections side) (r'.corrections side)

theorem TriangleRow.Alike.triangles {side : Side} {r r' : TriangleRow β α} (h : r.Alike side r')
    {v v' : Triangle α} (hv : r.vertices side = .ok v) (hv' : r'.vertices side = .ok v') :
    v.Alike v' := by
  have hvertices := h.vertices
  rw [hv, hv'] at hvertices
  cases hvertices with
  | ok halike => exact halike

/-- Two values that are present or absent alike. -/
theorem isSome_dest {σ τ : Type} {x : Option σ} {y : Option τ} (h : x.isSome = y.isSome) :
    (x = none ∧ y = none) ∨ ∃ a b, x = some a ∧ y = some b := by
  cases x with
  | none =>
    cases y with
    | none => exact Or.inl ⟨rfl, rfl⟩
    | some b => cases h
  | some a =>
    cases y with
    | none => cases h
    | some b => exact Or.inr ⟨a, b, rfl, rfl⟩

/-! ## What two searches hold -/

variable {P : TriangleRow β α → TriangleRow β α → Prop} {side : Side} {p : Point α}

/-- Two hits of the rows of a pair. -/
def Hit.Paired (P : TriangleRow β α → TriangleRow β α → Prop) (side : Side) (p : Point α)
    (hit hit' : Hit α) : Prop :=
  ∃ r r', P r r' ∧ r.Hits side p hit ∧ r'.Hits side p hit'

/-- Two candidates that the rows of a pair offer, at the same distance. -/
def Candidate.Paired (P : TriangleRow β α → TriangleRow β α → Prop) (strategy : FallbackStrategy)
    (side : Side) (p : Point α) (b b' : Candidate α) : Prop :=
  ∃ r r', P r r' ∧ r.Offers strategy side p b ∧ r'.Offers strategy side p b'

/-- Two matches read off the rows of a pair. -/
def TriangleMatch.Paired (P : TriangleRow β α → TriangleRow β α → Prop) (side : Side) (p : Point α)
    (found found' : TriangleMatch α) : Prop :=
  ∃ r r', P r r' ∧ r.Answers side p found ∧ r'.Answers side p found'

/-- Two cached triangles of the rows of a pair, found in one direction. -/
def CachedTriangle.Paired (P : TriangleRow β α → TriangleRow β α → Prop) (m : MeshMetadata α)
    (c c' : CachedTriangle α) : Prop :=
  c.direction = c'.direction ∧ ∃ r r', P r r' ∧
    r.Provides (m.searchedSide c.direction) c.vertices c.corrections ∧
    r'.Provides (m.searchedSide c.direction) c'.vertices c'.corrections

theorem Hit.Paired.toMatch {hit hit' : Hit α} (h : Hit.Paired P side p hit hit') :
    TriangleMatch.Paired P side p ⟨hit.weights, hit.corrections⟩ ⟨hit'.weights, hit'.corrections⟩ := by
  obtain ⟨r, r', hr, hhit, hhit'⟩ := h
  exact ⟨r, r', hr, hhit.answers, hhit'.answers⟩

theorem Hit.Paired.toCached {m : MeshMetadata α} {d : Direction} {hit hit' : Hit α}
    (h : Hit.Paired P (m.searchedSide d) p hit hit') :
    CachedTriangle.Paired P m ⟨d, hit.vertices, hit.corrections⟩
      ⟨d, hit'.vertices, hit'.corrections⟩ := by
  obtain ⟨r, r', hr, hhit, hhit'⟩ := h
  exact ⟨rfl, r, r', hr, hhit.provides, hhit'.provides⟩

/-! ## One row -/

section Steps

variable (hlike : ∀ r r', P r r' → ∀ side, r.Alike side r')
include hlike

/-- Paired rows do the same to two exact searches. -/
theorem exactStep_rel (st st' : Option (Hit α)) {r r' : TriangleRow β α} (hr : P r r') :
    SameOutcome (Signal.Rel (Option.Rel (Hit.Paired P side p))) (exactStep side p st r)
      (exactStep side p st' r') := by
  have halike := hlike r r' hr side
  unfold exactStep
  rcases halike.vertices.dest with ⟨v, v', hv, hv', hvv'⟩ | ⟨e, hv, hv'⟩ <;> rw [hv, hv']
  · rcases isSome_dest (hvv'.inside p) with ⟨hw, hw'⟩ | ⟨w, w', hw, hw'⟩ <;> simp only [hw, hw']
    · exact .ok (.more .none)
    · rcases halike.corrections.dest with ⟨c, c', hc, hc', -⟩ | ⟨e, hc, hc'⟩ <;> rw [hc, hc']
      · exact .ok (.stop (.some ⟨r, r', hr, ⟨hv, hw, hc⟩, ⟨hv', hw', hc'⟩⟩))
      · exact .error _
  · exact .error _

theorem Candidate.Paired.alike {strategy : FallbackStrategy} {b b' : Candidate α}
    (h : Candidate.Paired P strategy side p b b') :
    b.vertices.Alike b'.vertices ∧ b.sqDistance = b'.sqDistance := by
  obtain ⟨r, r', hr, ho, ho'⟩ := h
  have halike := (hlike r r' hr side).triangles ho.vertices ho'.vertices
  exact ⟨halike, by rw [ho.sqDistance, ho'.sqDistance, halike.sqDistance]⟩

/-- Paired rows do the same to two outward searches. -/
theorem fallbackStep_rel {strategy : FallbackStrategy} {best best' : Option (Candidate α)}
    (hbest : Option.Rel (Candidate.Paired P strategy side p) best best') {r r' : TriangleRow β α}
    (hr : P r r') :
    SameOutcome (Signal.Rel (Option.Rel (Candidate.Paired P strategy side p)))
      (fallbackStep strategy side p best r) (fallbackStep strategy side p best' r') := by
  have halike := hlike r r' hr side
  unfold fallbackStep
  rcases halike.vertices.dest with ⟨v, v', hv, hv', hvv'⟩ | ⟨e, hv, hv'⟩ <;> rw [hv, hv']
  · -- both tests come out the same for the two triangles
    have hwithin : withinBest best p v = withinBest best' p v' := by
      cases hbest with
      | none => rfl
      | some h =>
        obtain ⟨-, hdistance⟩ := h.alike hlike
        simp only [withinBest, hdistance, hvv'.box]
    have hbeats : beatsBest best (strategy.sqDistance p v) =
        beatsBest best' (strategy.sqDistance p v') := by
      rw [hvv'.sqDistance]
      cases hbest with
      | none => rfl
      | some h =>
        obtain ⟨-, hdistance⟩ := h.alike hlike
        simp only [beatsBest, hdistance]
    simp only [hwithin, hbeats, hvv'.degenerate]
    by_cases hskip : (!withinBest best' p v' || v'.isDegenerate) = true
    · rw [if_pos hskip, if_pos hskip]
      exact .ok (.more hbest)
    · rw [if_neg hskip, if_neg hskip]
      by_cases hbetter : beatsBest best' (strategy.sqDistance p v') = true
      · rw [if_pos hbetter, if_pos hbetter]
        rcases halike.corrections.dest with ⟨c, c', hc, hc', -⟩ | ⟨e, hc, hc'⟩ <;> rw [hc, hc']
        · rw [Bool.or_eq_true, not_or, Bool.not_eq_true, Bool.not_eq_true] at hskip
          exact .ok (.more (.some ⟨r, r', hr,
            ⟨⟨hv, hvv'.degenerate.trans hskip.2⟩, hc, rfl⟩, ⟨⟨hv', hskip.2⟩, hc', rfl⟩⟩))
        · exact .error _
      · rw [if_neg hbetter, if_neg hbetter]
        exact .ok (.more hbest)
  · exact .error _

end Steps

/-! ## The searches -/

/-- Two meshes that lookups search alike; they may differ in how they encode heights and in what no
lookup reads. -/
structure MeshMetadata.SearchedAlike (m m' : MeshMetadata α) : Prop where
  horizontal : m.horizontal = m'.horizontal
  shift : m.shift = m'.shift
  fallback : m.fallback = m'.fallback
  vertexCount : m.vertexCount = m'.vertexCount
  extent : m.extent = m'.extent

namespace MeshMetadata.SearchedAlike

variable {m m' : MeshMetadata α}

omit [Scalar α] in
theorem refl (m : MeshMetadata α) : m.SearchedAlike m := ⟨rfl, rfl, rfl, rfl, rfl⟩

omit [Scalar α] in
theorem searchedSide (h : m.SearchedAlike m') (d : Direction) : m.searchedSide d = m'.searchedSide d := by
  simp only [MeshMetadata.searchedSide, h.horizontal]

theorem exactWindow (h : m.SearchedAlike m') (side : Side) (p : Point α) :
    exactWindow m side p = exactWindow m' side p := by
  simp only [ShiftMesh.exactWindow, h.shift]

theorem searchCenter (h : m.SearchedAlike m') (side : Side) (p : Point α) :
    searchCenter m side p = searchCenter m' side p := by
  simp only [ShiftMesh.searchCenter, h.shift, h.extent]

theorem firstRadius (h : m.SearchedAlike m') (n : VertexCount) :
    firstRadius m n = firstRadius m' n := by
  simp only [ShiftMesh.firstRadius, h.extent]

end MeshMetadata.SearchedAlike

/-- Two sources that are searched alike, stream paired rows for every window, and whose paired rows look
alike from both sides. -/
structure TriangleSource.Paired (P : TriangleRow β α → TriangleRow β α → Prop)
    (s s' : TriangleSource β α) : Prop where
  metadata : s.metadata.SearchedAlike s'.metadata
  streams : ∀ w, RowStream.Paired P (s.query w) (s'.query w)
  alike : ∀ r r', P r r' → ∀ side, r.Alike side r'

/-- Meshes that are searched alike, over paired rows that meet the same windows and look alike from both
sides. -/
theorem TriangleSource.ofRows_paired {m m' : MeshMetadata α} (hm : m.SearchedAlike m')
    {rows rows' : List (TriangleRow β α)} (hrows : List.Forall₂ P rows rows')
    (hmeets : ∀ r r', P r r' → ∀ w, r.meets w = r'.meets w)
    (hlike : ∀ r r', P r r' → ∀ side, r.Alike side r') :
    TriangleSource.Paired P (ofRows m rows) (ofRows m' rows') where
  metadata := hm
  streams w := by
    refine ⟨List.rel_filter (fun r r' hr => ?_) hrows, rfl, rfl⟩
    show r.meets w = true ↔ r'.meets w = true
    rw [hmeets r r' hr w]
  alike := hlike

section Searches

variable {s s' : TriangleSource β α}

theorem exactSearch_rel (h : TriangleSource.Paired P s s') (side : Side) (p : Point α) :
    SameReport (Option.Rel (Hit.Paired P side p)) (exactSearch s side p) (exactSearch s' side p) := by
  obtain ⟨hcount, hresult⟩ := (h.streams (exactWindow s.metadata side p)).scan
    (fun st st' r r' (_ : Option.Rel (Hit.Paired P side p) st st') hr =>
      exactStep_rel h.alike st st' hr) (.none)
  simp only [exactSearch, ← h.metadata.exactWindow]
  exact ⟨congrArg (Query.mk (exactWindow s.metadata side p)) hcount, hresult⟩

theorem searchOutward_rel (h : TriangleSource.Paired P s s') (side : Side) (p center : Point α)
    (limit : α) : ∀ (rounds : Nat) (radius : α),
      SameReport (Option.Rel (Candidate.Paired P s.metadata.fallback side p))
        (searchOutward s side p center limit rounds radius)
        (searchOutward s' side p center limit rounds radius)
  | 0, radius => ⟨rfl, .ok .none⟩
  | rounds + 1, radius => by
    unfold searchOutward
    by_cases hlimit : limit < radius
    · rw [if_pos hlimit, if_pos hlimit]
      exact ⟨rfl, .ok .none⟩
    · rw [if_neg hlimit, if_neg hlimit]
      obtain ⟨hcount, hresult⟩ := (h.streams (.around center radius)).scan
        (fun st st' r r' hst hr => fallbackStep_rel h.alike hst hr)
        .none
      simp only [← h.metadata.fallback]
      generalize (s.query (.around center radius)).scan _ none = x at hcount hresult ⊢
      generalize (s'.query (.around center radius)).scan _ none = x' at hcount hresult ⊢
      obtain ⟨n, result⟩ := x
      obtain ⟨n', result'⟩ := x'
      obtain rfl : n = n' := hcount
      cases hresult with
      | error e => exact ⟨rfl, .error e⟩
      | ok hbest =>
        cases hbest with
        | some hb => exact ⟨rfl, .ok (.some hb)⟩
        | none =>
          -- the window holds no candidate on either side, and the radius doubles
          obtain ⟨hqueries, hlast⟩ :=
            searchOutward_rel h side p center limit rounds (radius * Scalar.ofNat 2)
          exact ⟨congrArg (List.cons _) hqueries, hlast⟩

theorem fallbackSearch_rel (h : TriangleSource.Paired P s s') (side : Side) (p : Point α) :
    SameReport (Option.Rel (TriangleMatch.Paired P side p)) (fallbackSearch s side p)
      (fallbackSearch s' side p) := by
  simp only [fallbackSearch, ← h.metadata.vertexCount, ← h.metadata.extent, ← h.metadata.searchCenter,
    ← h.metadata.firstRadius]
  cases s.metadata.vertexCount with
  | none => exact ⟨rfl, .ok .none⟩
  | some n =>
    obtain ⟨hqueries, hresult⟩ := searchOutward_rel h side p (searchCenter s.metadata side p)
      s.metadata.extent.longerSide maxFallbackRounds (firstRadius s.metadata n)
    refine ⟨hqueries, hresult.map fun best best' hbest => ?_⟩
    cases hbest with
    | none => exact .none
    | @some b b' hb =>
      -- candidates are usable, so both have weights
      rcases isSome_dest ((hb.alike h.alike).1.weights p) with ⟨hw, hw'⟩ | ⟨w, w', hw, hw'⟩
      · simp only [Option.bind_some, hw, hw']
        exact .none
      · obtain ⟨r, r', hr, ho, ho'⟩ := hb
        simp only [Option.bind_some, hw, hw']
        exact .some ⟨r, r', hr, ⟨_, ho.vertices, hw, ho.corrections⟩,
          ⟨_, ho'.vertices, hw', ho'.corrections⟩⟩

/-! ## Lookups -/

theorem cachedMatch?_rel (h : TriangleSource.Paired P s s') {cache cache' : Option (CachedTriangle α)}
    (hcache : Option.Rel (CachedTriangle.Paired P s.metadata) cache cache') (p : Point α)
    (d : Direction) :
    Option.Rel (TriangleMatch.Paired P (s.metadata.searchedSide d) p) (cachedMatch? cache p d)
      (cachedMatch? cache' p d) := by
  cases hcache with
  | none => exact .none
  | @some c c' hc =>
    obtain ⟨hdirection, r, r', hr, hprovides, hprovides'⟩ := hc
    simp only [cachedMatch?, ← hdirection]
    by_cases hd : c.direction = d
    · rw [if_pos hd, if_pos hd]
      rw [hd] at hprovides hprovides'
      have halike := (h.alike r r' hr _).triangles hprovides.vertices hprovides'.vertices
      rcases isSome_dest (halike.inside p) with ⟨hw, hw'⟩ | ⟨w, w', hw, hw'⟩ <;> rw [hw, hw']
      · exact .none
      · exact .some ⟨r, r', hr,
          ⟨_, hprovides.vertices, (Triangle.inside?_eq_some.mp hw).1, hprovides.corrections⟩,
          ⟨_, hprovides'.vertices, (Triangle.inside?_eq_some.mp hw').1, hprovides'.corrections⟩⟩
    · rw [if_neg hd, if_neg hd]
      exact .none

/-- Two lookups for a point in one direction that leave the same behind, up to the rows of a pair. -/
structure Lookup.Paired (P : TriangleRow β α → TriangleRow β α → Prop) (m : MeshMetadata α)
    (p : Point α) (d : Direction) (lookup lookup' : Lookup α) : Prop where
  answer : SameOutcome (Option.Rel (TriangleMatch.Paired P (m.searchedSide d) p)) lookup.answer
    lookup'.answer
  cache : Option.Rel (CachedTriangle.Paired P m) lookup.cache lookup'.cache
  stage : lookup.stage = lookup'.stage
  queries : lookup.queries = lookup'.queries

/-- A lookup keeps two paired caches paired. -/
theorem TriangleSource.Paired.find (h : TriangleSource.Paired P s s')
    {cache cache' : Option (CachedTriangle α)}
    (hcache : Option.Rel (CachedTriangle.Paired P s.metadata) cache cache') (p : Point α)
    (d : Direction) :
    Lookup.Paired P s.metadata p d (s.find cache p d) (s'.find cache' p d) := by
  have hmatch := cachedMatch?_rel h hcache p d
  obtain ⟨hquery, hexact⟩ := exactSearch_rel h (s.metadata.searchedSide d) p
  unfold TriangleSource.find
  simp only [← h.metadata.searchedSide, ← h.metadata.fallback]
  generalize cachedMatch? cache p d = found at hmatch ⊢
  generalize cachedMatch? cache' p d = found' at hmatch ⊢
  generalize exactSearch s (s.metadata.searchedSide d) p = x at hquery hexact ⊢
  generalize exactSearch s' (s.metadata.searchedSide d) p = x' at hquery hexact ⊢
  obtain ⟨q, result⟩ := x
  obtain ⟨q', result'⟩ := x'
  obtain rfl : q = q' := hquery
  cases hmatch with
  | some hfound => exact ⟨.ok (.some hfound), hcache, rfl, rfl⟩
  | none =>
    cases hexact with
    | error e => exact ⟨.error e, hcache, rfl, rfl⟩
    | ok hhit =>
      cases hhit with
      | some hhit => exact ⟨.ok (.some hhit.toMatch), .some hhit.toCached, rfl, rfl⟩
      | none =>
        obtain ⟨hqueries, hanswer⟩ := fallbackSearch_rel h (s.metadata.searchedSide d) p
        cases s.metadata.fallback with
        | none => exact ⟨.ok .none, hcache, rfl, rfl⟩
        | nearestSide => exact ⟨hanswer, hcache, rfl, congrArg (List.cons q) hqueries⟩
        | nearestCentroid => exact ⟨hanswer, hcache, rfl, congrArg (List.cons q) hqueries⟩

/-! ## Runs -/

/-- Runs of lookups on the two sources are paired, lookup by lookup. -/
theorem TriangleSource.Paired.findAll (h : TriangleSource.Paired P s s') :
    ∀ (calls : List (Point α × Direction)) {cache cache' : Option (CachedTriangle α)},
      Option.Rel (CachedTriangle.Paired P s.metadata) cache cache' →
      List.Forall₂ (fun x lookup' => Lookup.Paired P s.metadata x.1.1 x.1.2 x.2 lookup')
        (calls.zip (s.findAll cache calls)) (s'.findAll cache' calls)
  | [], _, _, _ => .nil
  | (p, d) :: rest, _, _, hcache => by
    have hfind := h.find hcache p d
    exact .cons hfind (h.findAll rest hfind.cache)

/-- Two transformations that end at the same stage after the same queries, with related coordinates. -/
structure Evaluation.Alike (Q : Coordinate α → Coordinate α → Prop) (e e' : Evaluation α) : Prop where
  answer : SameOutcome (Option.Rel Q) e.answer e'.answer
  stage : e.stage = e'.stage
  queries : e.queries = e'.queries

omit [Scalar α] in
theorem Evaluation.Alike.exists_answer {Q : Coordinate α → Coordinate α → Prop} {e e' : Evaluation α}
    (h : Evaluation.Alike Q e e') {q : Coordinate α} (hq : e.answer = .ok (some q)) :
    ∃ q', e'.answer = .ok (some q') ∧ Q q q' := by
  rcases h.answer.dest with ⟨a, b, ha, hb, hab⟩ | ⟨error, he, -⟩
  · rw [ha] at hq
    injection hq with hq
    subst hq
    cases hab with
    | some hq => exact ⟨_, hb, hq⟩
  · rw [he] at hq
    cases hq

/-- Runs of transformations of the same positions in the same directions are alike, call by call, as far as
paired matches do related things to the coordinates of the two calls. -/
theorem TriangleSource.Paired.transformAll_calls (h : TriangleSource.Paired P s s')
    {K : Direction × Coordinate α → Direction × Coordinate α → Prop}
    {Q : Direction × Coordinate α → Direction × Coordinate α → Coordinate α → Coordinate α → Prop}
    (hplace : ∀ x x', K x x' → x.1 = x'.1 ∧ x.2.position = x'.2.position)
    (happly : ∀ x x' found found', K x x' →
      TriangleMatch.Paired P (s.metadata.searchedSide x.1) x.2.position found found' →
      Q x x' (found.apply x.1 x.2) (found'.apply x'.1 x'.2))
    {calls calls' : List (Direction × Coordinate α)} (hcalls : List.Forall₂ K calls calls') :
    ∀ {cache cache' : Option (CachedTriangle α)},
      Option.Rel (CachedTriangle.Paired P s.metadata) cache cache' →
      List.Forall₂ (fun x x' => Evaluation.Alike (Q x.1 x'.1) x.2 x'.2)
        (calls.zip (s.transformAll cache calls)) (calls'.zip (s'.transformAll cache' calls')) := by
  induction hcalls with
  | nil => exact fun _ => .nil
  | @cons x x' rest rest' hx _ ih =>
    intro cache cache' hcache
    obtain ⟨hdirection, hposition⟩ := hplace x x' hx
    have hfind := h.find hcache x.2.position x.1
    have hfind' : Lookup.Paired P s.metadata x.2.position x.1 (s.find cache x.2.position x.1)
        (s'.find cache' x'.2.position x'.1) := by
      rw [← hdirection, ← hposition]
      exact hfind
    refine .cons ⟨hfind'.answer.map fun found found' hfound => ?_, hfind'.stage, hfind'.queries⟩
      (ih hfind'.cache)
    cases hfound with
    | none => exact .none
    | some hmatch => exact .some (happly x x' _ _ hx hmatch)

theorem TriangleSource.length_transformAll (s : TriangleSource β α) :
    ∀ (calls : List (Direction × Coordinate α)) (cache : Option (CachedTriangle α)),
      (s.transformAll cache calls).length = calls.length
  | [], _ => rfl
  | (_, _) :: rest, _ => congrArg (· + 1) (s.length_transformAll rest _)

/-- The same without the calls, if the relation of the coordinates does not depend on them. -/
theorem TriangleSource.Paired.transformAll (h : TriangleSource.Paired P s s')
    {K : Direction × Coordinate α → Direction × Coordinate α → Prop}
    {Q : Coordinate α → Coordinate α → Prop}
    (hplace : ∀ x x', K x x' → x.1 = x'.1 ∧ x.2.position = x'.2.position)
    (happly : ∀ x x' found found', K x x' →
      TriangleMatch.Paired P (s.metadata.searchedSide x.1) x.2.position found found' →
      Q (found.apply x.1 x.2) (found'.apply x'.1 x'.2))
    {calls calls' : List (Direction × Coordinate α)} (hcalls : List.Forall₂ K calls calls')
    {cache cache' : Option (CachedTriangle α)}
    (hcache : Option.Rel (CachedTriangle.Paired P s.metadata) cache cache') :
    List.Forall₂ (Evaluation.Alike Q) (s.transformAll cache calls) (s'.transformAll cache' calls') := by
  have hrun := h.transformAll_calls (Q := fun _ _ => Q) hplace happly hcalls hcache
  rw [← List.map_snd_zip (s.length_transformAll calls cache).le,
    ← List.map_snd_zip (s'.length_transformAll calls' cache').le, List.forall₂_map_left_iff,
    List.forall₂_map_right_iff]
  exact hrun

/-- What a caller sees of a transformation: all but the triangle kept for the next lookup. -/
def Evaluation.seen (e : Evaluation α) :
    Except MeshError (Option (Coordinate α)) × Stage × List (Query α) :=
  (e.answer, e.stage, e.queries)

omit [Scalar α] in
theorem Evaluation.Alike.seen_eq {e e' : Evaluation α} (h : Evaluation.Alike Eq e e') :
    e.seen = e'.seen := by
  have hanswer : e.answer = e'.answer := by
    rcases h.answer.dest with ⟨a, b, ha, hb, hab⟩ | ⟨error, ha, hb⟩ <;> rw [ha, hb]
    cases hab with
    | none => rfl
    | some hq => rw [hq]
  rw [seen, seen, hanswer, h.stage, h.queries]

/-- If paired matches do the same to every coordinate, a caller cannot tell the two runs apart. -/
theorem TriangleSource.Paired.transformAll_seen (h : TriangleSource.Paired P s s')
    (happly : ∀ d c found found',
      TriangleMatch.Paired P (s.metadata.searchedSide d) c.position found found' →
      found.apply d c = found'.apply d c) (calls : List (Direction × Coordinate α)) :
    (s.transformAll none calls).map Evaluation.seen =
      (s'.transformAll none calls).map Evaluation.seen := by
  have hrun := h.transformAll (K := Eq) (Q := Eq) (fun x x' hx => by rw [hx]; exact ⟨rfl, rfl⟩)
    (fun x x' found found' hx hmatch => by rw [← hx]; exact happly _ _ _ _ hmatch)
    (List.forall₂_refl calls) .none
  refine List.forall₂_eq_eq_eq ▸ ?_
  rw [List.forall₂_map_left_iff, List.forall₂_map_right_iff]
  exact hrun.imp fun _ _ he => he.seen_eq

end Searches

end ShiftMesh
