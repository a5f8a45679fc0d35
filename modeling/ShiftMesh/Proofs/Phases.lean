import ShiftMesh.Proofs.Exchange
import ShiftMesh.Proofs.Lookup
import ShiftMesh.Proofs.Container.Opening
import ShiftMesh.Mesh.Evaluator

/-!
# ShiftMesh.Proofs.Phases — which errors occur in which phase

A mesh is opened, looked up and authored, and each phase has its own kinds of errors.

* `MeshError.occursIn`: the kinds of errors of each phase.
* `openMesh_error`: opening fails with the errors of opening.
* `find_answer_error`: a lookup fails by decoding a point or with the failure of a query;
  `MeshStore.stream_canFail`: the queries of an open mesh fail in the storage.
* `Disk.write_error`: writing fails with the errors of authoring.
* `errors_by_phase`: the three phases together.
-/

namespace ShiftMesh

open Container
open ShiftMesh.Json (Fields)

/-- The phases in which a mesh is used. -/
inductive Phase where
  | opening
  | lookup
  | authoring
  deriving Repr, DecidableEq

/-- Whether errors of this kind belong to a phase. -/
def MeshError.occursIn : MeshError → Phase → Bool
  | unreachable _ _, .opening => true
  | metadata _, .opening => true
  | schema _, .opening => true
  | queryPreparation _, .opening => true
  | decode _, .lookup => true
  | storage _, .lookup => true
  | storage _, .authoring => true
  | invalidMesh _, .authoring => true
  | io _, .authoring => true
  | _, _ => false

/-! ## Opening -/

namespace Container

theorem reach_error {disk : Disk} {options : OpenOptions} {location : String} {e : MeshError}
    (ways : List AccessPath) (reasons : List String)
    (h : reach disk options location reasons ways = .error e) : e.occursIn .opening = true := by
  induction ways generalizing reasons with
  | nil =>
    cases h
    rfl
  | cons way rest ih =>
    unfold reach at h
    cases hway : way.attempt disk options location with
    | opened content =>
      rw [hway] at h
      cases h
    | declined reason =>
      rw [hway] at h
      exact ih _ h
    | failed reason =>
      rw [hway] at h
      cases h
      rfl

theorem MeshStore.read_error {db : Database} {e : MeshError} (h : MeshStore.read db = .error e) :
    e.occursIn .opening = true := by
  have hends := MeshStore.read_ends db
  rw [h] at hends
  cases hends <;> rfl

theorem openMesh_error {disk : Disk} {options : OpenOptions} {location : String} {e : MeshError}
    (h : openMesh disk options location = .error e) : e.occursIn .opening = true := by
  unfold openMesh at h
  cases hreach : reach disk options location [] AccessPath.order with
  | error e' =>
    rw [hreach] at h
    cases h
    exact reach_error _ _ hreach
  | ok found =>
    rw [hreach] at h
    dsimp only at h
    cases hread : MeshStore.ofContent found.2 with
    | ok store =>
      rw [hread] at h
      cases h
    | error e' =>
      rw [hread] at h
      cases h
      unfold MeshStore.ofContent at hread
      cases hdatabase : found.2.database? with
      | error fault =>
        rw [hdatabase] at hread
        cases hread
        rfl
      | ok db =>
        rw [hdatabase] at hread
        exact MeshStore.read_error hread

end Container

/-! ## Lookups -/

section Lookups

variable {β α : Type} [Scalar α] [StoredPoint β α] {s : TriangleSource β α} {side : Side} {p : Point α}

theorem fallbackStep_error {strategy : FallbackStrategy} {best : Option (Candidate α)}
    {r : TriangleRow β α} {e : MeshError} (h : fallbackStep strategy side p best r = .error e) :
    ∃ d, e = .decode d := by
  rcases fallbackStep_cases strategy side p best r with ⟨_, -, -, hr⟩ | ⟨_, -, -, -, hr⟩ |
    ⟨d, -, hr⟩ <;> rw [hr] at h <;> cases h
  exact ⟨d, rfl⟩

theorem exactSearch_error {q : Query α} {e : MeshError} (h : exactSearch s side p = (q, .error e)) :
    (∃ d, e = .decode d) ∨ ∃ w, (s.query w).CanFail e := by
  rcases exactSearch_cases s side p with ⟨-, he⟩ | ⟨pre, r, post, hit, -, -, -, he⟩ |
    ⟨pre, r, post, d, -, -, -, he⟩ <;> rw [he, Prod.mk.injEq] at h
  · exact Or.inr ⟨_, Or.inl (settle_eq_error h.2)⟩
  · exact Or.inr ⟨_, Or.inr ⟨_, settle_eq_error h.2⟩⟩
  · cases h.2
    exact Or.inl ⟨d, rfl⟩

theorem searchOutward_error {center : Point α} {limit radius : α} {rounds : Nat}
    {queries : List (Query α)} {e : MeshError}
    (h : searchOutward s side p center limit rounds radius = (queries, .error e)) :
    (∃ d, e = .decode d) ∨ ∃ w, (s.query w).CanFail e := by
  -- a run that fails has done so in its last window
  have hrun := outwardRun s side p center limit rounds radius
  rw [h] at hrun
  cases hrun with
  | ended _ _ _ _ hscan _ =>
    rcases scan_error hscan with ⟨r, -, best, hr⟩ | hfail
    · exact Or.inl (fallbackStep_error hr)
    · exact Or.inr ⟨_, hfail⟩

theorem fallbackSearch_error {e : MeshError} (h : (fallbackSearch s side p).2 = .error e) :
    (∃ d, e = .decode d) ∨ ∃ w, (s.query w).CanFail e := by
  unfold fallbackSearch at h
  cases hcount : s.metadata.vertexCount with
  | none =>
    simp only [hcount] at h
    cases h
  | some count =>
    simp only [hcount] at h
    cases hsearch : searchOutward s side p (searchCenter s.metadata side p)
      s.metadata.extent.longerSide maxFallbackRounds (firstRadius s.metadata count) with
    | mk queries result =>
      rw [hsearch] at h
      cases result with
      | ok best => cases h
      | error e' =>
        cases h
        exact searchOutward_error hsearch

/-- A lookup fails by decoding a stored point, or with the failure of a query. -/
theorem TriangleSource.find_answer_error {cache : Option (CachedTriangle α)} {d : Direction}
    {e : MeshError} (h : (s.find cache p d).answer = .error e) :
    (∃ d, e = .decode d) ∨ ∃ w, (s.query w).CanFail e := by
  have hends := s.find_ends cache p d
  generalize s.find cache p d = lookup at hends h
  cases hends with
  | cached _ => cases h
  | failed _ hexact =>
    cases h
    exact exactSearch_error hexact
  | hit _ _ => cases h
  | missed _ _ _ => cases h
  | outward _ _ _ => exact fallbackSearch_error h

end Lookups

namespace RowStream

variable {β α : Type} {e : MeshError}

/-- A stream of results fails with the first of them that is a failure. -/
theorem ofResults_canFail : ∀ {results : List (Except MeshError (TriangleRow β α))},
    (ofResults results).CanFail e → .error e ∈ results
  | [], h => by
    rcases h with h | ⟨n, h⟩ <;> cases h
  | .error e' :: rest, h => by
    rcases h with h | ⟨n, h⟩ <;> cases h
    exact List.mem_cons_self
  | .ok r :: rest, h => by
    have hrest : (ofResults rest).CanFail e := h
    exact List.mem_cons_of_mem _ (ofResults_canFail hrest)

end RowStream

namespace Container

variable {m : MeshStore} {content : Content} {e : MeshError}

theorem MeshStore.row_error {metadata : MeshMetadata Float} {cells : List Cell}
    (h : MeshStore.row metadata cells = .error e) : ∃ fault, e = .storage fault := by
  unfold MeshStore.row at h
  split at h
  · cases h
    exact ⟨_, rfl⟩
  · cases h

/-- The queries of an open mesh fail in the storage, whatever its content has become. -/
theorem MeshStore.stream_canFail {w : Window Float} (h : (m.stream content w).CanFail e) :
    ∃ fault, e = .storage fault := by
  unfold MeshStore.stream at h
  dsimp only at h
  split at h
  · rcases h with h | ⟨n, h⟩ <;> cases h
    exact ⟨_, rfl⟩
  · obtain ⟨cells, -, hrow⟩ := List.mem_map.mp (RowStream.ofResults_canFail h)
    exact row_error hrow

theorem MeshStore.find_answer_error {cache : Option (CachedTriangle Float)} {p : Point Float}
    {d : Direction} (h : ((m.source content).find cache p d).answer = .error e) :
    e.occursIn .lookup = true := by
  rcases TriangleSource.find_answer_error h with ⟨error, rfl⟩ | ⟨w, hfail⟩
  · rfl
  · obtain ⟨fault, rfl⟩ := MeshStore.stream_canFail hfail
    rfl

theorem MeshStore.transform_answer_error {cache : Option (CachedTriangle Float)} {d : Direction}
    {c : Coordinate Float} (h : ((m.source content).transform cache d c).answer = .error e) :
    e.occursIn .lookup = true := by
  unfold TriangleSource.transform at h
  cases hfind : ((m.source content).find cache c.position d).answer with
  | ok found =>
    simp only [hfind] at h
    cases h
  | error e' =>
    simp only [hfind] at h
    cases h
    exact find_answer_error hfind

/-! ## Authoring -/

theorem Disk.write_error {disk : Disk} {path : String} {draft : MeshDraft}
    (h : (disk.write path draft).1 = .error e) : e.occursIn .authoring = true := by
  unfold Disk.write at h
  cases hauthor : draft.author with
  | error e' =>
    simp only [hauthor] at h
    cases h
    unfold MeshDraft.author at hauthor
    split at hauthor <;> cases hauthor
    rfl
  | ok db =>
    simp only [hauthor] at h
    split at h
    · cases h
      rfl
    · split at h <;> cases h
      rfl

end Container

/-! ## The phases -/

/-- **The errors of each phase.**  The errors of opening are none of the other phases.  Opening a mesh,
at any location on any disk, fails only with them.  Lookups and corrections by an open mesh, with any
cache and whatever its content has become, fail only with the errors of lookups; so do its queries,
unless the reader of the rows fails.  Writing a draft fails only with the errors of authoring, and so
does reading an exchange document, but for one case: the document is an object whose heading is accepted
and whose fallback strategy has a name that none has. -/
theorem errors_by_phase (disk : Disk) (options : OpenOptions) (location path text : String)
    (m : MeshStore) (content : Content) (cache : Option (CachedTriangle Float)) (d : Direction)
    (p : Point Float) (c : Coordinate Float) (w : Window Float) (draft : MeshDraft) (e : MeshError) :
    (e.occursIn .opening = true → e.occursIn .lookup = false ∧ e.occursIn .authoring = false) ∧
    (openMesh disk options location = .error e → e.occursIn .opening = true) ∧
    (((m.source content).find cache p d).answer = .error e → e.occursIn .lookup = true) ∧
    (((m.source content).transform cache d c).answer = .error e → e.occursIn .lookup = true) ∧
    (∀ (σ : Type) (step : σ → TriangleRow Blob Float → Except MeshError (Signal σ)) st n,
      (m.stream content w).scan step st = (n, .error e) →
        (∃ r ∈ (m.stream content w).rows, ∃ st', step st' r = .error e) ∨
          e.occursIn .lookup = true) ∧
    ((disk.write path draft).1 = .error e → e.occursIn .authoring = true) ∧
    (MeshDraft.ofExchange? text = .error e →
      e.occursIn .authoring = true ∨ e = .metadata .unknownFallback) ∧
    (MeshDraft.ofExchange? text = .error (.metadata .unknownFallback) ↔
      ∃ (j : Fields) (heading : Exchange.Heading) (name : String),
        Json.parse text = .ok (.object j) ∧ Exchange.heading? j = .ok heading ∧
        j.get? "fallback_strategy" = some (.string name) ∧
        ∀ s : FallbackStrategy, s.name ≠ name) := by
  refine ⟨?_, openMesh_error, MeshStore.find_answer_error, MeshStore.transform_answer_error,
    fun σ step st n h => ?_, Disk.write_error, fun h => ?_, fun h => ?_, ?_⟩
  · cases e <;> simp [MeshError.occursIn]
  · refine (scan_error h).imp_right fun hfail => ?_
    obtain ⟨fault, rfl⟩ := MeshStore.stream_canFail hfail
    rfl
  · rcases MeshDraft.ofExchange?_error h with ⟨fault, rfl⟩ | ⟨he, -⟩
    · exact Or.inl rfl
    · exact Or.inr he
  · rcases MeshDraft.ofExchange?_error h with ⟨fault, heq⟩ | ⟨-, j, heading, hparse, hheading, hname⟩
    · cases heq
    · obtain ⟨name, hkey, hnone⟩ := hname
      exact ⟨j, heading, name, hparse, hheading, hkey, hnone⟩
  · rintro ⟨j, heading, name, hparse, hheading, hkey, hnone⟩
    exact MeshDraft.NamesNoStrategy.ofExchange?_eq ⟨name, hkey, hnone⟩ hparse hheading

/-- A mesh with height offsets only. -/
def levelStore : MeshStore where
  metadata :=
    { horizontal := false
      vertical := some .offset
      shift := .none
      fallback := .none
      vertexCount := none
      extent := ⟨⟨0, 0⟩, ⟨1, 1⟩⟩
      inputCrs := none
      outputCrs := none }
  schema := .ofColumns ["offset_z"]

/-- The strategy of this document is misspelled. -/
theorem ofExchange?_misspelled :
    MeshDraft.ofExchange? (raisedText "nearest" "EPSG:2393" none) =
      .error (.metadata .unknownFallback) := by
  rw [MeshDraft.ofExchange?, parse_raisedText]
  change MeshDraft.ofFields? _ = _
  decide +kernel

/-- A missing file, a mesh whose file has been overwritten, an empty draft, an empty document and a
misspelled strategy. -/
theorem each_phase_fails :
    (∃ e, openMesh {} {} "mesh.gpkg" = .error e ∧ e.occursIn .opening = true ∧
      e.occursIn .lookup = false) ∧
    (∃ e, ((levelStore.source (.text "mesh")).find none ⟨0, 0⟩ .forward).answer = .error e ∧
      ((levelStore.source (.text "mesh")).transform none .forward ⟨0, 0, 0⟩).answer = .error e ∧
      ((levelStore.stream (.text "mesh") ⟨⟨0, 0⟩, ⟨1, 1⟩⟩).scan (exactStep .source ⟨0, 0⟩) none) =
        (0, .error e) ∧ e.occursIn .lookup = true) ∧
    (∃ e, (Disk.write {} "mesh.gpkg" {}).1 = .error e ∧ e.occursIn .authoring = true) ∧
    (∃ e, MeshDraft.ofExchange? "" = .error e ∧
      (e.occursIn .authoring = true ∨ e = .metadata .unknownFallback)) ∧
    ∃ (j : Fields) (name : String),
      Json.parse (raisedText "nearest" "EPSG:2393" none) = .ok (.object j) ∧
      j.get? "fallback_strategy" = some (.string name) ∧ ∀ s : FallbackStrategy, s.name ≠ name := by
  have hphases := fun text => errors_by_phase {} {} "mesh.gpkg" "mesh.gpkg" text levelStore
    (.text "mesh") none .forward ⟨0, 0⟩ ⟨0, 0, 0⟩ ⟨⟨0, 0⟩, ⟨1, 1⟩⟩ {}
  obtain ⟨-, -, hfind, -⟩ := hphases "" (.storage .notADatabase)
  obtain ⟨-, -, -, -, -, hwrite, -⟩ := hphases "" (.invalidMesh .empty)
  obtain ⟨-, -, -, -, -, -, hread, -⟩ := hphases "" (.invalidMesh (.malformed .endOfText))
  obtain ⟨-, -, -, -, -, -, -, hname⟩ :=
    hphases (raisedText "nearest" "EPSG:2393" none) (.metadata .unknownFallback)
  refine ⟨⟨_, rfl, ?_⟩, ⟨_, rfl, rfl, rfl, hfind rfl⟩, ⟨_, rfl, hwrite rfl⟩, ⟨_, rfl, hread rfl⟩, ?_⟩
  · obtain ⟨hseparate, hopen, -⟩ := hphases "" _
    exact ⟨hopen rfl, (hseparate rfl).1⟩
  · obtain ⟨j, -, name, hparse, -, hkey, hnone⟩ := hname.mp ofExchange?_misspelled
    exact ⟨j, name, hparse, hkey, hnone⟩

/-- The refusal of a document whose strategy is misspelled is an error of opening, and none of
authoring. -/
theorem misspelled_strategy_refused_as_metadata :
    ∃ e, MeshDraft.ofExchange? (raisedText "nearest" "EPSG:2393" none) = .error e ∧
      e.occursIn .opening = true ∧ e.occursIn .authoring = false :=
  ⟨_, ofExchange?_misspelled, rfl, rfl⟩

end ShiftMesh
