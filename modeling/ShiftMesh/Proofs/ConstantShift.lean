import ShiftMesh.Proofs.Evaluation
import ShiftMesh.Proofs.Nearest
import ShiftMesh.Proofs.Translation

/-!
# ShiftMesh.Proofs.ConstantShift — going back over a mesh whose corners all move by the same amount

Two runs of the search are compared: the one forward for a point, and the one back for the moved point.
Every state of the second one is the state of the first one moved along.

* `readRows_map`: two readers whose steps correspond end alike, after as many rows.
* `TriangleRow.Moved`: what a row shows to the search back is what it shows forward, moved;
  `TriangleRow.Moved.exactStep_eq` and `TriangleRow.Moved.fallbackStep_eq` are the corresponding steps.
* `exactWindow_moved`, `searchCenter_moved`: both searches query the same windows.
* `TriangleSource.Moves.exactSearch_eq`, `TriangleSource.Moves.searchOutward_eq`,
  `TriangleSource.Moves.find_eq`: hence each stage back is the moved stage forward.
* `constant_shift_mirrored`: the lookups correspond, and transformations go back to where they came from.
-/

namespace ShiftMesh

/-! ## Readers whose steps correspond -/

section Reading

variable {β α σ τ ρ : Type}

/-- The signal with its state mapped. -/
def Signal.map (f : σ → τ) : Signal σ → Signal τ
  | .more state => .more (f state)
  | .stop state => .stop (f state)

/-- The ending with its state mapped. -/
def Ending.map (f : σ → τ) : Ending σ → Ending τ
  | .exhausted state => .exhausted (f state)
  | .stopped state => .stopped (f state)
  | .failed e => .failed e

variable {f : σ → τ}

theorem readRows_map {step : σ → ρ → Except MeshError (Signal σ)}
    {step' : τ → ρ → Except MeshError (Signal τ)} :
    ∀ (rows : List ρ) (st : σ),
      (∀ r ∈ rows, ∀ st, step' (f st) r = (step st r).map (Signal.map f)) →
      readRows step' (f st) rows = (readRows step st rows).map id (Ending.map f)
  | [], _, _ => rfl
  | r :: rows, st, hstep => by
    obtain ⟨hr, hrows⟩ := List.forall_mem_cons.mp hstep
    rw [readRows, readRows, hr st]
    cases step st r with
    | error e => rfl
    | ok signal =>
      cases signal with
      | stop next => rfl
      | more next =>
        simp only [Except.map, Signal.map]
        rw [readRows_map rows next hrows]
        rfl

theorem RowStream.settle_map (state : σ) (failure : Option MeshError) :
    settle (f state) failure = (settle state failure).map f := by
  cases failure <;> rfl

theorem RowStream.scan_map {stream : RowStream β α}
    {step : σ → TriangleRow β α → Except MeshError (Signal σ)}
    {step' : τ → TriangleRow β α → Except MeshError (Signal τ)}
    (hstep : ∀ r ∈ stream.rows, ∀ st, step' (f st) r = (step st r).map (Signal.map f)) (st : σ) :
    stream.scan step' (f st) = (stream.scan step st).map id (Except.map f) := by
  rw [scan, scan, readRows_map stream.rows st hstep]
  cases readRows step st stream.rows with
  | mk n ending =>
    cases ending with
    | exhausted final => exact Prod.ext rfl (settle_map final _)
    | stopped final => exact Prod.ext rfl (settle_map final _)
    | failed e => rfl

end Reading

/-! ## What is found, moved along

The corners that a search back tests are those of the search forward moved by `δ`; the corners that it
answers with are moved by `-δ`. -/

section Moved

variable {α : Type} [Scalar α] (δ : Point α)

def CorrectionSet.translate (c : CorrectionSet α) : CorrectionSet α :=
  ⟨c.horizontal.map (Triangle.translate δ), c.vertical⟩

def Hit.moved (hit : Hit α) : Hit α :=
  ⟨hit.weights, hit.vertices.translate δ, hit.corrections.translate (-δ)⟩

def Candidate.moved (b : Candidate α) : Candidate α :=
  ⟨b.sqDistance, b.vertices.translate δ, b.corrections.translate (-δ)⟩

def TriangleMatch.moved (found : TriangleMatch α) : TriangleMatch α :=
  ⟨found.weights, found.corrections.translate (-δ)⟩

/-- The triangle that the lookup back keeps. -/
def CachedTriangle.moved (c : CachedTriangle α) : CachedTriangle α :=
  ⟨.inverse, c.vertices.translate δ, c.corrections.translate (-δ)⟩

/-- The lookup back: the same queries and the same stage, with everything found moved along. -/
def Lookup.moved (lookup : Lookup α) : Lookup α where
  answer := lookup.answer.map (Option.map (TriangleMatch.moved δ))
  cache := lookup.cache.map (CachedTriangle.moved δ)
  stage := lookup.stage
  queries := lookup.queries

end Moved

/-! ## One row -/

variable {β : Type} [StoredPoint β ℝ]

/-- On a side the row shows its source corners `t` moved by `δ`, and answers with the corners of the
source side moved back. -/
structure TriangleRow.Moved (r : TriangleRow β ℝ) (side : Side) (δ : Point ℝ) (t : Triangle ℝ) :
    Prop where
  triangle : r.triangle = .ok t
  vertices : r.vertices side = .ok (t.translate δ)
  corrections : r.corrections side = .ok (CorrectionSet.translate (-δ) ⟨r.target, r.vertical⟩)

theorem withinBest_moved (best : Option (Candidate ℝ)) (p δ : Point ℝ) (v : Triangle ℝ) :
    withinBest (best.map (Candidate.moved δ)) (p + δ) (v.translate δ) = withinBest best p v := by
  cases best with
  | none => rfl
  | some b => exact v.boxWithin_translate p δ _

theorem beatsBest_moved (best : Option (Candidate ℝ)) (δ : Point ℝ) (l : ℝ) :
    beatsBest (best.map (Candidate.moved δ)) l = beatsBest best l := by
  cases best <;> rfl

namespace TriangleRow.Moved

variable {r : TriangleRow β ℝ} {side : Side} {δ : Point ℝ} {t : Triangle ℝ}

theorem vertices_source (h : r.Moved side δ t) : r.vertices .source = .ok t := h.triangle

theorem exactStep_eq (h : r.Moved side δ t) (p : Point ℝ) (st : Option (Hit ℝ)) :
    exactStep side (p + δ) (st.map (Hit.moved δ)) r =
      (exactStep .source p st r).map (Signal.map (Option.map (Hit.moved δ))) := by
  simp only [exactStep, h.vertices, h.vertices_source, h.corrections, corrections_source,
    t.inside?_translate]
  cases t.inside? p with
  | none => rfl
  | some w => rfl

theorem fallbackStep_eq (h : r.Moved side δ t) (strategy : FallbackStrategy) (p : Point ℝ)
    (best : Option (Candidate ℝ)) :
    fallbackStep strategy side (p + δ) (best.map (Candidate.moved δ)) r =
      (fallbackStep strategy .source p best r).map (Signal.map (Option.map (Candidate.moved δ))) := by
  simp only [fallbackStep, h.vertices, h.vertices_source, h.corrections, corrections_source,
    withinBest_moved, beatsBest_moved, t.isDegenerate_translate, strategy.sqDistance_translate]
  by_cases hskip : (!withinBest best p t || t.isDegenerate) = true
  · rw [if_pos hskip, if_pos hskip]
    rfl
  · rw [if_neg hskip, if_neg hskip]
    by_cases hbeats : beatsBest best (strategy.sqDistance p t) = true
    · rw [if_pos hbeats, if_pos hbeats]
      rfl
    · rw [if_neg hbeats, if_neg hbeats]
      rfl

/-- A match read off the row forward is read off it back, with the same weights. -/
theorem answers (h : r.Moved side δ t) {p : Point ℝ} {found : TriangleMatch ℝ}
    (hanswers : r.Answers .source p found) : r.Answers side (p + δ) (found.moved δ) := by
  obtain ⟨t', ht', hw, hcorr⟩ := hanswers.of_source
  rw [h.triangle] at ht'
  injection ht' with ht'
  rw [← ht'] at hw
  refine ⟨t.translate δ, h.vertices, ?_, ?_⟩
  · rw [t.weights?_translate]
    exact hw
  · rw [h.corrections, TriangleMatch.moved, hcorr]

end TriangleRow.Moved

/-! ## The windows -/

section Windows

variable {m : MeshMetadata ℝ} {side : Side} {δ : Point ℝ}

theorem exactWindow_moved (h : m.sideShift side = ⟨δ, δ⟩) (p : Point ℝ) :
    exactWindow m side (p + δ) = exactWindow m .source p := by
  have hnone : m.sideShift .source = ⟨.origin, .origin⟩ := rfl
  rw [exactWindow_eq, exactWindow_eq, h, hnone]
  simp only [Point.add_sub_self, Point.sub_origin]

theorem searchCenter_moved (h : m.sideShift side = ⟨δ, δ⟩) (p : Point ℝ) :
    searchCenter m side (p + δ) = searchCenter m .source p := by
  have hmid : ∀ e : Point ℝ, (⟨e, e⟩ : ShiftRange ℝ).midpoint = e := fun e => by
    refine Point.eq_of_coordinates ?_ ?_ <;> simp [ShiftRange.midpoint] <;> ring
  have hnone : m.sideShift .source = ⟨.origin, .origin⟩ := rfl
  rw [searchCenter_eq, searchCenter_eq, h, hnone, hmid, hmid, Point.add_sub_self, Point.sub_origin]

end Windows

/-! ## The searches -/

/-- Every row that the source streams is moved by `δ` on the side, and the metadata says so. -/
structure TriangleSource.Moves (s : TriangleSource β ℝ) (side : Side) (δ : Point ℝ) : Prop where
  shift : s.metadata.sideShift side = ⟨δ, δ⟩
  rows : ∀ w, ∀ r ∈ (s.query w).rows, ∃ t, r.Moved side δ t

namespace TriangleSource.Moves

variable {s : TriangleSource β ℝ} {side : Side} {δ : Point ℝ}

theorem exactSearch_eq (h : s.Moves side δ) (p : Point ℝ) :
    exactSearch s side (p + δ) =
      (exactSearch s .source p).map id (Except.map (Option.map (Hit.moved δ))) := by
  have hstep : ∀ r ∈ (s.query (exactWindow s.metadata .source p)).rows, ∀ st,
      exactStep side (p + δ) (Option.map (Hit.moved δ) st) r =
        (exactStep .source p st r).map (Signal.map (Option.map (Hit.moved δ))) := by
    intro r hr st
    obtain ⟨t, hmoved⟩ := h.rows _ r hr
    exact hmoved.exactStep_eq p st
  have hscan := RowStream.scan_map hstep none
  rw [Option.map_none] at hscan
  simp only [exactSearch, exactWindow_moved h.shift, hscan]
  rfl

/-- The windows do not depend on the side, and each of them makes corresponding candidates. -/
theorem searchOutward_eq (h : s.Moves side δ) (p center : Point ℝ) (limit : ℝ) :
    ∀ (rounds : ℕ) (radius : ℝ),
      searchOutward s side (p + δ) center limit rounds radius =
        (searchOutward s .source p center limit rounds radius).map id
          (Except.map (Option.map (Candidate.moved δ)))
  | 0, _ => rfl
  | rounds + 1, radius => by
    have hstep : ∀ r ∈ (s.query (.around center radius)).rows, ∀ best,
        fallbackStep s.metadata.fallback side (p + δ) (Option.map (Candidate.moved δ) best) r =
          (fallbackStep s.metadata.fallback .source p best r).map
            (Signal.map (Option.map (Candidate.moved δ))) := by
      intro r hr best
      obtain ⟨t, hmoved⟩ := h.rows _ r hr
      exact hmoved.fallbackStep_eq _ p best
    have hscan := RowStream.scan_map hstep none
    rw [Option.map_none] at hscan
    rw [searchOutward, searchOutward]
    by_cases hlimit : limit < radius
    · rw [if_pos hlimit, if_pos hlimit]
      rfl
    · rw [if_neg hlimit, if_neg hlimit]
      simp only [hscan]
      cases (s.query (.around center radius)).scan (fallbackStep s.metadata.fallback .source p) none with
      | mk n result =>
        cases result with
        | error e => rfl
        | ok best =>
          cases best with
          | some b => rfl
          | none =>
            -- no candidate on either side: the next window
            simp only [Prod.map, Except.map, Option.map_none, id]
            rw [searchOutward_eq h p center limit rounds]
            rfl

theorem fallbackSearch_eq (h : s.Moves side δ) (p : Point ℝ) :
    fallbackSearch s side (p + δ) =
      (fallbackSearch s .source p).map id (Except.map (Option.map (TriangleMatch.moved δ))) := by
  rw [fallbackSearch, fallbackSearch]
  cases s.metadata.vertexCount with
  | none => rfl
  | some count =>
    simp only [searchCenter_moved h.shift, h.searchOutward_eq]
    cases searchOutward s .source p _ _ _ _ with
    | mk queries result =>
      cases result with
      | error e => rfl
      | ok best =>
        cases best with
        | none => rfl
        | some b =>
          simp only [Prod.map, Except.map, Option.map_some, Option.bind_some, Candidate.moved,
            b.vertices.weights?_translate]
          cases b.vertices.weights? p <;> rfl

end TriangleSource.Moves

/-! ## The lookups -/

theorem Lookup.moved_answer_error {lookup : Lookup ℝ} {δ : Point ℝ} {e : MeshError} :
    (lookup.moved δ).answer = .error e ↔ lookup.answer = .error e := by
  rw [moved]
  cases lookup.answer <;> simp [Except.map]

theorem Lookup.moved_answer_none {lookup : Lookup ℝ} {δ : Point ℝ} :
    (lookup.moved δ).answer = .ok none ↔ lookup.answer = .ok none := by
  rw [moved]
  cases lookup.answer <;> simp [Except.map]

/-- Every row that the source streams can be read, and its target corners are its source corners moved by
`δ`; the metadata's range is that one shift.  A mesh without horizontal corrections moves nothing. -/
structure TriangleSource.ConstantShift (s : TriangleSource β ℝ) (δ : Point ℝ) : Prop where
  rows : ∀ w, ∀ r ∈ (s.query w).rows, ∃ t, r.triangle = .ok t ∧
    (∀ v, r.target = some v → v = t.translate δ) ∧
    (r.target = none → s.metadata.horizontal = false)
  horizontal : s.metadata.horizontal = true → s.metadata.shift = ⟨δ, δ⟩
  flat : s.metadata.horizontal = false → δ = .origin

namespace TriangleSource.ConstantShift

variable {s : TriangleSource β ℝ} {δ : Point ℝ}

/-- The side searched back is moved by `δ`, whether it is the target side or, with nothing to move, the
source side. -/
theorem moves (h : s.ConstantShift δ) : s.Moves (s.metadata.searchedSide .inverse) δ := by
  cases hh : s.metadata.horizontal with
  | true =>
    rw [MeshMetadata.searchedSide_inverse hh]
    refine ⟨h.horizontal hh, fun w r hr => ?_⟩
    obtain ⟨t, ht, htarget, hflat⟩ := h.rows w r hr
    cases hv : r.target with
    | none =>
      rw [hflat hv] at hh
      cases hh
    | some v =>
      rw [htarget v hv] at hv
      refine ⟨t, ht, TriangleRow.vertices_target hv, ?_⟩
      rw [TriangleRow.corrections_target ht hv, hv, CorrectionSet.translate, Option.map_some,
        t.translate_translate_neg]
  | false =>
    rw [MeshMetadata.searchedSide_flat hh, h.flat hh]
    refine ⟨rfl, fun w r hr => ?_⟩
    obtain ⟨t, ht, -, -⟩ := h.rows w r hr
    refine ⟨t, ht, ?_, ?_⟩
    · rw [t.translate_origin]
      exact ht
    · rw [TriangleRow.corrections_source, CorrectionSet.translate, Point.neg_origin]
      cases r.target with
      | none => rfl
      | some v => rw [Option.map_some, v.translate_origin]

/-- The lookup back from the moved point, stage for stage. -/
theorem find_eq (h : s.ConstantShift δ) (p : Point ℝ) :
    s.find none (p + δ) .inverse = (s.find none p .forward).moved δ := by
  have hexact_eq : exactSearch s (s.metadata.searchedSide .inverse) (p + δ) =
      (exactSearch s (s.metadata.searchedSide .forward) p).map id
        (Except.map (Option.map (Hit.moved δ))) := h.moves.exactSearch_eq p
  have hends := s.find_ends none p .forward
  generalize s.find none p .forward = lookup at hends ⊢
  cases hends with
  | cached hcache => cases hcache
  | failed _ hexact =>
    rw [hexact] at hexact_eq
    exact (Lookup.Ends.failed rfl hexact_eq).find_eq
  | hit _ hexact =>
    rw [hexact] at hexact_eq
    exact (Lookup.Ends.hit rfl hexact_eq).find_eq
  | missed _ hexact hfallback =>
    rw [hexact] at hexact_eq
    exact (Lookup.Ends.missed rfl hexact_eq hfallback).find_eq
  | outward _ hexact hfallback =>
    rw [hexact] at hexact_eq
    rw [(Lookup.Ends.outward rfl hexact_eq hfallback).find_eq, h.moves.fallbackSearch_eq]
    rfl

/-- A match forward and its moved match are read off one row, which is streamed for a window that both
lookups query. -/
theorem exists_row (h : s.ConstantShift δ) {p : Point ℝ} {found : TriangleMatch ℝ}
    (hfound : (s.find none p .forward).answer = .ok (some found)) :
    ∃ q ∈ (s.find none p .forward).queries, ∃ r ∈ (s.query q.window).rows,
      r.Answers .source p found ∧
        r.Answers (s.metadata.searchedSide .inverse) (p + δ) (found.moved δ) := by
  rcases TriangleSource.find_answers hfound with hcached | ⟨q, hq, r, hr, hanswers⟩
  · cases hcached
  · obtain ⟨t, hmoved⟩ := h.moves.rows q.window r hr
    exact ⟨q, hq, r, hr, hanswers, hmoved.answers hanswers⟩

/-- A match forward moves the position by `δ`, also outside its triangle. -/
theorem apply_position (h : s.ConstantShift δ) {w : Window ℝ} {r : TriangleRow β ℝ}
    (hr : r ∈ (s.query w).rows) {c : Coordinate ℝ} {found : TriangleMatch ℝ}
    (hanswers : r.Answers .source c.position found) :
    (found.apply .forward c).position = c.position + δ := by
  obtain ⟨t, ht, htarget, hflat⟩ := h.rows w r hr
  obtain ⟨t', ht', hw, hcorr⟩ := hanswers.of_source
  rw [ht] at ht'
  injection ht' with ht'
  rw [← ht'] at hw
  cases hv : r.target with
  | none =>
    rw [TriangleMatch.apply_position_none (by rw [hcorr, hv]), h.flat (hflat hv), Point.add_origin]
  | some v =>
    rw [TriangleMatch.apply_position_some (v := v) (by rw [hcorr, hv]), htarget v hv,
      Weights.blendPoint_translate (Triangle.sum_of_weights? hw), Triangle.blendPoint_of_weights? hw]

end TriangleSource.ConstantShift

/-- A moved match undoes the match, if that moves the position by `δ`. -/
theorem TriangleMatch.moved_apply_back {found : TriangleMatch ℝ} {δ : Point ℝ} {c : Coordinate ℝ}
    (hsum : found.weights.first + found.weights.second + found.weights.third = 1)
    (hposition : (found.apply .forward c).position = c.position + δ) :
    (found.moved δ).apply .inverse (found.apply .forward c) = c := by
  refine apply_back ?_ rfl rfl
  cases hv : found.corrections.horizontal with
  | none =>
    have hv' : (found.moved δ).corrections.horizontal = none := by
      rw [moved, CorrectionSet.translate, hv, Option.map_none]
    rw [apply_position_none hv', apply_position_none hv]
  | some v =>
    have hv' : (found.moved δ).corrections.horizontal = some (v.translate (-δ)) := by
      rw [moved, CorrectionSet.translate, hv, Option.map_some]
    rw [apply_position_some hv] at hposition
    rw [apply_position_some hv']
    show found.weights.blendPoint (v.translate (-δ)) = c.position
    rw [Weights.blendPoint_translate hsum, hposition, Point.add_neg_self]

/-- **Over a constant shift the lookup back mirrors the lookup forward.**  With empty caches, the lookup
back from the moved point issues the queries of the lookup forward from the point, ends in the same stage,
fails or finds nothing where that does, and answers with the same weights from the same row.  Hence a
transformation from an empty cache and the one back after it return the coordinate itself, also where
triangles overlap and where the outward search answers. -/
theorem constant_shift_mirrored {s : TriangleSource β ℝ} {δ : Point ℝ} (h : s.ConstantShift δ) :
    (∀ p, (s.find none (p + δ) .inverse).queries = (s.find none p .forward).queries ∧
      (s.find none (p + δ) .inverse).stage = (s.find none p .forward).stage ∧
      (∀ e, (s.find none (p + δ) .inverse).answer = .error e ↔
        (s.find none p .forward).answer = .error e) ∧
      ((s.find none (p + δ) .inverse).answer = .ok none ↔
        (s.find none p .forward).answer = .ok none) ∧
      ∀ found, (s.find none p .forward).answer = .ok (some found) →
        ∃ found', (s.find none (p + δ) .inverse).answer = .ok (some found') ∧
          found'.weights = found.weights ∧
          ∃ q ∈ (s.find none p .forward).queries, ∃ r ∈ (s.query q.window).rows,
            r.Answers .source p found ∧
              r.Answers (s.metadata.searchedSide .inverse) (p + δ) found') ∧
    ∀ c q, (s.transform none .forward c).answer = .ok (some q) →
      (s.transform (s.transform none .forward c).cache .inverse q).answer = .ok (some c) := by
  refine ⟨fun p => ?_, fun c q hq => ?_⟩
  · rw [h.find_eq p]
    refine ⟨rfl, rfl, fun e => ?_, ?_, fun found hfound => ?_⟩
    · exact Lookup.moved_answer_error
    · exact Lookup.moved_answer_none
    · exact ⟨found.moved δ, by rw [Lookup.moved, hfound]; rfl, rfl, h.exists_row hfound⟩
  · obtain ⟨found, hfound, rfl⟩ := TriangleSource.transform_answer.mp hq
    obtain ⟨_, -, r, hr, hanswers, -⟩ := h.exists_row hfound
    obtain ⟨_, -, hw, -⟩ := hanswers.of_source
    have hposition := h.apply_position hr hanswers
    have hcache : cachedMatch? (s.transform none .forward c).cache
        (found.apply .forward c).position .inverse = none :=
      s.cachedMatch?_find_of_ne (by decide)
    have hback : (s.find (s.transform none .forward c).cache (found.apply .forward c).position
        .inverse).answer = .ok (some (found.moved δ)) := by
      rw [TriangleSource.find_answer_eq hcache, hposition, h.find_eq, Lookup.moved, hfound]
      rfl
    rw [TriangleSource.transform_of_find hback,
      TriangleMatch.moved_apply_back (Triangle.sum_of_weights? hw) hposition]

/-! ## The sparse mesh, moved

The triangles of the sparse mesh with target corners; the nearer one comes first. -/

section Slid

def slide : Point ℝ := .whole 3 5

noncomputable def slidNear : TriangleRow (Point ℝ) ℝ :=
  ⟨nearCorners, some (nearCorners.translate slide), some (.offset ⟨1, 0, 1⟩)⟩

noncomputable def slidFar : TriangleRow (Point ℝ) ℝ :=
  ⟨farCorners, some (farCorners.translate slide), some (.offset (.all 0))⟩

/-- The near triangle as a candidate for the point beside it. -/
noncomputable def slidCandidate : Candidate ℝ :=
  ⟨1 / 4, nearCorners, ⟨slidNear.target, slidNear.vertical⟩⟩

noncomputable def slidMesh : MeshMetadata ℝ :=
  { sparseMesh with horizontal := true, shift := ⟨slide, slide⟩ }

noncomputable def slidStore : TriangleSource (Point ℝ) ℝ := .ofRows slidMesh [slidNear, slidFar]

theorem slidStore_constantShift : slidStore.ConstantShift slide where
  rows w r hr := by
    rcases List.mem_cons.mp (TriangleSource.mem_query_ofRows.mp hr).1 with rfl | hr
    · exact ⟨nearCorners, rfl, fun v hv => (Option.some.inj hv).symm, fun hnone => by cases hnone⟩
    · rw [List.mem_singleton.mp hr]
      exact ⟨farCorners, rfl, fun v hv => (Option.some.inj hv).symm, fun hnone => by cases hnone⟩
  horizontal _ := rfl
  flat hflat := by cases hflat

/-- Beside the near triangle that triangle is kept, although the far one is met after it. -/
theorem slidStore_scan :
    (slidStore.query (.around ⟨7 / 2, 0⟩ 1)).scan (fallbackStep .nearestSide .source ⟨7 / 2, 0⟩) none =
      (2, .ok (some slidCandidate)) := by
  have hrows : (slidStore.query (.around ⟨7 / 2, 0⟩ 1)).rows = [slidNear, slidFar] := by
    have hnear : slidNear.meets (.around ⟨7 / 2, 0⟩ 1) = true :=
      nearRow_meets.mpr ⟨by norm_num, by norm_num⟩
    have hfar : slidFar.meets (.around ⟨7 / 2, 0⟩ 1) = true :=
      farRow_meets (by norm_num) (by norm_num)
    simp [slidStore, TriangleSource.ofRows, hnear, hfar]
  have hoffer : slidNear.Offers .nearestSide .source ⟨7 / 2, 0⟩ slidCandidate :=
    ⟨⟨rfl, nearRow_usable.usable⟩, rfl, nearCorners_sqDistance.symm⟩
  have hnear : fallbackStep .nearestSide .source ⟨7 / 2, 0⟩ none slidNear =
      .ok (.more (some slidCandidate)) :=
    hoffer.fallbackStep_eq rfl rfl
  have hfar : fallbackStep .nearestSide .source ⟨7 / 2, 0⟩ (some slidCandidate) slidFar =
      .ok (.more (some slidCandidate)) := by
    rcases fallbackStep_cases .nearestSide .source ⟨7 / 2, 0⟩ (some slidCandidate) slidFar with
      ⟨_, -, -, heq⟩ | ⟨b, hb, -, hbeats, -⟩ | ⟨e, he, -⟩
    · exact heq
    · have hcorners : farCorners = b.vertices := by
        have hvertices := hb.vertices
        injection hvertices
      have hlt := of_decide_eq_true hbeats
      rw [hb.sqDistance, ← hcorners, FallbackStrategy.sqDistance, farCorners_sqDistance] at hlt
      norm_num [slidCandidate] at hlt
    · rcases he with he | he <;> cases he
  simp only [RowStream.scan, hrows, readRows, hnear, hfar]
  rfl

/-- No triangle contains the point, so the outward search answers. -/
theorem slidStore_find_forward :
    (slidStore.find none ⟨7 / 2, 0⟩ .forward).stage = .fallback ∧
      (slidStore.find none ⟨7 / 2, 0⟩ .forward).answer =
        .ok (some ⟨⟨-1 / 2, 3 / 2, 0⟩, ⟨slidNear.target, slidNear.vertical⟩⟩) := by
  have hmiss : ∀ r ∈ (slidStore.query (exactWindow slidMesh .source ⟨7 / 2, 0⟩)).rows,
      r.Misses .source ⟨7 / 2, 0⟩ := by
    intro r hr
    rcases List.mem_cons.mp (TriangleSource.mem_query_ofRows.mp hr).1 with rfl | hr
    · exact nearRow_misses (Or.inr le_rfl)
    · rw [List.mem_singleton.mp hr]
      exact farRow_misses (by norm_num)
  -- the two metadata differ in the shifts only
  have hcenter : searchCenter slidMesh .source ⟨7 / 2, 0⟩ = ⟨7 / 2, 0⟩ :=
    sparseMesh_searchCenter (by norm_num) (by norm_num)
  have hradius : firstRadius slidMesh sparseCount = 1 := sparseMesh_firstRadius
  have hlimit : ¬ slidMesh.extent.longerSide < (1 : ℝ) := by
    norm_num [Extent.longerSide, Extent.width, Extent.height, slidMesh, sparseMesh]
  have houtward : searchOutward slidStore .source ⟨7 / 2, 0⟩ (searchCenter slidMesh .source ⟨7 / 2, 0⟩)
      slidMesh.extent.longerSide maxFallbackRounds (firstRadius slidMesh sparseCount) =
        ([⟨.around ⟨7 / 2, 0⟩ 1, 2⟩], .ok (some slidCandidate)) := by
    rw [hcenter, hradius]
    exact searchOutward_of_scan hlimit slidStore_scan
  have hweights : nearCorners.weights? ⟨7 / 2, 0⟩ = some ⟨-1 / 2, 3 / 2, 0⟩ := by
    rw [nearCorners_weights]
    norm_num
  have hanswer := fallbackSearch_of_searchOutward (s := slidStore) rfl houtward hweights
  rw [(Lookup.Ends.outward (s := slidStore) (d := .forward) rfl
    (exactSearch_of_misses hmiss rfl) (by decide)).find_eq]
  exact ⟨rfl, congrArg Prod.snd hanswer⟩

theorem slidStore_transform_forward :
    (slidStore.transform none .forward ⟨7 / 2, 0, 1⟩).answer = .ok (some ⟨13 / 2, 5, 1 / 2⟩) := by
  refine TriangleSource.transform_answer.mpr
    ⟨_, slidStore_find_forward.2, Coordinate.eq_of_position ?_ ?_⟩
  · rw [TriangleMatch.apply_position_some rfl]
    refine Point.eq_of_coordinates ?_ ?_ <;>
      norm_num [Weights.blendPoint, nearCorners, slide, Coordinate.position]
  · rw [TriangleMatch.apply_forward_z]
    norm_num [TriangleMatch.rise, slidNear, VerticalValues.offsets, Weights.blend_real]

/-- A point outside both triangles: the outward search answers for it, and for the moved point with the
same weights; the transformations go there and back. -/
theorem slid_constant_shift_mirrored :
    (slidStore.find none (⟨7 / 2, 0⟩ + slide) .inverse).stage = .fallback ∧
    (∃ found', (slidStore.find none (⟨7 / 2, 0⟩ + slide) .inverse).answer = .ok (some found') ∧
      found'.weights = ⟨-1 / 2, 3 / 2, 0⟩) ∧
    (slidStore.transform none .forward ⟨7 / 2, 0, 1⟩).answer = .ok (some ⟨13 / 2, 5, 1 / 2⟩) ∧
    (slidStore.transform (slidStore.transform none .forward ⟨7 / 2, 0, 1⟩).cache .inverse
      ⟨13 / 2, 5, 1 / 2⟩).answer = .ok (some ⟨7 / 2, 0, 1⟩) := by
  obtain ⟨hfind, hback⟩ := constant_shift_mirrored slidStore_constantShift
  obtain ⟨-, hstage, -, -, hfound⟩ := hfind ⟨7 / 2, 0⟩
  obtain ⟨found', hanswer, hweights, -⟩ := hfound _ slidStore_find_forward.2
  exact ⟨hstage.trans slidStore_find_forward.1, ⟨found', hanswer, hweights⟩,
    slidStore_transform_forward, hback _ _ slidStore_transform_forward⟩

end Slid

end ShiftMesh
