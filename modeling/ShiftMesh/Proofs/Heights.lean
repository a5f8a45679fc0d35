import ShiftMesh.Proofs.Simulation

/-!
# ShiftMesh.Proofs.Heights — heights change nothing but heights

A search reads positions only.  So two meshes that differ in their heights are searched alike, and the
heights of the triangle that answers enter the answer in one place: they are added to the height that was
given, or subtracted from it.

* `Direction.raise`, `TriangleMatch.apply_z`: what a match makes of a height.
* `TriangleRow.SamePlaces`: two rows that differ at most in their heights; a search cannot tell them apart,
  and their matches have the same weights and the same positions.
* `heights_leave_positions`: runs on two meshes that differ at most in their heights.
* `TriangleSource.asOffsets`: the mesh with each pair of heights replaced by its difference;
  `TriangleSource.asOffsets_seen`: a caller cannot tell the two apart.

Nothing here depends on the arithmetic.
-/

namespace ShiftMesh

section Any

variable {β α : Type} [Scalar α] [StoredPoint β α]

/-! ## What a match makes of a height -/

/-- A height with weighted offsets added going forward and subtracted going back; without offsets it stays
as it is. -/
def Direction.raise (d : Direction) (w : Weights α) (z : α) : Option (Corners α) → α
  | some offsets => z + d.sign * w.blend offsets
  | none => z

/-- The signed height corrections of a row, if it has any. -/
def TriangleRow.offsets? (r : TriangleRow β α) : Option (Corners α) :=
  r.vertical.map VerticalValues.offsets

theorem TriangleMatch.apply_z (found : TriangleMatch α) (d : Direction) (c : Coordinate α) :
    (found.apply d c).z =
      d.raise found.weights c.z (found.corrections.vertical.map VerticalValues.offsets) := by
  obtain ⟨w, horizontal, vertical⟩ := found
  cases vertical <;> rfl

/-- Matches of the same weights and positions lead to the same place. -/
theorem TriangleMatch.apply_position_congr {found found' : TriangleMatch α}
    (hweights : found.weights = found'.weights)
    (hhorizontal : found.corrections.horizontal = found'.corrections.horizontal) (d : Direction)
    {c c' : Coordinate α} (hc : c.position = c'.position) :
    (found.apply d c).position = (found'.apply d c').position := by
  cases h : found'.corrections.horizontal with
  | none => rw [apply_position_none (hhorizontal.trans h), apply_position_none h, hc]
  | some v =>
    rw [apply_position_some (hhorizontal.trans h), apply_position_some h, hweights]

/-! ## Rows at the same places -/

namespace TriangleRow

/-- Two rows that differ at most in their heights. -/
structure SamePlaces (r r' : TriangleRow β α) : Prop where
  geometry : r.geometry = r'.geometry
  target : r.target = r'.target

omit [Scalar α] in
/-- The corrections of a row for either side hold its heights. -/
theorem vertical_of_corrections {r : TriangleRow β α} {side : Side} {c : CorrectionSet α}
    (h : r.corrections side = .ok c) : c.vertical = r.vertical := by
  unfold corrections at h
  split at h
  · cases ht : r.triangle with
    | error e =>
      rw [ht] at h
      cases h
    | ok t =>
      rw [ht] at h
      injection h with h
      rw [← h]
  · injection h with h
    rw [← h]

/-- A row gives one match for a point. -/
theorem Answers.unique {r : TriangleRow β α} {side : Side} {p : Point α} {found found' : TriangleMatch α}
    (h : r.Answers side p found) (h' : r.Answers side p found') : found = found' := by
  obtain ⟨v, hv, hw, hc⟩ := h
  obtain ⟨v', hv', hw', hc'⟩ := h'
  rw [hv] at hv'
  injection hv' with hv'
  rw [← hv', hw] at hw'
  rw [hc] at hc'
  injection hw' with hw'
  injection hc' with hc'
  cases found
  exact (TriangleMatch.mk.injEq ..).mpr ⟨hw', hc'⟩

namespace SamePlaces

variable {r r' : TriangleRow β α} {side : Side}

omit [Scalar α] [StoredPoint β α] in
/-- One of the rows is the other with its own heights. -/
theorem eq_set (h : r.SamePlaces r') : r' = { r with vertical := r'.vertical } := by
  obtain ⟨geometry, target, vertical⟩ := r
  obtain ⟨geometry', target', vertical'⟩ := r'
  obtain rfl : geometry = geometry' := h.geometry
  obtain rfl : target = target' := h.target
  rfl

omit [Scalar α] in
theorem vertices_eq (h : r.SamePlaces r') (side : Side) : r.vertices side = r'.vertices side := by
  rw [h.eq_set]
  rfl

omit [Scalar α] in
/-- The corrections of both rows can be read or not alike, and hold the same positions. -/
theorem corrections (h : r.SamePlaces r') (side : Side) :
    SameOutcome (fun c c' => c.horizontal = c'.horizontal) (r.corrections side)
      (r'.corrections side) := by
  rw [h.eq_set]
  obtain ⟨geometry, target, vertical⟩ := r
  cases target with
  | none => cases side <;> exact .ok rfl
  | some v =>
    cases side with
    | source => exact .ok rfl
    | target => exact (SameOutcome.refl (fun _ => rfl) _).map fun t t' (ht : t = t') => by rw [ht]

/-- A search cannot tell the rows apart. -/
theorem alike (h : r.SamePlaces r') (side : Side) : r.Alike side r' where
  vertices := by
    rw [h.vertices_eq]
    exact SameOutcome.refl (fun _ => ⟨fun _ => rfl, fun _ => rfl, rfl, fun _ _ => rfl, fun _ _ => rfl⟩) _
  corrections := (h.corrections side).imp fun _ _ _ => trivial

/-- Matches of the rows for one point have the same weights and hold the same positions. -/
theorem answers {p : Point α} {found found' : TriangleMatch α} (h : r.SamePlaces r')
    (hr : r.Answers side p found) (hr' : r'.Answers side p found') :
    found.weights = found'.weights ∧
      found.corrections.horizontal = found'.corrections.horizontal := by
  obtain ⟨v, hv, hw, hc⟩ := hr
  obtain ⟨v', hv', hw', hc'⟩ := hr'
  have hcorrections := h.corrections side
  rw [hc, hc'] at hcorrections
  rw [h.vertices_eq, hv'] at hv
  injection hv with hv
  rw [hv, hw] at hw'
  injection hw' with hw'
  cases hcorrections with
  | ok hhorizontal => exact ⟨hw', hhorizontal⟩

end SamePlaces

end TriangleRow

/-! ## Meshes that differ in their heights -/

variable {s s' : TriangleSource β α}

/-- Two sources that stream rows at the same places for each window, and fail alike; the rows may differ in
their heights, and the meshes in how they encode them. -/
structure TriangleSource.SameButHeights (s s' : TriangleSource β α) : Prop where
  metadata : s.metadata.SearchedAlike s'.metadata
  streams : ∀ w, RowStream.Paired TriangleRow.SamePlaces (s.query w) (s'.query w)

theorem TriangleSource.SameButHeights.paired (h : s.SameButHeights s') :
    TriangleSource.Paired TriangleRow.SamePlaces s s' :=
  ⟨h.metadata, h.streams, fun _ _ hr => hr.alike⟩

/-- A row that the source streams for some window, paired with itself. -/
def TriangleSource.Itself (s : TriangleSource β α) (r r' : TriangleRow β α) : Prop :=
  r = r' ∧ ∃ w, r ∈ (s.query w).rows

theorem TriangleSource.paired_itself (s : TriangleSource β α) : TriangleSource.Paired s.Itself s s where
  metadata := .refl s.metadata
  streams w := ⟨List.forall₂_same.mpr fun _ hr => ⟨rfl, w, hr⟩, rfl, rfl⟩
  alike := by
    rintro r _ ⟨rfl, -⟩
    exact TriangleRow.SamePlaces.alike ⟨rfl, rfl⟩

/-- Two calls in one direction at one position. -/
def SamePlace (x x' : Direction × Coordinate α) : Prop :=
  x.1 = x'.1 ∧ x.2.position = x'.2.position

/-- The answers `q` and `q'` to two calls come from one match, read off a row that the source streams; to
the height of its call each one adds the weighted offsets of that row, or subtracts them going back. -/
def TriangleSource.RaisesBoth (s : TriangleSource β α) (x x' : Direction × Coordinate α)
    (q q' : Coordinate α) : Prop :=
  ∃ w, ∃ r ∈ (s.query w).rows, ∃ found,
    r.Answers (s.metadata.searchedSide x.1) x.2.position found ∧
    (q = found.apply x.1 x.2 ∧ q.z = x.1.raise found.weights x.2.z r.offsets?) ∧
    q' = found.apply x'.1 x'.2 ∧ q'.z = x'.1.raise found.weights x'.2.z r.offsets?

/-- **Heights leave positions alone.**  Take two sources that differ at most in their heights, and two runs
of transformations at the same positions in the same directions, with any heights given.  Call by call the
runs on the two sources issue the same queries, end at the same stage, answer or fail alike, and answer
with the same position.  The two runs on one source differ only by the heights given: both answers to a
call come from one match, and add the same weighted offsets to the height of the call, or subtract them
going back. -/
theorem heights_leave_positions (h : s.SameButHeights s')
    {calls calls' : List (Direction × Coordinate α)} (hcalls : List.Forall₂ SamePlace calls calls') :
    List.Forall₂ (Evaluation.Alike fun q q' => q.position = q'.position) (s.transformAll none calls)
        (s'.transformAll none calls') ∧
      List.Forall₂ (fun x x' => Evaluation.Alike (s.RaisesBoth x.1 x'.1) x.2 x'.2)
        (calls.zip (s.transformAll none calls)) (calls'.zip (s.transformAll none calls')) := by
  constructor
  · refine h.paired.transformAll (fun _ _ hx => hx) ?_ hcalls .none
    rintro ⟨d, c⟩ ⟨d', c'⟩ found found' ⟨rfl, hc⟩ ⟨r, r', hr, hanswers, hanswers'⟩
    obtain ⟨hweights, hhorizontal⟩ := hr.answers hanswers hanswers'
    exact TriangleMatch.apply_position_congr hweights hhorizontal d hc
  · refine s.paired_itself.transformAll_calls (fun _ _ hx => hx) ?_ hcalls .none
    rintro x x' found found' - ⟨r, _, ⟨rfl, w, hr⟩, hanswers, hanswers'⟩
    obtain rfl := hanswers.unique hanswers'
    obtain ⟨-, -, -, hcorrections⟩ := hanswers
    refine ⟨w, r, hr, found, hanswers', ⟨rfl, ?_⟩, rfl, ?_⟩ <;>
      rw [TriangleMatch.apply_z, TriangleRow.vertical_of_corrections hcorrections,
        TriangleRow.offsets?]

/-! ## The two encodings of heights -/

/-- The differences of heights given in pairs. -/
def VerticalValues.asOffset (v : VerticalValues α) : VerticalValues α := .offset v.offsets

/-- The row with its heights given by their differences. -/
def TriangleRow.asOffsets (r : TriangleRow β α) : TriangleRow β α :=
  { r with vertical := r.vertical.map VerticalValues.asOffset }

/-- The mesh with its heights declared as differences. -/
def MeshMetadata.asOffsets (m : MeshMetadata α) : MeshMetadata α :=
  { m with vertical := m.vertical.map fun _ => .offset }

/-- The source that streams each row with its heights given by their differences. -/
def TriangleSource.asOffsets (s : TriangleSource β α) : TriangleSource β α where
  metadata := s.metadata.asOffsets
  query w := { s.query w with rows := (s.query w).rows.map TriangleRow.asOffsets }

/-- Two rows at the same places with the same signed height corrections. -/
structure TriangleRow.SameCorrections (r r' : TriangleRow β α) : Prop extends r.SamePlaces r' where
  offsets : r.offsets? = r'.offsets?

omit [StoredPoint β α] in
theorem TriangleRow.sameCorrections_asOffsets (r : TriangleRow β α) : r.SameCorrections r.asOffsets where
  geometry := rfl
  target := rfl
  offsets := by
    obtain ⟨geometry, target, vertical⟩ := r
    cases vertical <;> rfl

/-- Matches of such rows for one point do the same to every coordinate. -/
theorem TriangleRow.SameCorrections.apply_eq {r r' : TriangleRow β α} (h : r.SameCorrections r')
    {side : Side} {p : Point α} {found found' : TriangleMatch α} (hr : r.Answers side p found)
    (hr' : r'.Answers side p found') (d : Direction) (c : Coordinate α) :
    found.apply d c = found'.apply d c := by
  obtain ⟨hweights, hhorizontal⟩ := h.toSamePlaces.answers hr hr'
  obtain ⟨-, -, -, hcorrections⟩ := hr
  obtain ⟨-, -, -, hcorrections'⟩ := hr'
  refine Coordinate.eq_of_position (TriangleMatch.apply_position_congr hweights hhorizontal d rfl) ?_
  rw [TriangleMatch.apply_z, TriangleMatch.apply_z, hweights, vertical_of_corrections hcorrections,
    vertical_of_corrections hcorrections']
  exact congrArg (d.raise found'.weights c.z) h.offsets

/-- Two sources of meshes that differ at most in how they encode heights, and that stream rows with the
same corrections. -/
structure TriangleSource.SameCorrections (s s' : TriangleSource β α) : Prop where
  metadata : s.metadata.SearchedAlike s'.metadata
  streams : ∀ w, RowStream.Paired TriangleRow.SameCorrections (s.query w) (s'.query w)

/-- A caller cannot tell such sources apart. -/
theorem TriangleSource.SameCorrections.seen (h : s.SameCorrections s')
    (calls : List (Direction × Coordinate α)) :
    (s.transformAll none calls).map Evaluation.seen =
      (s'.transformAll none calls).map Evaluation.seen := by
  have hpaired : TriangleSource.Paired TriangleRow.SameCorrections s s' :=
    ⟨h.metadata, h.streams, fun _ _ hr => hr.toSamePlaces.alike⟩
  refine hpaired.transformAll_seen ?_ calls
  rintro d c found found' ⟨r, r', hr, hanswers, hanswers'⟩
  exact hr.apply_eq hanswers hanswers' d c

omit [StoredPoint β α] in
theorem TriangleSource.sameCorrections_asOffsets (s : TriangleSource β α) :
    s.SameCorrections s.asOffsets where
  metadata := ⟨rfl, rfl, rfl, rfl, rfl⟩
  streams w := by
    refine ⟨?_, rfl, rfl⟩
    show List.Forall₂ _ (s.query w).rows ((s.query w).rows.map TriangleRow.asOffsets)
    rw [List.forall₂_map_right_iff]
    exact List.forall₂_same.mpr fun r _ => r.sameCorrections_asOffsets

/-- A caller cannot tell whether heights are streamed in pairs or as their differences. -/
theorem TriangleSource.asOffsets_seen (s : TriangleSource β α) (calls : List (Direction × Coordinate α)) :
    (s.transformAll none calls).map Evaluation.seen =
      (s.asOffsets.transformAll none calls).map Evaluation.seen :=
  s.sameCorrections_asOffsets.seen calls

end Any

/-! ## The wedge at other heights -/

section Wedge

/-- The wedge with pairs of heights, and with other differences between them. -/
def liftedWedge : TriangleRow (Point ℝ) ℝ :=
  { wedge with vertical := some (.paired (.all 1) ⟨0, 1, 0⟩) }

noncomputable def liftedStore : TriangleSource (Point ℝ) ℝ :=
  .ofRows { wedgeMesh with vertical := some .paired } [liftedWedge]

theorem wedgeStore_sameButHeights : wedgeStore.SameButHeights liftedStore where
  metadata := ⟨rfl, rfl, rfl, rfl, rfl⟩
  streams := by
    have hrows : List.Forall₂ TriangleRow.SamePlaces [wedge] [liftedWedge] := .cons ⟨rfl, rfl⟩ .nil
    refine (TriangleSource.ofRows_paired ⟨rfl, rfl, rfl, rfl, rfl⟩ hrows (fun r r' hr w => ?_)
      fun _ _ hr => hr.alike).streams
    rw [hr.eq_set]
    rfl

/-- The point of the wedge, once given at another height and once on the lifted wedge. -/
theorem liftedStore_transform :
    (∃ z, (liftedStore.transform none .forward ⟨1, 1, -7⟩).answer =
      .ok (some ⟨11 / 5, 29 / 10, z⟩)) ∧
    (wedgeStore.transform none .forward ⟨1, 1, -7⟩).answer =
      .ok (some ⟨11 / 5, 29 / 10, -63 / 10⟩) := by
  have hcalls : List.Forall₂ SamePlace [(.forward, (⟨1, 1, 5⟩ : Coordinate ℝ))]
      [(.forward, ⟨1, 1, -7⟩)] := .cons ⟨rfl, rfl⟩ .nil
  obtain ⟨hplaces, hheights⟩ := heights_leave_positions wedgeStore_sameButHeights hcalls
  obtain ⟨⟩ | ⟨hplace, -⟩ := hplaces
  obtain ⟨⟩ | ⟨hheight, -⟩ := hheights
  constructor
  · obtain ⟨⟨x, y, z⟩, hanswer, hposition⟩ := hplace.exists_answer wedge_transform_forward
    injection hposition with hx hy
    subst hx hy
    exact ⟨z, hanswer⟩
  · obtain ⟨q, hanswer, w, r, hr, found, -, ⟨happly, hz⟩, happly', hz'⟩ :=
      hheight.exists_answer wedge_transform_forward
    obtain rfl : r = wedge := List.mem_singleton.mp (List.mem_of_mem_filter hr)
    rw [hanswer]
    refine congrArg (fun q => Except.ok (some q)) (Coordinate.eq_of_position ?_ ?_)
    · calc q.position = (found.apply .forward ⟨1, 1, -7⟩).position := by rw [happly']
        _ = (found.apply .forward ⟨1, 1, 5⟩).position :=
            TriangleMatch.apply_position_congr rfl rfl .forward rfl
        _ = _ := congrArg Coordinate.position happly.symm
    · have hraise : (57 / 10 : ℝ) = 5 + Direction.sign .forward * found.weights.blend ⟨1, 0, -1⟩ := hz
      have hraise' : q.z = -7 + Direction.sign .forward * found.weights.blend ⟨1, 0, -1⟩ := hz'
      show q.z = -63 / 10
      linarith

end Wedge

end ShiftMesh
