import ShiftMesh.Container.Session
import ShiftMesh.Proofs.Reach
import ShiftMesh.Proofs.Container.Opening
import ShiftMesh.Proofs.Container.Single
import ShiftMesh.Proofs.Container.Stream

/-!
# ShiftMesh.Proofs.Container.Serving — a written container serves the draft

* `MeshDraft.WithinSingles`: the positions and the stored values are within the range of singles; then
  the extent has numbers for bounds and the shift is finite.
* `MeshDraft.Carries`: a row has the positions, the targets and the heights of the corners of a triangle.
* `IndexEntry.ofBox_encloses`: the index rounds boxes outward.
* `MeshDraft.ServedBy`: each window streams one row for each triangle whose stored box meets it, and no
  lookup fails; `written_container_serves` says so of a container that was written and opened.
-/

namespace ShiftMesh

open Container

/-! ## Bounds of the draft -/

namespace Point

variable {α : Type} [Scalar α] {P : α → Prop} {p q : Point α}

/-- A condition on each coordinate. -/
def Each (P : α → Prop) (p : Point α) : Prop := P p.x ∧ P p.y

instance [DecidablePred P] : Decidable (p.Each P) := inferInstanceAs (Decidable (_ ∧ _))

theorem Each.lower (hp : p.Each P) (hq : q.Each P) : (p.lower q).Each P := by
  have hpick : ∀ {a b : α}, P a → P b → P (Scalar.pickLess a b) := by
    intro a b ha hb
    unfold Scalar.pickLess
    split_ifs <;> assumption
  exact ⟨hpick hp.1 hq.1, hpick hp.2 hq.2⟩

theorem Each.upper (hp : p.Each P) (hq : q.Each P) : (p.upper q).Each P := by
  have hpick : ∀ {a b : α}, P a → P b → P (Scalar.pickGreater a b) := by
    intro a b ha hb
    unfold Scalar.pickGreater
    split_ifs <;> assumption
  exact ⟨hpick hp.1 hq.1, hpick hp.2 hq.2⟩

end Point

/-- What holds of every shift and of zero holds of the bounds of the range. -/
theorem ShiftRange.each_ofShifts {α : Type} [Scalar α] {P : α → Prop} (hzero : P (Scalar.ofNat 0))
    (shifts : List (Point α)) (h : ∀ s ∈ shifts, s.Each P) :
    (ofShifts shifts).min.Each P ∧ (ofShifts shifts).max.Each P := by
  cases shifts with
  | nil => exact ⟨⟨hzero, hzero⟩, hzero, hzero⟩
  | cons s rest =>
    rw [List.forall_mem_cons] at h
    refine List.foldlRecOn rest widen (motive := fun r => r.min.Each P ∧ r.max.Each P) ?_ ?_
    · exact ⟨h.1, h.1⟩
    · intro r hr shift hshift
      exact ⟨hr.1.lower (h.2 shift hshift), hr.2.upper (h.2 shift hshift)⟩

namespace MeshDraft

/-- Positions and stored values are within the range of singles. -/
structure WithinSingles (d : MeshDraft) : Prop where
  positions : ∀ v ∈ d.vertices, v.source.Each InSingleRange
  values : ∀ v ∈ d.vertices, ∀ column ∈ d.columns, ∀ x ∈ v.value? column, InSingleRange x

variable {d : MeshDraft}

/-- The extent starts from the infinities, which are numbers too. -/
theorem WithinSingles.numberExtent (h : d.WithinSingles) : d.NumberExtent := by
  refine List.foldlRecOn d.vertices _ (motive := fun e : Extent Float =>
    e.min.Each (fun x : Float => x.isNaN = false) ∧ e.max.Each fun x : Float => x.isNaN = false) ?_ ?_
  · refine ⟨⟨?_, ?_⟩, ?_, ?_⟩ <;> decide +kernel
  · intro e he v hv
    have hnumber : v.source.Each fun x : Float => x.isNaN = false :=
      ⟨(h.positions v hv).1.abs_value_le.1, (h.positions v hv).2.abs_value_le.1⟩
    exact ⟨he.1.lower hnumber, he.2.upper hnumber⟩

/-- The two columns of the targets. -/
theorem value?_target {v : VertexRecord} {p : Point Float} (hp : v.target = some p) :
    v.value? "target_x" = some p.x ∧ v.value? "target_y" = some p.y := by
  simp [VertexRecord.value?, hp]

theorem WithinSingles.target (h : d.WithinSingles) (hh : d.horizontal = true) {v : VertexRecord}
    (hv : v ∈ d.vertices) {p : Point Float} (hp : v.target = some p) : p.Each InSingleRange := by
  obtain ⟨hx, hy⟩ := value?_target hp
  exact ⟨h.values v hv _ (by simp [columns, valueColumns, hh]) _ hx,
    h.values v hv _ (by simp [columns, valueColumns, hh]) _ hy⟩

theorem WithinSingles.finiteShift (h : d.WithinSingles) (hh : d.horizontal = true) :
    d.FiniteShift := by
  refine ShiftRange.each_ofShifts (P := fun x : Float => x.isFinite = true) (by decide +kernel) _
    fun s hs => ?_
  obtain ⟨v, hv, hshift⟩ := List.mem_filterMap.mp hs
  obtain ⟨p, hp, rfl⟩ := Option.map_eq_some_iff.mp hshift
  have htarget := h.target hh hv hp
  have hsource := h.positions v hv
  exact ⟨htarget.1.isFinite_sub hsource.1, htarget.2.isFinite_sub hsource.2⟩

end MeshDraft

/-! ## Rows and boxes -/

theorem Corners.map_congr {β γ : Type} {f g : β → γ} {c : Corners β}
    (h : ∀ b ∈ c.toList, f b = g b) : c.map f = c.map g := by
  obtain ⟨hfirst, hsecond, hthird⟩ := Corners.forall_mem_toList.mp h
  rw [Corners.map, Corners.map, hfirst, hsecond, hthird]

/-- A position after it was stored in two columns. -/
def keptPoint (p : Point Float) : Point Float := ⟨kept p.x, kept p.y⟩

/-- The heights of three vertices in an encoding, after they were stored. -/
inductive CarriesHeights (v : Corners VertexRecord) :
    Option VerticalEncoding → Option (VerticalValues Float) → Prop
  | none : CarriesHeights v none none
  | offset {values} (hvalues : v.map (fun r => r.offsetZ.map kept) = values.map some) :
      CarriesHeights v (some .offset) (some (.offset values))
  | paired {source target} (hsource : v.map (fun r => r.sourceZ.map kept) = source.map some)
      (htarget : v.map (fun r => r.targetZ.map kept) = target.map some) :
      CarriesHeights v (some .paired) (some (.paired source target))

/-- The row of a triangle: its corners refer to vertices, and the row has their positions, their targets
if the draft is horizontal, and their heights in the declared encoding. -/
structure MeshDraft.Carries (d : MeshDraft) (t : Corners Nat) (row : TriangleRow Blob Float) : Prop where
  refers : t.map (fun i => d.vertices[i]?) = (d.records t).map some
  length : ∀ b ∈ row.geometry.toList, b.length = 29
  positions : row.geometry.map (PointBlob.decode PointBlob.stored) =
    (d.records t).map fun v => .ok v.source
  targets : row.target.map (Corners.map some) =
    if d.horizontal then some ((d.records t).map fun v => v.target.map keptPoint) else none
  heights : CarriesHeights (d.records t) d.vertical row.vertical

/-- The box of an entry holds another box. -/
structure Container.IndexEntry.Encloses (e : IndexEntry) (lo hi : Point Float) : Prop where
  minX : e.minX ≤ lo.x
  maxX : hi.x ≤ e.maxX
  minY : e.minY ≤ lo.y
  maxY : hi.y ≤ e.maxY

/-- Every window that meets a box meets one that holds it. -/
theorem Container.IndexEntry.Encloses.meets {e : IndexEntry} {lo hi : Point Float}
    (h : e.Encloses lo hi) {w : Window Float} (hmeets : w.meets lo hi = true) :
    e.meets w = true := by
  simp only [Window.meets, Bool.and_eq_true, decide_eq_true_iff] at hmeets
  obtain ⟨⟨⟨hleft, hright⟩, hbelow⟩, habove⟩ := hmeets
  simp only [IndexEntry.meets, Window.meets, Bool.and_eq_true, decide_eq_true_iff]
  exact ⟨⟨⟨Double.le_trans' hleft h.maxX, Double.le_trans' h.minX hright⟩,
    Double.le_trans' hbelow h.maxY⟩, Double.le_trans' h.minY habove⟩

/-- The index entry of a box within the range of singles holds the box, unless a coordinate is too small
for all bits of a single. -/
theorem Container.IndexEntry.ofBox_encloses (id : Int) {lo hi : Point Float}
    (hlo : lo.Each InFullRange) (hhi : hi.Each InFullRange) :
    (IndexEntry.ofBox id lo hi).Encloses lo hi := by
  have hbound : ∀ {x : Float}, InFullRange x → IndexEntry.bound x = x := fun h => by
    rw [IndexEntry.bound, h.1.abs_value_le.1]
    rfl
  have hbelow : ∀ {x : Float}, InFullRange x → singleBelow (IndexEntry.bound x) ≤ x := fun h => by
    rw [hbound h]
    exact singleBelow_le h
  have habove : ∀ {x : Float}, InFullRange x → x ≤ singleAbove (IndexEntry.bound x) := fun h => by
    rw [hbound h]
    exact le_singleAbove h
  exact ⟨hbelow hlo.1, habove hhi.1, hbelow hlo.2, habove hhi.2⟩

namespace MeshDraft

variable {d : MeshDraft}

/-- So does the index entry of a triangle with such corners. -/
theorem indexBox_encloses {t : Corners Nat} (h : ∀ p ∈ (d.corners t).toList, p.Each InFullRange) :
    (d.indexBox t).Encloses (d.corners t).boxMin (d.corners t).boxMax := by
  obtain ⟨hfirst, hsecond, hthird⟩ := Corners.forall_mem_toList.mp h
  exact IndexEntry.ofBox_encloses 0 ((hfirst.lower hsecond).lower hthird)
    ((hfirst.upper hsecond).upper hthird)

theorem mem_records {t : Corners Nat} (h : ∀ i ∈ t.toList, i < d.vertices.length) :
    ∀ v ∈ (d.records t).toList, v ∈ d.vertices := by
  intro v hv
  rw [records, Corners.toList_map, List.mem_map] at hv
  obtain ⟨i, hi, rfl⟩ := hv
  rw [List.getD_eq_getElem _ _ (h i hi)]
  exact List.getElem_mem _

/-- A stored value of a declared column is read as it was kept. -/
theorem map_kept_eq (hrange : d.WithinSingles) {column : String} (hcolumn : column ∈ d.columns)
    {v : VertexRecord} (hv : v ∈ d.vertices) (hsome : (v.value? column).isSome = true) :
    (v.value? column).map kept = some (given (v.value? column)) := by
  obtain ⟨x, hx⟩ := Option.isSome_iff_exists.mp hsome
  have hnumber := (hrange.values v hv column hcolumn x hx).abs_value_le.1
  rw [hx, given_some hnumber]
  rfl

theorem storedRow_targets (h : d.Accepted) (hrange : d.WithinSingles) {t : Corners Nat}
    (ht : t ∈ d.triangles) : (d.storedRow (d.records t)).target.map (Corners.map some) =
      if d.horizontal then some ((d.records t).map fun v => v.target.map keptPoint) else none := by
  rw [storedRow]
  cases hh : d.horizontal with
  | false => rfl
  | true =>
    have hpoint : ∀ v ∈ (d.records t).toList,
        some ⟨given (v.value? "target_x"), given (v.value? "target_y")⟩ = v.target.map keptPoint := by
      intro v hv
      have hmem := mem_records (h.corners t ht) v hv
      obtain ⟨p, hp⟩ := Option.isSome_iff_exists.mp (h.targets hh v hmem)
      obtain ⟨hx, hy⟩ := value?_target hp
      have hrange := hrange.target hh hmem hp
      rw [hx, hy, given_some hrange.1.abs_value_le.1, given_some hrange.2.abs_value_le.1, hp]
      rfl
    exact congrArg some (Corners.map_congr hpoint)

theorem storedRow_heights (h : d.Accepted) (hrange : d.WithinSingles) {t : Corners Nat}
    (ht : t ∈ d.triangles) :
    CarriesHeights (d.records t) d.vertical (d.storedRow (d.records t)).vertical := by
  have hmem := mem_records (h.corners t ht)
  have hheights := h.heights
  have hcolumn : ∀ column ∈ d.columns, (∀ v ∈ d.vertices, (v.value? column).isSome = true) →
      (d.records t).map (fun v => (v.value? column).map kept) =
        (columnValues (d.records t) column).map some := fun column hcolumn hsome =>
    Corners.map_congr fun v hv => map_kept_eq hrange hcolumn (hmem v hv) (hsome v (hmem v hv))
  rw [storedRow]
  rw [columns] at hcolumn
  match hvertical : d.vertical with
  | none => exact .none
  | some .offset =>
    rw [hvertical] at hheights hcolumn
    exact .offset (hcolumn "offset_z" (by simp [valueColumns]) hheights)
  | some .paired =>
    rw [hvertical] at hheights hcolumn
    have hboth : ∀ v ∈ d.vertices, v.sourceZ.isSome = true ∧ v.targetZ.isSome = true :=
      fun v hv => (Bool.and_eq_true _ _).mp (hheights v hv)
    exact .paired (hcolumn "source_z" (by simp [valueColumns]) fun v hv => (hboth v hv).1)
      (hcolumn "target_z" (by simp [valueColumns]) fun v hv => (hboth v hv).2)

/-- What is read of an accepted triangle is the row of its vertices. -/
theorem storedRow_carries (h : d.Accepted) (hrange : d.WithinSingles) {t : Corners Nat}
    (ht : t ∈ d.triangles) : d.Carries t (d.storedRow (d.records t)) where
  refers := records_eq (h.corners t ht)
  length := Corners.forall_mem_toList.mpr ⟨PointBlob.length_encodeWords _ _ _,
    PointBlob.length_encodeWords _ _ _, PointBlob.length_encodeWords _ _ _⟩
  positions := Corners.map_congr fun _ _ => PointBlob.decode_encodeWords _ _ _
  targets := storedRow_targets h hrange ht
  heights := storedRow_heights h hrange ht

/-- The geometries of a row can be read. -/
theorem Carries.triangle {t : Corners Nat} {row : TriangleRow Blob Float} (h : d.Carries t row) :
    row.triangle = .ok (d.corners t) := by
  obtain ⟨hfirst, hsecond, hthird⟩ := Corners.mk.inj h.positions
  have hdecode : ∀ b : Blob, StoredPoint.decode b = PointBlob.decode PointBlob.stored b := fun _ => rfl
  simp only [TriangleRow.triangle, Corners.mapM?, hdecode, hfirst, hsecond, hthird]
  rfl

/-! ## The container serves the draft -/

/-- What a source makes of a draft. -/
structure ServedBy (d : MeshDraft) (source : TriangleSource Blob Float) : Prop where
  /-- No query fails, be it read to its end or not. -/
  failure : ∀ w, (source.query w).failure = none
  stopFailure : ∀ w n, (source.query w).stopFailure n = none
  /-- For each triangle whose stored box meets the window there is one row, and there is no other. -/
  rows : ∀ w, List.Forall₂ d.Carries (d.triangles.filter fun t => (d.indexBox t).meets w)
    (source.query w).rows
  /-- So every triangle whose extent meets the window has a row, if its stored box was rounded
  outward. -/
  extent : ∀ t ∈ d.triangles, (d.indexBox t).Encloses (d.corners t).boxMin (d.corners t).boxMax →
    ∀ w : Window Float, w.meetsTriangle (d.corners t) = true →
      ∃ row ∈ (source.query w).rows, d.Carries t row
  /-- No lookup fails. -/
  answer : ∀ cache p direction, ∃ found, (source.find cache p direction).answer = .ok found

theorem servedBy_source (h : d.Accepted) (hrange : d.WithinSingles) {s : MeshStore}
    (hhorizontal : s.metadata.horizontal = d.horizontal)
    (hvertical : s.metadata.vertical = d.vertical) :
    d.ServedBy (s.source (.database d.database)) := by
  have hquery : ∀ w, (s.source (.database d.database)).query w =
      { rows := (d.triangles.filter fun t => (d.indexBox t).meets w).map fun t =>
          d.storedRow (d.records t) } := stream_database h.corners hhorizontal hvertical
  have hcarries : ∀ w, ∀ t ∈ d.triangles.filter fun t => (d.indexBox t).meets w,
      d.Carries t (d.storedRow (d.records t)) :=
    fun w t ht => storedRow_carries h hrange (List.mem_of_mem_filter ht)
  have hreadable : (s.source (.database d.database)).Readable := by
    refine ⟨fun w r hr => ?_, fun w => by rw [hquery], fun w n => by rw [hquery]⟩
    rw [hquery] at hr
    obtain ⟨t, ht, rfl⟩ := List.mem_map.mp hr
    exact ⟨_, (hcarries w t ht).triangle⟩
  refine ⟨hreadable.failure, hreadable.stopFailure, fun w => ?_, fun t ht hbox w hmeets => ?_,
    hreadable.exists_answer⟩
  · rw [hquery, List.forall₂_map_right_iff, List.forall₂_same]
    exact hcarries w
  · have hfilter : t ∈ d.triangles.filter fun t => (d.indexBox t).meets w :=
      List.mem_filter.mpr ⟨ht, hbox.meets hmeets⟩
    refine ⟨d.storedRow (d.records t), ?_, hcarries w t hfilter⟩
    rw [hquery]
    exact List.mem_map_of_mem hfilter

end MeshDraft

namespace Container

/-- A handle on a written container follows the file at the place that the path leads to. -/
theorem Handle.source_ofMesh {disk : Disk} {path : String} {place : Place}
    (hplace : disk.resolve path = .ok place) {mesh : OpenMesh} (haccess : mesh.access = .localFile)
    {later : Disk} {content : Content} (hfile : later.at? place = some content) :
    (Handle.ofMesh path mesh).source later = mesh.store.source content := by
  have hfollows : (Handle.ofMesh path mesh).follows = some place := by
    rw [← Disk.resolve_eq hplace]
    exact if_pos haccess
  have hcontent : (Handle.ofMesh path mesh).content later = content := by
    rw [Handle.content, hfollows]
    simp only [hfile, Option.getD_some]
  rw [Handle.source, hcontent]
  rfl

/-- **A written container serves the draft.**  What was written to a plain path is opened, and as long as
the file is as it was written, the open mesh serves the draft. -/
theorem written_container_serves {disk disk' : Disk} {path : String} {place : Place} {d : MeshDraft}
    (options : OpenOptions) (hplain : PlainPath path) (hplace : disk.resolve path = .ok place)
    (hrange : d.WithinSingles) (hwrite : disk.write path d = (.ok (), disk')) :
    ∃ mesh, openMesh disk' options path = .ok mesh ∧
      ∀ later : Disk, later.at? place = disk'.at? place →
        d.ServedBy ((Handle.ofMesh path mesh).source later) := by
  obtain ⟨hd, hresolve, hfile⟩ := Disk.write_spec hplain hplace hwrite
  obtain ⟨shift, hshift⟩ := MeshDraft.readShift_eq_ok_iff.mpr hrange.finiteShift
  have hread := hd.read_database hrange.numberExtent hshift
  refine ⟨_, (Disk.openMesh_written options hplain hresolve hfile).trans (congrArg _ hread), ?_⟩
  intro later hlater
  rw [Handle.source_ofMesh hplace rfl (hlater.trans hfile)]
  exact MeshDraft.servedBy_source hd hrange rfl rfl

/-- Two triangles with an edge in common, and a target with a negative zero. -/
def stripDraft : MeshDraft where
  vertices :=
    [⟨⟨0, 0⟩, some ⟨1, -0.0⟩, some 10, some 11, none⟩,
      ⟨⟨0x3FF0000000000000, 0⟩, some ⟨2.5, 2⟩, some 10, some 12, none⟩,
      ⟨⟨0, 0x3FB999999999999A⟩, some ⟨1.125, 3⟩, some 10, some 13, none⟩,
      ⟨⟨0xC008000000000000, 0x4008000000000000⟩, some ⟨-2, 4⟩, some 10, some 14, none⟩]
  triangles := [⟨2, 0, 1⟩, ⟨1, 3, 2⟩]
  horizontal := true
  vertical := some .paired
  fallback := .nearestSide

/-- A window on the left that only the second triangle reaches. -/
def leftWindow : Window Float := ⟨⟨-5, 1⟩, ⟨-2, 2⟩⟩

theorem strip_container_serves :
    PlainPath meshPath ∧ stripDraft.WithinSingles ∧ ∃ place disk',
      Disk.resolve {} meshPath = .ok place ∧ Disk.write {} meshPath stripDraft = (.ok (), disk') ∧
        (∀ t ∈ stripDraft.triangles, (stripDraft.indexBox t).Encloses
          (stripDraft.corners t).boxMin (stripDraft.corners t).boxMax) ∧
        ∃ mesh, openMesh disk' {} meshPath = .ok mesh ∧
          stripDraft.ServedBy ((Handle.ofMesh meshPath mesh).source disk') ∧
          ∃ row, (((Handle.ofMesh meshPath mesh).source disk').query leftWindow).rows = [row] ∧
            stripDraft.Carries ⟨1, 3, 2⟩ row := by
  have hrange : stripDraft.WithinSingles := ⟨by decide +kernel, by decide +kernel⟩
  have hbox : ∀ t ∈ stripDraft.triangles, (stripDraft.indexBox t).Encloses
      (stripDraft.corners t).boxMin (stripDraft.corners t).boxMax :=
    fun t ht => MeshDraft.indexBox_encloses (by revert t; decide +kernel)
  have hwrite : Disk.write {} meshPath stripDraft =
      (.ok (), (Disk.write {} meshPath stripDraft).2) := Disk.write_of_isSome (by decide +kernel)
  have hleft : (stripDraft.triangles.filter fun t => (stripDraft.indexBox t).meets leftWindow) =
      [⟨1, 3, 2⟩] := by decide +kernel
  obtain ⟨mesh, hmesh, hserves⟩ :=
    written_container_serves {} plainPath_meshPath resolve_meshPath hrange hwrite
  have hserved := hserves _ rfl
  have hrows := hserved.rows leftWindow
  rw [hleft] at hrows
  obtain ⟨row, rest, hrow, hrest, hlist⟩ := List.forall₂_cons_left_iff.mp hrows
  rw [List.forall₂_nil_left_iff.mp hrest] at hlist
  exact ⟨plainPath_meshPath, hrange, _, _, resolve_meshPath, hwrite, hbox, mesh, hmesh, hserved, row,
    hlist, hrow⟩

end Container

end ShiftMesh
