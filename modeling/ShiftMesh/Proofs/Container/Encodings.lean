import ShiftMesh.Proofs.Heights
import ShiftMesh.Proofs.Container.Serving

/-!
# ShiftMesh.Proofs.Container.Encodings — a mesh written with pairs of heights, and with differences

* `kept_sub`: the difference of two stored doubles is the stored difference.
* `MeshDraft.asOffsets`: the draft with the differences of its heights; `validate_asOffsets`,
  `Disk.write_asOffsets`: it is accepted and written alike.
* `storedRow_asOffsets`: what is read of a triangle holds the same corrections in either encoding.
* `encodings_agree`: a caller cannot tell the two encodings apart, be it on the rows of any source or on
  what was written and opened.
-/

namespace ShiftMesh

open Container

/-! ## Differences of stored doubles -/

namespace Double

open Float.Model.UnpackedFloat (Sign)

variable {x y : Float}

theorem kept_of_zero {s : Sign} (h : unpacked x = .zero s) : kept x = 0.0 := by
  have hnumber : x.isNaN = false := by
    rw [isNaN_eq, h]
    rfl
  have heq : (x == 0.0) = true :=
    (beq_iff hnumber zero_number.1).mpr ((value_of_zero h).trans zero_number.2.symm)
  rw [kept, if_pos heq]

theorem kept_of_ne_zero (hnumber : x.isNaN = false) (h : value x ≠ 0) : kept x = x := by
  have hne : ¬ (x == 0.0) = true := fun heq =>
    h (((beq_iff hnumber zero_number.1).mp heq).trans zero_number.2)
  rw [kept, if_neg hne]

theorem signed_ne_zero {s : Sign} {m : ℕ} {e : ℤ} (hm : 0 < m) : signed s (scaled m e) ≠ 0 := by
  have hpos : 0 < scaled m e := scaled_pos (by exact_mod_cast hm)
  cases s
  · exact neg_ne_zero.mpr hpos.ne'
  · exact hpos.ne'

/-- Storing loses the sign of zero, which no difference depends on but that of two zeros. -/
theorem kept_sub (hx : x.isFinite = true) (hy : y.isFinite = true) :
    kept (x - y) = kept x - kept y := by
  have hzero : unpacked 0.0 = .zero .positive := rfl
  have hrounds := rounds_sub hx hy
  -- by whether each operand is zero; a zero is stored as the positive one
  rcases finite_cases hx with ⟨s, hu⟩ | ⟨s, m, e, hm, hu, hfits, hvalue⟩
  · rw [kept_of_zero hu]
    rcases finite_cases hy with ⟨t, hv⟩ | ⟨t, n, c, hn, hv, -, hvalue'⟩
    · obtain ⟨r, hr⟩ := zero_sub_zero hu hv
      rw [kept_of_zero hv, hr, kept_of_zero (unpacked_packed_zero r)]
      rfl
    · have hy' := value_neg (isNaN_of_isFinite hy)
      have hne : value y ≠ 0 := hvalue' ▸ signed_ne_zero hn
      rw [kept_of_ne_zero (isNaN_of_isFinite hy) hne, zero_sub_finite hu hv, zero_sub_finite hzero hv]
      exact kept_of_ne_zero hy'.1 (by rw [hy'.2]; exact neg_ne_zero.mpr hne)
  · have hne : value x ≠ 0 := hvalue ▸ signed_ne_zero hm
    rw [kept_of_ne_zero (isNaN_of_isFinite hx) hne]
    rcases finite_cases hy with ⟨t, hv⟩ | ⟨t, n, c, hn, hv, hfits', hvalue'⟩
    · have hx' := value_packed_unpacked hx
      rw [kept_of_zero hv, finite_sub_zero hu hv, finite_sub_zero hu hzero]
      exact kept_of_ne_zero hx'.1 (by rw [hx'.2]; exact hne)
    · have hne' : value y ≠ 0 := hvalue' ▸ signed_ne_zero hn
      rw [kept_of_ne_zero (isNaN_of_isFinite hy) hne']
      -- operands that are equal leave a positive zero, and no others are rounded to zero
      obtain ⟨k, hsub, hexact⟩ := finite_sub_finite hu hv
      rcases eq_or_ne k 0 with rfl | hk
      · rw [hsub]
        exact kept_of_zero (unpacked_packed_zero .positive)
      · rw [hvalue, hvalue', hexact] at hrounds
        exact kept_of_ne_zero hrounds.isNumber
          (hrounds.value_ne_zero hk (le_min hfits.least hfits'.least))

end Double

/-! ## The draft with differences -/

/-- The vertex with the difference of its heights in their place. -/
def VertexRecord.asOffsets (v : VertexRecord) : VertexRecord :=
  { v with
    sourceZ := none
    targetZ := none
    offsetZ := v.sourceZ.bind fun a => v.targetZ.map fun b => b - a }

namespace MeshDraft

variable {d : MeshDraft}

/-- The draft with the differences of its heights. -/
def asOffsets (d : MeshDraft) : MeshDraft :=
  { d with
    vertices := d.vertices.map VertexRecord.asOffsets
    vertical := d.vertical.map fun _ => .offset }

/-- The heights of the vertices are finite. -/
def FiniteHeights (d : MeshDraft) : Prop :=
  ∀ v ∈ d.vertices, ∀ z ∈ v.sourceZ.toList ++ v.targetZ.toList, z.isFinite = true

instance (d : MeshDraft) : Decidable d.FiniteHeights :=
  inferInstanceAs (Decidable (∀ v ∈ d.vertices, ∀ z ∈ v.sourceZ.toList ++ v.targetZ.toList,
    z.isFinite = true))

/-- A vertex has its difference if it has both heights. -/
theorem hasHeights_asOffsets (v : VertexRecord) :
    v.asOffsets.hasHeights (some .offset) = v.hasHeights (some .paired) := by
  rw [VertexRecord.hasHeights, VertexRecord.hasHeights, VertexRecord.asOffsets]
  cases v.sourceZ <;> cases v.targetZ <;> rfl

theorem checkVertices_asOffsets (horizontal : Bool) (vertices : List VertexRecord) (first : Nat) :
    checkVertices horizontal (some .offset) first (vertices.map VertexRecord.asOffsets) =
      checkVertices horizontal (some .paired) first vertices := by
  induction vertices generalizing first with
  | nil => rfl
  | cons v rest ih =>
    rw [List.map_cons, checkVertices, checkVertices, hasHeights_asOffsets, ih (first + 1)]
    rfl

theorem extent_asOffsets (d : MeshDraft) : d.asOffsets.extent = d.extent := by
  rw [extent, extent, asOffsets, List.foldl_map]
  rfl

theorem shiftRange_asOffsets (d : MeshDraft) : d.asOffsets.shiftRange = d.shiftRange := by
  rw [shiftRange, shiftRange, asOffsets, List.filterMap_map]
  rfl

/-- The draft is accepted or refused alike. -/
theorem validate_asOffsets (hvertical : d.vertical = some .paired) :
    d.asOffsets.validate = d.validate := by
  have hempty : d.asOffsets.vertices.isEmpty = d.vertices.isEmpty := List.isEmpty_map
  have hlength : d.asOffsets.vertices.length = d.vertices.length := List.length_map _
  have hvertices : checkVertices d.asOffsets.horizontal d.asOffsets.vertical 0 d.asOffsets.vertices =
      checkVertices d.horizontal d.vertical 0 d.vertices := by
    rw [asOffsets, hvertical]
    exact checkVertices_asOffsets d.horizontal d.vertices 0
  rw [validate_eq, validate_eq, extent_asOffsets, hempty, hlength, hvertices]
  rfl

theorem Accepted.asOffsets (h : d.Accepted) (hvertical : d.vertical = some .paired) :
    d.asOffsets.Accepted := by
  rw [← validate_eq_ok, validate_asOffsets hvertical, validate_eq_ok]
  exact h

theorem advertisedCount_asOffsets (d : MeshDraft) :
    d.asOffsets.advertisedCount = d.advertisedCount := by
  rw [advertisedCount, advertisedCount, asOffsets, List.length_map]

/-- The draft declares the same components, so its header is the same. -/
theorem headerFields_asOffsets (d : MeshDraft) : d.asOffsets.headerFields = d.headerFields := by
  have hnames : d.asOffsets.componentNames = d.componentNames := by
    rw [componentNames, componentNames, asOffsets, Option.isSome_map]
  rw [headerFields, headerFields, advertisedCount_asOffsets, hnames, shiftRange_asOffsets]
  rfl

theorem records_asOffsets (d : MeshDraft) (t : Corners Nat) :
    d.asOffsets.records t = (d.records t).map VertexRecord.asOffsets := by
  have hget : ∀ i, d.asOffsets.vertices.getD i default =
      VertexRecord.asOffsets (d.vertices.getD i default) := fun i =>
    List.getD_map d.vertices default VertexRecord.asOffsets
  simp only [records, Corners.map, hget]

theorem indexBox_asOffsets (d : MeshDraft) (t : Corners Nat) :
    d.asOffsets.indexBox t = d.indexBox t := by
  rw [indexBox, indexBox, corners, corners, records_asOffsets]
  rfl

/-! ## What is read of it -/

/-- The difference of two heights is read back as the difference of the heights that are read back. -/
theorem given_sub {a b : Float} (ha : a.isFinite = true) (hb : b.isFinite = true) :
    given (some (b - a)) = given (some b) - given (some a) := by
  rw [given_some (Double.rounds_sub hb ha).isNumber, given_some (Double.isNaN_of_isFinite ha),
    given_some (Double.isNaN_of_isFinite hb), Double.kept_sub hb ha]

/-- What is read of a triangle holds the same corrections. -/
theorem storedRow_asOffsets (h : d.Accepted) (hvertical : d.vertical = some .paired)
    (hfinite : d.FiniteHeights) {t : Corners Nat} (ht : t ∈ d.triangles) :
    (d.storedRow (d.records t)).SameCorrections
      (d.asOffsets.storedRow (d.asOffsets.records t)) := by
  have hmem := mem_records (h.corners t ht)
  have hheights := h.heights
  rw [hvertical] at hheights
  have hgiven : ∀ v ∈ (d.records t).toList,
      given (v.value? "target_z") - given (v.value? "source_z") =
        given (v.asOffsets.value? "offset_z") := by
    intro v hv
    obtain ⟨hsource, htarget⟩ := (Bool.and_eq_true _ _).mp (hheights v (hmem v hv))
    obtain ⟨a, ha⟩ := Option.isSome_iff_exists.mp hsource
    obtain ⟨b, hb⟩ := Option.isSome_iff_exists.mp htarget
    have hz := hfinite v (hmem v hv)
    rw [ha, hb] at hz
    have hdifference : v.asOffsets.value? "offset_z" = some (b - a) := by
      simp [VertexRecord.value?, VertexRecord.asOffsets, ha, hb]
    have hheights : v.value? "source_z" = some a ∧ v.value? "target_z" = some b := by
      simp [VertexRecord.value?, ha, hb]
    rw [hheights.1, hheights.2, hdifference, given_sub (hz a (by simp)) (hz b (by simp))]
  rw [records_asOffsets]
  refine ⟨⟨rfl, rfl⟩, ?_⟩
  rw [TriangleRow.offsets?, TriangleRow.offsets?, storedRow, storedRow, asOffsets, hvertical]
  exact congrArg some (Corners.map_congr hgiven)

/-- Two open meshes, one on the container of the draft and one on that of the draft with differences. -/
structure OpenedAlike (d : MeshDraft) (s s' : MeshStore) : Prop where
  horizontal : s.metadata.horizontal = d.horizontal
  vertical : s.metadata.vertical = d.vertical
  /-- What is known about the meshes is the same but for the encoding. -/
  metadata : s'.metadata = s.metadata.asOffsets

/-- They stream rows with the same corrections. -/
theorem OpenedAlike.source {s s' : MeshStore} (hs : d.OpenedAlike s s') (h : d.Accepted)
    (hvertical : d.vertical = some .paired) (hfinite : d.FiniteHeights) :
    (s.source (.database d.database)).SameCorrections
      (s'.source (.database d.asOffsets.database)) where
  metadata := by
    show s.metadata.SearchedAlike s'.metadata
    rw [hs.metadata]
    exact ⟨rfl, rfl, rfl, rfl, rfl⟩
  streams w := by
    have hhorizontal : s'.metadata.horizontal = d.asOffsets.horizontal := by
      rw [hs.metadata]
      exact hs.horizontal
    have hencoding : s'.metadata.vertical = d.asOffsets.vertical := by
      rw [hs.metadata, MeshMetadata.asOffsets, hs.vertical]
      rfl
    show RowStream.Paired _ (s.stream (.database d.database) w)
      (s'.stream (.database d.asOffsets.database) w)
    rw [stream_database h.corners hs.horizontal hs.vertical,
      stream_database (h.asOffsets hvertical).corners hhorizontal hencoding]
    refine ⟨?_, rfl, rfl⟩
    have htriangles : (d.asOffsets.triangles.filter fun t => (d.asOffsets.indexBox t).meets w) =
        d.triangles.filter fun t => (d.indexBox t).meets w := by
      simp only [indexBox_asOffsets]
      rfl
    simp only [htriangles]
    rw [List.forall₂_map_left_iff, List.forall₂_map_right_iff, List.forall₂_same]
    exact fun t ht => storedRow_asOffsets h hvertical hfinite (List.mem_of_mem_filter ht)

/-- The two containers are opened, or refused with the same error. -/
theorem read_asOffsets (h : d.Accepted) (hvertical : d.vertical = some .paired) :
    SameOutcome d.OpenedAlike (MeshStore.read d.database) (MeshStore.read d.asOffsets.database) := by
  have h' := h.asOffsets hvertical
  have hreads : Header.readShift d.asOffsets.headerRead d.asOffsets.horizontal =
      Header.readShift d.headerRead d.horizontal := by
    rw [headerRead, headerRead, headerFields_asOffsets]
    rfl
  have hnumber_iff : d.asOffsets.NumberExtent ↔ d.NumberExtent := by
    rw [NumberExtent, NumberExtent, extent_asOffsets]
  cases hshift : Header.readShift d.headerRead d.horizontal with
  | error e =>
    rw [MeshStore.read, MeshStore.read, header_database, header_database, h.parse_headerText,
      h'.parse_headerText, hreads, hshift]
    exact .error _
  | ok shift =>
    by_cases hnumber : d.NumberExtent
    · rw [h.read_database hnumber hshift,
        h'.read_database (hnumber_iff.mpr hnumber) (hreads.trans hshift)]
      refine .ok ⟨rfl, rfl, ?_⟩
      have hadvertised : h'.advertised = h.advertised := by
        simp only [Accepted.advertised, advertisedCount_asOffsets]
      have hextent : d.asOffsets.keptExtent = d.keptExtent := by
        rw [keptExtent, keptExtent, extent_asOffsets]
      show (h'.header shift).toMetadata d.asOffsets.keptExtent d.asOffsets.vertical = _
      rw [hextent, Accepted.header, hadvertised]
      rfl
    · rw [MeshStore.read, MeshStore.read, header_database, header_database, h.parse_headerText,
        h'.parse_headerText, hreads, hshift, extent_database_of_not_number hnumber,
        extent_database_of_not_number (hnumber_iff.not.mpr hnumber)]
      exact .error _

end MeshDraft

/-! ## Writing and opening -/

namespace Container

/-- Whether a database can be created at a path does not depend on its tables. -/
theorem Disk.create_alike (disk : Disk) (path : String) (db db' : Database) :
    SameOutcome (fun _ _ => True) (disk.create path db) (disk.create path db') := by
  have hsame : ∀ {σ : Type} (x : Except StorageFault σ), SameOutcome Eq x x :=
    fun x => SameOutcome.refl (fun _ => rfl) x
  rw [Disk.create, Disk.create]
  refine (hsame _).bind ?_
  rintro address _ rfl
  cases address.backing with
  | transient => exact SameOutcome.refl (fun _ => trivial) _
  | file name =>
    refine (hsame _).bind ?_
    rintro place _ rfl
    have hput : ∀ found : Database, SameOutcome (fun _ _ => True)
        (if address.readOnly then Except.error StorageFault.readOnly
          else if found ≠ {} then .error (.cannotOpen name)
          else .ok (disk.put place (.database db)))
        (if address.readOnly then Except.error StorageFault.readOnly
          else if found ≠ {} then .error (.cannotOpen name)
          else .ok (disk.put place (.database db'))) := by
      intro found
      split_ifs
      · exact .error _
      · exact .error _
      · exact .ok trivial
    dsimp only
    cases disk.at? place with
    | some content => exact (hsame content.database?).bind fun found _ hfound => hfound ▸ hput found
    | none =>
      dsimp only
      by_cases hcreates : (address.creates && address.permissionsOf.all disk.leadsSomewhere) = true
      · rw [if_pos hcreates, if_pos hcreates]
        exact hput {}
      · rw [if_neg hcreates, if_neg hcreates]
        exact .error _

/-- Writing the draft with differences succeeds, or fails with the same error. -/
theorem Disk.write_asOffsets (disk : Disk) (path : String) {d : MeshDraft}
    (hvertical : d.vertical = some .paired) :
    (disk.write path d.asOffsets).1 = (disk.write path d).1 := by
  rw [Disk.write, Disk.write, MeshDraft.author, MeshDraft.author,
    MeshDraft.validate_asOffsets hvertical]
  cases d.validate with
  | error e => rfl
  | ok u =>
    simp only
    cases disk.remove path with
    | error e => rfl
    | ok cleared =>
      simp only
      rcases (cleared.create_alike path d.database d.asOffsets.database).dest with
        ⟨a, b, ha, hb, -⟩ | ⟨e, ha, hb⟩ <;> rw [ha, hb]

/-- Two open meshes that a caller cannot tell apart as long as their files are as they were written. -/
structure OpenMesh.AnsweredAlike (mesh mesh' : OpenMesh) (path path' : String) (place place' : Place)
    (content content' : Option Content) : Prop where
  /-- What is known about the meshes is the same but for the encoding of heights. -/
  metadata : mesh'.store.metadata = mesh.store.metadata.asOffsets
  /-- Runs of calls on the two meshes, each from an empty cache. -/
  seen : ∀ later later' : Disk, later.at? place = content → later'.at? place' = content' →
    ∀ calls : List (Direction × Coordinate Float),
      (((Handle.ofMesh path mesh).source later).transformAll none calls).map Evaluation.seen =
        (((Handle.ofMesh path' mesh').source later').transformAll none calls).map Evaluation.seen

/-- **The two encodings of heights agree.**  On every source, in any arithmetic, a run of calls from an
empty cache gives the same answers and the same queries if each pair of heights is replaced by its
difference.  A draft with finite heights in pairs is accepted and written like the draft with their
differences, and what was written of the two is refused with one error, or opened as two meshes that
a caller cannot tell apart. -/
theorem encodings_agree :
    (∀ {β α : Type} [Scalar α] [StoredPoint β α] (s : TriangleSource β α)
      (calls : List (Direction × Coordinate α)),
      (s.transformAll none calls).map Evaluation.seen =
        (s.asOffsets.transformAll none calls).map Evaluation.seen) ∧
    ∀ d : MeshDraft, d.vertical = some .paired → d.FiniteHeights →
      (∀ (disk : Disk) (path : String), (disk.write path d.asOffsets).1 = (disk.write path d).1) ∧
      ∀ {disk disk' written written' : Disk} {path path' : String} {place place' : Place}
        (options options' : OpenOptions), PlainPath path → PlainPath path' →
        disk.resolve path = .ok place → disk'.resolve path' = .ok place' →
        disk.write path d = (.ok (), written) → disk'.write path' d.asOffsets = (.ok (), written') →
        SameOutcome (fun mesh mesh' => mesh.AnsweredAlike mesh' path path' place place'
            (written.at? place) (written'.at? place'))
          (openMesh written options path) (openMesh written' options' path') := by
  refine ⟨fun s calls => s.asOffsets_seen calls, fun d hvertical hfinite =>
    ⟨fun disk path => disk.write_asOffsets path hvertical, ?_⟩⟩
  intro disk disk' written written' path path' place place' options options' hplain hplain' hplace hplace'
    hwrite hwrite'
  obtain ⟨h, hresolve, hfile⟩ := Disk.write_spec hplain hplace hwrite
  obtain ⟨-, hresolve', hfile'⟩ := Disk.write_spec hplain' hplace' hwrite'
  rw [Disk.openMesh_written options hplain hresolve hfile,
    Disk.openMesh_written options' hplain' hresolve' hfile', hfile, hfile']
  refine (MeshDraft.read_asOffsets h hvertical).map fun store store' halike => ⟨halike.metadata, ?_⟩
  intro later later' hlater hlater' calls
  rw [Handle.source_ofMesh hplace rfl hlater, Handle.source_ofMesh hplace' rfl hlater']
  exact (halike.source h hvertical hfinite).seen calls

/-- The disk with the strip, and the disk with the strip whose heights are differences. -/
def stripDisk : Disk := (Disk.write {} meshPath stripDraft).2

def stripOffsetDisk : Disk := (Disk.write {} meshPath stripDraft.asOffsets).2

theorem eq_ok_of_toOption {ε α : Type} {x : Except ε α} {a : α} (h : x.toOption = some a) :
    x = .ok a := by
  cases x with
  | error e => cases h
  | ok b =>
    injection h with h
    rw [h]

/-- A point that lies in the first triangle of the strip. -/
def stripCoordinate : Coordinate Float := ⟨0.25, 0.05, 5⟩

theorem strip_transform :
    ∃ mesh, openMesh stripDisk {} meshPath = .ok mesh ∧
      mesh.store.metadata.vertical = some .paired ∧
      (((Handle.ofMesh meshPath mesh).source stripDisk).transform none .forward
        stripCoordinate).answer = .ok (some ⟨1.4375, 2, 7.25⟩) := by
  have hanswer : ((openMesh stripDisk {} meshPath).toOption.map fun mesh =>
      (mesh.store.metadata.vertical, (((Handle.ofMesh meshPath mesh).source stripDisk).transform none
        .forward stripCoordinate).answer.toOption)) =
      some (some .paired, some (some ⟨1.4375, 2, 7.25⟩)) := by decide +kernel
  obtain ⟨mesh, hmesh, htransform⟩ := Option.map_eq_some_iff.mp hanswer
  obtain ⟨hvertical, hcoordinate⟩ := Prod.mk.inj htransform
  exact ⟨mesh, eq_ok_of_toOption hmesh, hvertical, eq_ok_of_toOption hcoordinate⟩

/-- The strip with differences for heights is written and opened too, and answers with the same
coordinate. -/
theorem strip_encodings_agree :
    stripDraft.vertical = some .paired ∧ stripDraft.FiniteHeights ∧
      Disk.write {} meshPath stripDraft.asOffsets = (.ok (), stripOffsetDisk) ∧
      ∃ mesh', openMesh stripOffsetDisk {} meshPath = .ok mesh' ∧
        mesh'.store.metadata.vertical = some .offset ∧
        (((Handle.ofMesh meshPath mesh').source stripOffsetDisk).transform none .forward
          stripCoordinate).answer = .ok (some ⟨1.4375, 2, 7.25⟩) := by
  have hfinite : stripDraft.FiniteHeights := by decide +kernel
  have hwrite : Disk.write {} meshPath stripDraft = (.ok (), stripDisk) :=
    Disk.write_of_isSome (by decide +kernel)
  obtain ⟨hwrites, hopens⟩ := encodings_agree.2 stripDraft rfl hfinite
  have hwrite' : Disk.write {} meshPath stripDraft.asOffsets = (.ok (), stripOffsetDisk) :=
    Disk.write_of_isSome (by rw [hwrites, hwrite]; rfl)
  obtain ⟨mesh, hmesh, hvertical, hanswer⟩ := strip_transform
  have hopened := hopens {} {} plainPath_meshPath plainPath_meshPath resolve_meshPath resolve_meshPath
    hwrite hwrite'
  rw [hmesh] at hopened
  rcases hopened.dest with ⟨_, mesh', hsame, hmesh', halike⟩ | ⟨e, he, -⟩
  · injection hsame with hsame
    subst hsame
    refine ⟨rfl, hfinite, hwrite', mesh', hmesh', ?_, ?_⟩
    · rw [halike.metadata, MeshMetadata.asOffsets, hvertical]
      rfl
    · have hseen := halike.seen stripDisk stripOffsetDisk rfl rfl [(.forward, stripCoordinate)]
      simp only [TriangleSource.transformAll, List.map_cons, List.map_nil, List.cons.injEq,
        and_true] at hseen
      rw [← hanswer]
      exact (congrArg Prod.fst hseen).symm
  · cases he

end Container

end ShiftMesh
