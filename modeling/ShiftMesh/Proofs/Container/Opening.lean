import ShiftMesh.Container.Access
import ShiftMesh.Proofs.Container.Written

/-!
# ShiftMesh.Proofs.Container.Opening — which written containers can be opened

* `Disk.walk_put`: a file that is put at a place leaves the ways to it as they were.
* `write_spec`: after a successful write the container of the draft stands where the path leads.
* `written_opens_iff`: a written container is opened exactly if each bound of the draft's extent is a
  number and the shift bounds of a horizontal draft are finite.
* `accepted_but_closed`: two drafts that are accepted and written, and cannot be opened: one with a
  vertex that has no first coordinate, and one with finite positions whose shift overflows.
* `meshDisk`: a disk with one file, for examples.
-/

namespace ShiftMesh.Container

/-! ## Files on a disk -/

namespace Disk

variable {disk : Disk} {place here : Place} {content : Content}

theorem at?_put_self : (disk.put place content).at? place = some content := by
  rw [at?, put, List.find?_cons_of_pos (by simp)]
  rfl

theorem find?_filter_ne (files : List (Place × Content)) (h : here ≠ place) :
    (files.filter fun f => f.1 ≠ place).find? (fun f => f.1 = here) =
      files.find? fun f => f.1 = here := by
  rw [List.find?_filter]
  congr 1
  funext f
  by_cases heq : f.1 = here
  · simp [heq, h]
  · simp [heq]

theorem at?_clear_of_ne (h : here ≠ place) : (disk.clear place).at? here = disk.at? here := by
  rw [at?, at?, clear, find?_filter_ne disk.files h]

theorem at?_put_of_ne (h : here ≠ place) :
    (disk.put place content).at? here = disk.at? here := by
  have hne : ¬ place = here := fun heq => h heq.symm
  rw [at?, at?, put, List.find?_cons_of_neg (by simpa using hne), find?_filter_ne disk.files h]

/-- A disk with the same directories, and the same files at all places but one. -/
structure Besides (disk disk' : Disk) (place : Place) : Prop where
  isDirectory_eq : ∀ here, disk'.isDirectory here = disk.isDirectory here
  at?_eq : ∀ here, here ≠ place → disk'.at? here = disk.at? here

theorem besides_replaced (disk : Disk) (place : Place) (content : Content) :
    Besides disk ((disk.clear place).put place content) place where
  isDirectory_eq _ := rfl
  at?_eq here h := by rw [at?_put_of_ne h, at?_clear_of_ne h]

/-- A walk leads to the place that the parts name by their words. -/
theorem walk_eq {parts : List String} (h : disk.walk here parts = .ok place) :
    parts.foldl Place.enter here = place := by
  induction parts generalizing here with
  | nil => exact Except.ok.inj h
  | cons part rest ih =>
    rw [walk] at h
    split_ifs at h
    exact ih h

/-- A walk to a place that is no directory does not depend on the file there. -/
theorem Besides.walk {disk' : Disk} (hb : Besides disk disk' place)
    (hplace : disk.isDirectory place = false) {parts : List String}
    (h : disk.walk here parts = .ok place) : disk'.walk here parts = .ok place := by
  induction parts generalizing here with
  | nil => exact h
  | cons part rest ih =>
    rw [Disk.walk] at h ⊢
    split_ifs at h with hfile hdirectory hname
    have hne : here ≠ place := by
      intro heq
      rw [heq, hplace] at hdirectory
      exact hdirectory rfl
    rw [hb.at?_eq here hne, hb.isDirectory_eq, if_neg hfile, if_neg hdirectory, if_neg hname]
    exact ih h

theorem Besides.resolve {disk' : Disk} {path : String} (hb : Besides disk disk' place)
    (hplace : disk.isDirectory place = false) (h : disk.resolve path = .ok place) :
    disk'.resolve path = .ok place := by
  rw [Disk.resolve] at h ⊢
  split_ifs at h ⊢
  exact hb.walk hplace h

theorem resolve_eq {path : String} (h : disk.resolve path = .ok place) :
    (Path.ofString path).place = place := by
  rw [resolve] at h
  split_ifs at h
  exact walk_eq h

end Disk

/-! ## Plain paths -/

/-- A path that names a file as it stands: no URI, no web address, and not the name of a database in
memory. -/
structure PlainPath (path : String) : Prop where
  no_scheme : Address.scheme.isPrefixOf path.toList = false
  no_web_address : isWebAddress path = false
  ne_memory : path ≠ Address.memoryPath

theorem PlainPath.address {path : String} (h : PlainPath path) (hne : path ≠ "") :
    Address.ofString path = .ok { backing := .file path } := by
  have hempty : path.isEmpty = false := by
    rw [Bool.eq_false_iff]
    exact fun heq => hne (String.isEmpty_iff.mp heq)
  rw [Address.ofString, h.no_scheme]
  simp [Address.ofParts, h.ne_memory, hempty, Address.fileLayers,
    Address.memoryLayer, bind, Except.bind, pure, Except.pure]

namespace Disk

variable {disk disk' : Disk} {path : String} {place : Place} {d : MeshDraft}

/-- A database that is created at a plain path stands at the place that the path names. -/
theorem create_eq (hplain : PlainPath path) (hne : path ≠ "") {db : Database}
    (h : disk.create path db = .ok disk') :
    disk' = disk.put (Path.ofString path).place (.database db) := by
  have hplace : ∀ {place}, disk.databasePlace path = .ok place → place = (Path.ofString path).place := by
    intro place h
    unfold databasePlace at h
    dsimp only at h
    split_ifs at h
    exact (Except.ok.inj h).symm
  rw [create, hplain.address hne] at h
  simp only [bind, Except.bind] at h
  cases hp : disk.databasePlace path with
  | error e =>
    rw [hp] at h
    cases h
  | ok place =>
    rw [← hplace hp]
    simp only [hp, Bool.false_eq_true, if_false] at h
    -- whatever was found at the place, nothing but the database is put there
    split at h
    · split at h
      · cases h
      · split_ifs at h
        exact (Except.ok.inj h).symm
    · split_ifs at h
      exact (Except.ok.inj h).symm

/-- After a successful write the draft was accepted, and its container stands where the path
leads. -/
theorem write_spec (hplain : PlainPath path) (hplace : disk.resolve path = .ok place)
    (hwrite : disk.write path d = (.ok (), disk')) :
    d.Accepted ∧ disk'.resolve path = .ok place ∧ disk'.at? place = some (.database d.database) := by
  have hne : path ≠ "" := by
    rintro rfl
    cases hplace
  rw [write, MeshDraft.author] at hwrite
  cases hvalid : d.validate with
  | error e =>
    rw [hvalid] at hwrite
    cases hwrite
  | ok u =>
    rw [hvalid, remove, hplace] at hwrite
    by_cases hdirectory : disk.isDirectory place = true
    · simp only [if_pos hdirectory] at hwrite
      cases hwrite
    · have hfile := Bool.eq_false_iff.mpr hdirectory
      simp only [if_neg hdirectory] at hwrite
      cases hcreate : (disk.clear place).create path d.database with
      | error e =>
        rw [hcreate] at hwrite
        cases hwrite
      | ok written =>
        rw [hcreate] at hwrite
        cases hwrite
        rw [create_eq hplain hne hcreate, resolve_eq hplace]
        exact ⟨MeshDraft.validate_eq_ok.mp hvalid,
          (besides_replaced disk place _).resolve hfile hplace, at?_put_self⟩

/-- A file at a plain path is reached, whatever stands in it. -/
theorem reach_eq (options : OpenOptions) (hplain : PlainPath path) (hresolve : disk.resolve path = .ok place)
    {content : Content} (hfile : disk.at? place = some content) :
    reach disk options path [] AccessPath.order = .ok (.localFile, content) := by
  have hread : disk.file? path = some content := by
    rw [file?, hresolve]
    exact hfile
  rw [AccessPath.order, reach, AccessPath.attempt, hplain.no_web_address, hread]
  rfl

/-- Opening the path of a written container reads the container. -/
theorem openMesh_written (options : OpenOptions) (hplain : PlainPath path)
    (hresolve : disk.resolve path = .ok place) {db : Database}
    (hfile : disk.at? place = some (.database db)) :
    openMesh disk options path =
      (MeshStore.read db).map fun store => ⟨.localFile, .database db, store⟩ := by
  rw [openMesh, reach_eq options hplain hresolve hfile]
  rfl

theorem exists_openMesh_iff (options : OpenOptions) (hplain : PlainPath path)
    (hresolve : disk.resolve path = .ok place) {db : Database}
    (hfile : disk.at? place = some (.database db)) :
    (∃ mesh, openMesh disk options path = .ok mesh) ↔ ∃ store, MeshStore.read db = .ok store := by
  rw [openMesh_written options hplain hresolve hfile]
  cases MeshStore.read db with
  | error e => exact ⟨fun ⟨_, h⟩ => (nomatch h), fun ⟨_, h⟩ => (nomatch h)⟩
  | ok store => exact ⟨fun _ => ⟨store, rfl⟩, fun _ => ⟨_, rfl⟩⟩

end Disk

/-! ## Opening what was written -/

/-- A container that was written to a plain path is opened exactly if each bound of the draft's extent
is a number and the shift bounds of a horizontal draft are finite. -/
theorem written_opens_iff {disk disk' : Disk} {path : String} {place : Place} {d : MeshDraft}
    (options : OpenOptions) (hplain : PlainPath path) (hplace : disk.resolve path = .ok place)
    (hwrite : disk.write path d = (.ok (), disk')) :
    (∃ mesh, openMesh disk' options path = .ok mesh) ↔
      d.NumberExtent ∧ (d.horizontal = true → d.FiniteShift) := by
  obtain ⟨hd, hresolve, hfile⟩ := Disk.write_spec hplain hplace hwrite
  rw [Disk.exists_openMesh_iff options hplain hresolve hfile, hd.read_database_iff]

/-- Where the meshes of the examples are written. -/
def meshPath : String := "mesh.gpkg"

theorem plainPath_meshPath : PlainPath meshPath :=
  ⟨by decide +kernel, by decide +kernel, by decide +kernel⟩

theorem resolve_meshPath : Disk.resolve {} meshPath = .ok ⟨.working 0, [meshPath]⟩ := rfl

/-- Writing answers with the disk afterwards. -/
theorem Disk.write_of_isSome {disk : Disk} {path : String} {d : MeshDraft}
    (h : (disk.write path d).1.toOption.isSome = true) :
    disk.write path d = (.ok (), (disk.write path d).2) := by
  generalize disk.write path d = result at h ⊢
  obtain ⟨answer, disk'⟩ := result
  cases answer with
  | error e => cases h
  | ok u => rfl

theorem quotedDraft_numberExtent : quotedDraft.NumberExtent := by
  unfold MeshDraft.NumberExtent
  decide +kernel

theorem quoted_written_opens :
    (quotedDraft.NumberExtent ∧ quotedDraft.FiniteShift) ∧ PlainPath meshPath ∧
      ∃ place disk', Disk.resolve {} meshPath = .ok place ∧
        Disk.write {} meshPath quotedDraft = (.ok (), disk') ∧
        ∃ mesh, openMesh disk' {} meshPath = .ok mesh := by
  have hwrite : Disk.write {} meshPath quotedDraft =
      (.ok (), (Disk.write {} meshPath quotedDraft).2) := Disk.write_of_isSome (by decide +kernel)
  exact ⟨⟨quotedDraft_numberExtent, quotedDraft_finiteShift⟩, plainPath_meshPath, _, _, resolve_meshPath,
    hwrite, (written_opens_iff {} plainPath_meshPath resolve_meshPath hwrite).mpr
      ⟨quotedDraft_numberExtent, fun _ => quotedDraft_finiteShift⟩⟩

/-- A mesh whose last vertex has no first coordinate; no triangle uses it. -/
def strayDraft : MeshDraft where
  vertices :=
    [⟨⟨0, 0⟩, none, none, none, some 1⟩,
      ⟨⟨0x3FF0000000000000, 0⟩, none, none, none, some 1⟩,
      ⟨⟨0, 0x3FF0000000000000⟩, none, none, none, some 1⟩,
      ⟨⟨0x7FF8000000000000, 0⟩, none, none, none, some 1⟩]
  triangles := [⟨0, 1, 2⟩]
  vertical := some .offset

/-- A mesh with finite positions whose shift at one vertex is beyond the largest double. -/
def overflowDraft : MeshDraft where
  vertices :=
    [⟨⟨0, 0⟩, some ⟨0, 0⟩, none, none, none⟩,
      ⟨⟨0x3FF0000000000000, 0⟩, some ⟨1, 0⟩, none, none, none⟩,
      ⟨⟨0xFFE1CCF385EBC8A0, 0x3FF0000000000000⟩, some ⟨1e308, 1⟩, none, none, none⟩]
  triangles := [⟨0, 1, 2⟩]
  horizontal := true

theorem accepted_but_closed :
    (strayDraft.validate = .ok () ∧ ∃ disk', Disk.write {} meshPath strayDraft = (.ok (), disk') ∧
        ¬ ∃ mesh, openMesh disk' {} meshPath = .ok mesh) ∧
      overflowDraft.validate = .ok () ∧
      ∃ disk', Disk.write {} meshPath overflowDraft = (.ok (), disk') ∧
        ¬ ∃ mesh, openMesh disk' {} meshPath = .ok mesh := by
  have hclosed : ∀ d : MeshDraft, (Disk.write {} meshPath d).1.toOption.isSome = true →
      ¬ (d.NumberExtent ∧ (d.horizontal = true → d.FiniteShift)) →
      d.validate = .ok () ∧ ∃ disk', Disk.write {} meshPath d = (.ok (), disk') ∧
        ¬ ∃ mesh, openMesh disk' {} meshPath = .ok mesh := by
    intro d hsome hfault
    have hwrite := Disk.write_of_isSome hsome
    obtain ⟨hd, hresolve, hfile⟩ := Disk.write_spec plainPath_meshPath resolve_meshPath hwrite
    refine ⟨MeshDraft.validate_eq_ok.mpr hd, _, hwrite, ?_⟩
    rwa [Disk.exists_openMesh_iff {} plainPath_meshPath hresolve hfile, hd.read_database_iff]
  refine ⟨hclosed strayDraft (by decide +kernel) fun h => ?_,
    hclosed overflowDraft (by decide +kernel) fun h => ?_⟩
  · have hbound : strayDraft.extent.min.x.isNaN = true := by decide +kernel
    rw [h.1.1.1] at hbound
    cases hbound
  · have hbound : overflowDraft.shiftRange.max.x.isFinite = false := by decide +kernel
    rw [(h.2 rfl).2.1] at hbound
    cases hbound

/-! ## A disk with one file -/

/-- The disk with one file, at the path of the examples. -/
def meshDisk (content : Content) : Disk where
  files := [(⟨.working 0, [meshPath]⟩, content)]

theorem reach_meshDisk (options : OpenOptions) (content : Content) :
    reach (meshDisk content) options meshPath [] AccessPath.order = .ok (.localFile, content) :=
  Disk.reach_eq options plainPath_meshPath rfl rfl

/-- The disk with the container of the quoted mesh. -/
def quotedDisk : Disk := meshDisk (.database quotedDraft.database)

theorem quotedDisk_opens (options : OpenOptions) :
    ∃ mesh, openMesh quotedDisk options meshPath = .ok mesh := by
  have haccepted : quotedDraft.Accepted := MeshDraft.validate_eq_ok.mp (by decide +kernel)
  exact (Disk.exists_openMesh_iff options plainPath_meshPath rfl rfl).mpr
    (haccepted.read_database_iff.mpr ⟨quotedDraft_numberExtent, fun _ => quotedDraft_finiteShift⟩)

end ShiftMesh.Container
