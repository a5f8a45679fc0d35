import ShiftMesh.Proofs.Double.Arithmetic
import ShiftMesh.Proofs.Header
import ShiftMesh.Container.Store

/-!
# ShiftMesh.Proofs.Container.Written — what opening reads in a written container

* `Container.MeshStore.ReadEnds`: the ways in which opening a database ends; `read_ends` says that there
  is no other.
* `kept`: a double after it was stored in a column of doubles.
* `header_database`, `extent_database`, `schema_database`, `prepare_database`: the readings that
  opening makes, on the container of a draft.
* `read_database`: the container of an accepted draft is opened exactly if the draft's extent has no
  bound that is no number, and the shift bounds of a horizontal draft are finite.
-/

namespace ShiftMesh

open Container

/-! ## Opening a database -/

/-- The ways in which opening a database ends: one of its readings fails after those before it have
succeeded, or all of them succeed. -/
inductive Container.MeshStore.ReadEnds (db : Database) : Except MeshError MeshStore → Prop
  | header {fault} (hheader : db.header = .error fault) : ReadEnds db (.error (.metadata fault))
  | extent {h fault} (hheader : db.header = .ok h) (hextent : db.extent = .error fault) :
      ReadEnds db (.error (.metadata fault))
  | schema {h extent fault} (hheader : db.header = .ok h) (hextent : db.extent = .ok extent)
      (hschema : db.schema = .error fault) : ReadEnds db (.error (.schema fault))
  | columns {h extent schema fault} (hheader : db.header = .ok h) (hextent : db.extent = .ok extent)
      (hschema : db.schema = .ok schema) (hcolumns : schema.validate h = .error fault) :
      ReadEnds db (.error (.schema fault))
  | query {h extent schema vertical fault} (hheader : db.header = .ok h)
      (hextent : db.extent = .ok extent) (hschema : db.schema = .ok schema)
      (hcolumns : schema.validate h = .ok vertical)
      (hquery : (db.meshTables.bind fun tables =>
        tables.vertices.prepare (requestedColumns (h.toMetadata extent vertical))) = .error fault) :
      ReadEnds db (.error (.queryPreparation fault))
  | opened {h extent schema vertical q} (hheader : db.header = .ok h)
      (hextent : db.extent = .ok extent) (hschema : db.schema = .ok schema)
      (hcolumns : schema.validate h = .ok vertical)
      (hquery : (db.meshTables.bind fun tables =>
        tables.vertices.prepare (requestedColumns (h.toMetadata extent vertical))) = .ok q) :
      ReadEnds db (.ok ⟨h.toMetadata extent vertical, schema⟩)

theorem Container.MeshStore.read_ends (db : Database) : ReadEnds db (read db) := by
  unfold read
  cases hheader : db.header with
  | error fault => exact .header hheader
  | ok h =>
    dsimp only
    cases hextent : db.extent with
    | error fault => exact .extent hheader hextent
    | ok extent =>
      dsimp only
      cases hschema : db.schema with
      | error fault => exact .schema hheader hextent hschema
      | ok schema =>
        dsimp only
        cases hcolumns : schema.validate h with
        | error fault => exact .columns hheader hextent hschema hcolumns
        | ok vertical =>
          dsimp only
          cases hquery : db.meshTables.bind fun tables =>
              tables.vertices.prepare (requestedColumns (h.toMetadata extent vertical)) with
          | error fault => exact .query hheader hextent hschema hcolumns hquery
          | ok q => exact .opened hheader hextent hschema hcolumns hquery

/-! ## Stored doubles -/

/-- A number after it was stored in a column of doubles: zero has lost its sign. -/
def kept (x : Float) : Float := if x == 0.0 then 0.0 else x

/-- What is read of a double in a column of doubles: nothing if it is no number. -/
def stored (x : Float) : Option Float := if x.isNaN then none else some (kept x)

theorem toFloat?_stored (column : String) (x : Float) :
    ((Cell.ofFloat x).inColumn "DOUBLE").toFloat? column =
      .ok (stored x) := by
  have hcolumn : ∀ c : Cell, c.inColumn "DOUBLE" = c.preferReal := fun c => by
    rw [Cell.inColumn, if_pos rfl]
  rw [hcolumn, Cell.ofFloat, stored, kept]
  by_cases hnan : x.isNaN = true
  · rw [if_pos hnan, if_pos hnan]
    rfl
  · rw [if_neg hnan, if_neg hnan]
    by_cases hzero : (x == 0.0) = true
    · rw [Cell.preferReal, Cell.toReal, if_pos hzero, if_pos hzero]
      rfl
    · rw [Cell.preferReal, Cell.toReal, if_neg hzero, if_neg hzero, Cell.ofFloat, if_neg hnan]
      rfl

namespace Double

/-- A stored number keeps its value. -/
theorem value_kept {x : Float} (h : x.isNaN = false) :
    (kept x).isNaN = false ∧ value (kept x) = value x := by
  rw [kept]
  split_ifs with heq
  · exact ⟨zero_number.1, ((beq_iff h zero_number.1).mp heq).symm⟩
  · exact ⟨h, rfl⟩

theorem kept_lt_kept {x y : Float} (hx : x.isNaN = false) (hy : y.isNaN = false) :
    kept x < kept y ↔ x < y := by
  obtain ⟨hx', hxv⟩ := value_kept hx
  obtain ⟨hy', hyv⟩ := value_kept hy
  rw [lt_iff hx' hy', lt_iff hx hy, hxv, hyv]

end Double

namespace MeshDraft

variable (d : MeshDraft)

/-! ## The readings of opening -/

theorem header_database : d.database.header = Header.parse d.headerText := rfl

/-- The bounds that are listed for the vertices. -/
theorem listedBounds_database : d.database.listedBounds =
    .ok [[stored d.extent.min.x, stored d.extent.min.y, stored d.extent.max.x,
      stored d.extent.max.y]] := by
  have hbounds : Database.bounds d.contentsEntry =
      .ok [stored d.extent.min.x, stored d.extent.min.y, stored d.extent.max.x,
        stored d.extent.max.y] := by
    simp only [Database.bounds, contentsEntry, List.mapM_cons, List.mapM_nil, toFloat?_stored]
    rfl
  change (do
    let b ← Database.bounds d.contentsEntry
    pure [b]) = _
  rw [hbounds]
  rfl

/-- No bound of the extent is without a number. -/
def NumberExtent : Prop :=
  (d.extent.min.x.isNaN = false ∧ d.extent.min.y.isNaN = false) ∧
    d.extent.max.x.isNaN = false ∧ d.extent.max.y.isNaN = false

variable {d}

/-- The extent after it was stored. -/
def keptExtent (d : MeshDraft) : Extent Float :=
  ⟨⟨kept d.extent.min.x, kept d.extent.min.y⟩, ⟨kept d.extent.max.x, kept d.extent.max.y⟩⟩

theorem extent_database (hnumber : d.NumberExtent) (hflat : isFlat d.extent = false) :
    d.database.extent = .ok d.keptExtent := by
  obtain ⟨⟨hminx, hminy⟩, hmaxx, hmaxy⟩ := hnumber
  have hx : d.extent.min.x < d.extent.max.x := by
    rw [isFlat, Bool.or_eq_false_iff] at hflat
    exact Double.lt_of_not_le hminx hmaxx (of_decide_eq_false hflat.1)
  have hy : d.extent.min.y < d.extent.max.y := by
    rw [isFlat, Bool.or_eq_false_iff] at hflat
    exact Double.lt_of_not_le hminy hmaxy (of_decide_eq_false hflat.2)
  have hproper : d.keptExtent.isProper = true := by
    rw [Extent.isProper, Bool.and_eq_true]
    exact ⟨decide_eq_true ((Double.kept_lt_kept hminx hmaxx).mpr hx),
      decide_eq_true ((Double.kept_lt_kept hminy hmaxy).mpr hy)⟩
  have hstored : ∀ {x : Float}, x.isNaN = false → stored x = some (kept x) := fun h => by
    rw [stored, h]
    rfl
  rw [Database.extent, listedBounds_database, hstored hminx, hstored hminy, hstored hmaxx,
    hstored hmaxy]
  exact if_pos hproper

theorem extent_database_of_not_number (hnumber : ¬ d.NumberExtent) :
    d.database.extent = .error .noSingleExtent := by
  have hstored : ∀ {x : Float} {y : Float}, stored x = some y → x.isNaN = false := by
    intro x y h
    rw [stored] at h
    split_ifs at h with hnan
    exact Bool.eq_false_iff.mpr hnan
  rw [Database.extent, listedBounds_database]
  split
  case h_1 heq => cases heq
  case h_2 heq =>
    injection heq with heq
    simp only [List.cons.injEq, and_true] at heq
    obtain ⟨hminx, hminy, hmaxx, hmaxy⟩ := heq
    exact absurd ⟨⟨hstored hminx, hstored hminy⟩, hstored hmaxx, hstored hmaxy⟩ hnumber
  case h_3 => rfl

/-- The key and the positions are no known correction columns. -/
theorem schema_database : d.database.schema = .ok (.ofColumns d.columns) := by
  have hcolumns : d.database.vertexColumns =
      VertexTable.keyColumn :: VertexTable.geometryColumn :: d.columns := by
    change VertexTable.keyColumn :: VertexTable.geometryColumn ::
      (d.columns.map fun c => (⟨c, "DOUBLE"⟩ : Column)).map (·.name) = _
    rw [List.map_map]
    exact congrArg (fun cs => _ :: _ :: cs) (List.map_id _)
  rw [Database.schema, hcolumns]
  simp [VertexSchema.ofColumns, VertexTable.keyColumn, VertexTable.geometryColumn]

/-- The positions stand first among the columns of the vertices, and the correction columns after
them. -/
theorem prepare_database (d : MeshDraft) :
    d.vertexTable.prepare d.columns = .ok ⟨0, List.range' 1 d.columns.length⟩ := by
  have htable : ∀ (rows : List VertexEntry) (horizontal : Bool) (vertical : Option VerticalEncoding),
      VertexTable.prepare
        ⟨⟨VertexTable.geometryColumn, "POINT"⟩ ::
          (valueColumns horizontal vertical).map (fun c => ⟨c, "DOUBLE"⟩), rows⟩
        (valueColumns horizontal vertical) =
      .ok ⟨0, List.range' 1 (valueColumns horizontal vertical).length⟩ := by
    intro rows horizontal vertical
    cases horizontal <;> rcases vertical with _ | (_ | _) <;> rfl
  exact htable d.vertexTable.rows d.horizontal d.vertical

theorem meshTables_database (d : MeshDraft) : d.database.meshTables =
    .ok ⟨d.vertexTable, triangleEntries 1 d.triangles, indexEntries d.vertices.toArray 1 d.triangles⟩ :=
  rfl

/-! ## Opening -/

/-- What is known about the mesh of an accepted draft once it is open, with a shift range. -/
def Accepted.metadata (h : d.Accepted) (shift : ShiftRange Float) : MeshMetadata Float :=
  (h.header shift).toMetadata d.keptExtent d.vertical

/-- Opening the container of an accepted draft with numbers for bounds needs only the shift range. -/
theorem Accepted.read_database (h : d.Accepted) (hnumber : d.NumberExtent) {shift : ShiftRange Float}
    (hshift : Header.readShift d.headerRead d.horizontal = .ok shift) :
    MeshStore.read d.database = .ok ⟨h.metadata shift, .ofColumns d.columns⟩ := by
  have hheader : d.database.header = .ok (h.header shift) := by
    rw [header_database, h.parse_headerText, hshift]
    rfl
  have hschema : (VertexSchema.ofColumns d.columns).validate (h.header shift) = .ok d.vertical :=
    validate_valueColumns (h := h.header shift) rfl
  have hprepare : d.database.meshTables.bind (fun tables =>
      tables.vertices.prepare (requestedColumns (h.metadata shift))) =
        .ok ⟨0, List.range' 1 d.columns.length⟩ := d.prepare_database
  rw [MeshStore.read, hheader, extent_database hnumber h.extent, schema_database]
  simp only [hschema]
  rw [Accepted.metadata] at hprepare
  rw [hprepare]
  rfl

/-- The container of an accepted draft is opened exactly if each bound of the extent is a number and
the shift bounds of a horizontal draft are finite. -/
theorem Accepted.read_database_iff (h : d.Accepted) : (∃ s, MeshStore.read d.database = .ok s) ↔
    d.NumberExtent ∧ (d.horizontal = true → d.FiniteShift) := by
  rw [← readShift_eq_ok_iff]
  constructor
  · rintro ⟨s, hs⟩
    rw [MeshStore.read, header_database, h.parse_headerText] at hs
    cases hshift : Header.readShift d.headerRead d.horizontal with
    | error e =>
      rw [hshift] at hs
      cases hs
    | ok shift =>
      refine ⟨?_, shift, rfl⟩
      by_contra hnumber
      rw [hshift, extent_database_of_not_number hnumber] at hs
      cases hs
  · rintro ⟨hnumber, shift, hshift⟩
    exact ⟨_, h.read_database hnumber hshift⟩

end MeshDraft

end ShiftMesh
