import ShiftMesh.Proofs.Acceptance
import ShiftMesh.Proofs.Double.Absorption
import ShiftMesh.Proofs.Container.Cells
import ShiftMesh.Proofs.Container.Opening

/-!
# ShiftMesh.Proofs.Container.Gate — which databases open, and what holds once one is open

* `Gate`: what opening asks of a database, in order; `Gate.Met` says it of the tables alone.
* `header_eq_ok_iff`, `extent_eq_ok_iff`, `schema_eq_ok_iff`, `exists_query_iff`: each reading of opening
  succeeds exactly on such tables; `Header.ServedBy` are the columns that pass the validation.
* `MeshStore.read_eq_ok`, `MeshStore.read_eq_error`: what a success and what a failure of opening says.
* `MeshStore.Established`: what holds of an open mesh.
* `opening_gate`: opening succeeds exactly if every gate is met, fails with the kind of error of the first
  unmet one, and establishes what the lookups rely on.
-/

namespace ShiftMesh

open Container

/-! ## The columns that a header requires -/

/-- The columns that the components of a header require are among these. -/
structure Header.ServedBy (h : Header) (names : List String) : Prop where
  horizontal : h.horizontal = true → "target_x" ∈ names ∧ "target_y" ∈ names
  vertical : h.vertical = true → ("source_z" ∈ names ∧ "target_z" ∈ names) ∨ "offset_z" ∈ names

section Columns

variable {names : List String} {h : Header}

theorem Header.ServedBy.mono {names' : List String} (hserved : h.ServedBy names) (hsub : names ⊆ names') :
    h.ServedBy names' where
  horizontal hh := (hserved.horizontal hh).imp (@hsub _) (@hsub _)
  vertical hh := (hserved.vertical hh).imp (.imp (@hsub _) (@hsub _)) (@hsub _)

/-- The value columns of the components. -/
theorem valueColumns_subset {horizontal : Bool} {vertical : Option VerticalEncoding}
    (hhorizontal : horizontal = true → "target_x" ∈ names ∧ "target_y" ∈ names)
    (hvertical : ∀ c ∈ valueColumns false vertical, c ∈ names) :
    ∀ c ∈ valueColumns horizontal vertical, c ∈ names := by
  intro c hc
  rcases List.mem_append.mp hc with hc | hc
  · cases horizontal with
    | false => cases hc
    | true =>
      obtain ⟨hx, hy⟩ := hhorizontal rfl
      rcases List.mem_cons.mp hc with rfl | hc
      · exact hx
      · rwa [List.mem_singleton.mp hc]
  · exact hvertical c hc

/-- If the columns are accepted, they serve the header.  The encoding is that of a vertical header, and
the requested columns are among the names. -/
theorem VertexSchema.validate_eq_ok {vertical : Option VerticalEncoding}
    (hv : (VertexSchema.ofColumns names).validate h = .ok vertical) :
    h.ServedBy names ∧ vertical.isSome = h.vertical ∧
      ∀ c ∈ valueColumns h.horizontal vertical, c ∈ names := by
  unfold VertexSchema.validate at hv
  have hhorizontal : h.horizontal = true → "target_x" ∈ names ∧ "target_y" ∈ names := by
    intro hh
    split_ifs at hv <;> simp_all [VertexSchema.ofColumns]
  split_ifs at hv with hx hy hlevel hpaired hoffset <;> cases hv
  · have hlevel : h.vertical = false := by simpa using hlevel
    exact ⟨⟨hhorizontal, fun hh => absurd (hh.symm.trans hlevel) (by decide)⟩, hlevel.symm,
      valueColumns_subset hhorizontal fun _ hc => absurd hc List.not_mem_nil⟩
  · have hpaired : "source_z" ∈ names ∧ "target_z" ∈ names := by
      simpa [VertexSchema.ofColumns] using hpaired
    refine ⟨⟨hhorizontal, fun _ => Or.inl hpaired⟩, ?_, valueColumns_subset hhorizontal ?_⟩
    · simpa using hlevel
    · simpa [valueColumns] using hpaired
  · have hoffset : "offset_z" ∈ names := by simpa [VertexSchema.ofColumns] using hoffset
    refine ⟨⟨hhorizontal, fun _ => Or.inr hoffset⟩, ?_, valueColumns_subset hhorizontal ?_⟩
    · simpa using hlevel
    · simpa [valueColumns] using hoffset

/-- Columns that serve the header are accepted. -/
theorem Header.ServedBy.exists_validate (hserved : h.ServedBy names) :
    ∃ vertical, (VertexSchema.ofColumns names).validate h = .ok vertical := by
  obtain ⟨hhorizontal, hvertical⟩ := hserved
  unfold VertexSchema.validate
  split_ifs with hx hy hlevel hpaired hoffset
  · obtain ⟨hh, hmissing⟩ : h.horizontal = true ∧ "target_x" ∉ names := by
      simpa [VertexSchema.ofColumns] using hx
    exact absurd (hhorizontal hh).1 hmissing
  · obtain ⟨hh, hmissing⟩ : h.horizontal = true ∧ "target_y" ∉ names := by
      simpa [VertexSchema.ofColumns] using hy
    exact absurd (hhorizontal hh).2 hmissing
  · exact ⟨_, rfl⟩
  · exact ⟨_, rfl⟩
  · exact ⟨_, rfl⟩
  · rcases hvertical (by simpa using hlevel) with hserved | hserved
    · exact absurd (by simpa [VertexSchema.ofColumns] using hserved) hpaired
    · exact absurd (by simpa [VertexSchema.ofColumns] using hserved) hoffset

end Columns

/-! ## Extents that are not empty -/

theorem Extent.isProper_iff {e : Extent Float} :
    e.isProper = true ↔ e.min.x < e.max.x ∧ e.min.y < e.max.y := by
  simp [Extent.isProper]

theorem Extent.ofCorners?_eq_ok_iff {lo hi : Point Float} {e : Extent Float} :
    Extent.ofCorners? lo hi = .ok e ↔ e = ⟨lo, hi⟩ ∧ e.min.x < e.max.x ∧ e.min.y < e.max.y := by
  rw [Extent.ofCorners?, ← isProper_iff]
  constructor
  · intro h
    split_ifs at h with hproper
    cases h
    exact ⟨rfl, hproper⟩
  · rintro ⟨rfl, hproper⟩
    exact if_pos hproper

namespace Container

/-! ## What opening asks for -/

/-- A cell that is read as this number. -/
def Cell.Holds (c : Cell) (x : Float) : Prop := c = .real x ∨ ∃ n, c = .integer n ∧ x = Float.ofInt n

namespace Database

/-- One document is filed under the standard, and it is the text of this header. -/
def Files (db : Database) (h : Header) : Prop :=
  ∃ rows r text, db.metadata = some rows ∧
    rows.filter (fun r => r.standardUri = .text headerStandard) = [r] ∧
    r.document = .text text ∧ Header.parse text = .ok h

/-- One entry of the table of contents lists the vertices, and it has the bounds of this extent. -/
def Lists (db : Database) (e : Extent Float) : Prop :=
  ∃ rows r, db.contents = some rows ∧ rows.filter (fun r => r.tableName = verticesTable) = [r] ∧
    (r.minX.Holds e.min.x ∧ r.minY.Holds e.min.y) ∧ r.maxX.Holds e.max.x ∧ r.maxY.Holds e.max.y

/-- The tables of a query are there, and the vertices have positions and these columns, and no column of
the name of a corner column of the triangles. -/
def Queries (db : Database) (columns : List String) : Prop :=
  ∃ t, db.vertices = some t ∧ db.triangles.isSome = true ∧ db.index.isSome = true ∧
    (∀ c ∈ VertexTable.geometryColumn :: columns,
      ∃ column ∈ t.columns, VertexTable.sameName column.name c = true) ∧
    ∀ c ∈ ["idx_vertex1", "idx_vertex2", "idx_vertex3"],
      ∀ column ∈ t.columns, VertexTable.sameName column.name c = false

end Database

/-- What opening asks of a database. -/
inductive Gate where
  | header
  | extent
  | columns
  | query
  deriving Repr, DecidableEq

namespace Gate

/-- The gates in the order in which they are passed. -/
def order : List Gate := [header, extent, columns, query]

/-- What a gate asks of the tables.  The value columns of the query are those that the gate before it
asks for. -/
def Met (db : Database) : Gate → Prop
  | header => ∃ h, db.Files h
  | extent => ∃ e, db.Lists e ∧ e.min.x < e.max.x ∧ e.min.y < e.max.y
  | columns => db.vertices.isSome = true ∧ ∀ h, db.Files h → h.ServedBy db.vertexColumns
  | query => db.Queries []

end Gate

/-! ## Readings of tables -/

theorem rowsOf_eq_ok_iff {ρ : Type} {table : TableName} {found : Option ρ} {rows : ρ} :
    rowsOf table found = .ok rows ↔ found = some rows := by
  cases found with
  | none => exact ⟨nofun, nofun⟩
  | some r => simp [rowsOf]

/-- One item is read exactly if there is one row of the kind. -/
theorem readOne_eq_ok_iff {ρ τ : Type} {table : TableName} {found : Option (List ρ)} {kind : ρ → Bool}
    {read : ρ → Except StorageFault τ} {item : τ} :
    (do
      let rows ← rowsOf table found
      (rows.filter kind).mapM read) = .ok [item] ↔
    ∃ rows r, found = some rows ∧ rows.filter kind = [r] ∧ read r = .ok item := by
  constructor
  · intro h
    obtain ⟨rows, hrows, h⟩ := bind_eq_ok h
    obtain ⟨r, rest, hr, hrest, hrow⟩ := List.forall₂_cons_right_iff.mp (mapM_eq_ok_iff.mp h)
    rw [List.forall₂_nil_right_iff.mp hrest] at hrow
    exact ⟨rows, r, rowsOf_eq_ok_iff.mp hrows, hrow, hr⟩
  · rintro ⟨rows, r, hrows, hrow, hr⟩
    rw [hrows]
    change (rows.filter kind).mapM read = .ok [item]
    rw [hrow, mapM_eq_ok_iff]
    exact .cons hr .nil

theorem Cell.toText?_eq_some_iff {column : String} {c : Cell} {s : String} :
    c.toText? column = .ok (some s) ↔ c = .text s := by
  cases c <;> simp [Cell.toText?]

theorem Cell.toFloat?_eq_some_iff {column : String} {c : Cell} {x : Float} :
    c.toFloat? column = .ok (some x) ↔ c.Holds x := by
  cases c <;> simp [Cell.toFloat?, Cell.Holds, eq_comm]

namespace Database

variable {db : Database}

/-- The header is read exactly where it is filed. -/
theorem header_eq_ok_iff {h : Header} : db.header = .ok h ↔ db.Files h := by
  constructor
  · intro hread
    unfold header at hread
    split at hread
    · cases hread
    · rename_i text hdocuments
      obtain ⟨rows, r, hrows, hrow, hdocument⟩ := readOne_eq_ok_iff.mp hdocuments
      exact ⟨rows, r, text, hrows, hrow, Cell.toText?_eq_some_iff.mp hdocument, hread⟩
    · cases hread
  · rintro ⟨rows, r, text, hrows, hrow, hdocument, hparse⟩
    have hdocuments : db.headerDocuments = .ok [some text] :=
      readOne_eq_ok_iff.mpr ⟨rows, r, hrows, hrow, Cell.toText?_eq_some_iff.mpr hdocument⟩
    rw [header, hdocuments]
    exact hparse

theorem bounds_eq_ok_iff {r : ContentsEntry} {minX minY maxX maxY : Float} :
    bounds r = .ok [some minX, some minY, some maxX, some maxY] ↔
      (r.minX.Holds minX ∧ r.minY.Holds minY) ∧ r.maxX.Holds maxX ∧ r.maxY.Holds maxY := by
  rw [bounds, mapM_eq_ok_iff]
  simp only [List.forall₂_cons, List.Forall₂.nil, Cell.toFloat?_eq_some_iff, and_true, and_assoc]

/-- The extent is read exactly where it is listed and is not empty. -/
theorem extent_eq_ok_iff {e : Extent Float} :
    db.extent = .ok e ↔ db.Lists e ∧ e.min.x < e.max.x ∧ e.min.y < e.max.y := by
  constructor
  · intro hread
    unfold extent at hread
    split at hread
    · cases hread
    · rename_i minX minY maxX maxY hlisted
      obtain ⟨rows, r, hrows, hrow, hbounds⟩ := readOne_eq_ok_iff.mp hlisted
      obtain ⟨rfl, hproper⟩ := Extent.ofCorners?_eq_ok_iff.mp hread
      exact ⟨⟨rows, r, hrows, hrow, bounds_eq_ok_iff.mp hbounds⟩, hproper⟩
    · cases hread
  · rintro ⟨⟨rows, r, hrows, hrow, hbounds⟩, hproper⟩
    have hlisted : db.listedBounds = .ok [[some e.min.x, some e.min.y, some e.max.x, some e.max.y]] :=
      readOne_eq_ok_iff.mpr ⟨rows, r, hrows, hrow, bounds_eq_ok_iff.mpr hbounds⟩
    rw [extent, hlisted]
    exact Extent.ofCorners?_eq_ok_iff.mpr ⟨rfl, hproper⟩

theorem schema_eq_ok_iff {s : VertexSchema} :
    db.schema = .ok s ↔ db.vertices.isSome = true ∧ s = .ofColumns db.vertexColumns := by
  have hempty : db.vertexColumns.isEmpty = !db.vertices.isSome := by
    rw [vertexColumns]
    cases db.vertices <;> rfl
  rw [schema, hempty]
  cases db.vertices.isSome <;> simp [eq_comm]

end Database

/-! ## The candidate query -/

section Query

variable {t : VertexTable} {db : Database} {columns : List String}

theorem isSome_position?_iff {column : String} :
    (t.position? column).isSome = true ↔
      ∃ c ∈ t.columns, VertexTable.sameName c.name column = true := by
  rw [VertexTable.position?, List.findIdx?_isSome, List.any_eq_true]

theorem exists_position_iff {column : String} :
    (∃ i, t.position column = .ok i) ↔
      ∃ c ∈ t.columns, VertexTable.sameName c.name column = true := by
  rw [← isSome_position?_iff, VertexTable.position]
  cases t.position? column with
  | none => exact ⟨nofun, nofun⟩
  | some i => exact ⟨fun _ => rfl, fun _ => ⟨i, rfl⟩⟩

/-- No name is ambiguous exactly if no column of the vertices has the name of a corner column. -/
theorem ambiguous?_eq_none_iff : t.ambiguous? = none ↔
    ∀ c ∈ TriangleEntry.cornerColumns, ∀ column ∈ t.columns,
      VertexTable.sameName column.name c = false := by
  simp only [VertexTable.ambiguous?, List.find?_eq_none, isSome_position?_iff, not_exists, not_and,
    Bool.not_eq_true]

/-- A query is prepared exactly if each of its columns is there and no name is ambiguous. -/
theorem exists_prepare_iff : (∃ q, t.prepare columns = .ok q) ↔
    (∀ c ∈ VertexTable.geometryColumn :: columns,
      ∃ column ∈ t.columns, VertexTable.sameName column.name c = true) ∧ t.ambiguous? = none := by
  simp only [← exists_position_iff, List.forall_mem_cons, ← exists_mapM_iff]
  constructor
  · rintro ⟨q, h⟩
    obtain ⟨geometry, hgeometry, h⟩ := bind_eq_ok h
    obtain ⟨values, hvalues, h⟩ := bind_eq_ok h
    refine ⟨⟨⟨geometry, hgeometry⟩, values, hvalues⟩, ?_⟩
    cases hambiguous : t.ambiguous? with
    | none => rfl
    | some c =>
      rw [hambiguous] at h
      cases h
  · rintro ⟨⟨⟨geometry, hgeometry⟩, values, hvalues⟩, hambiguous⟩
    refine ⟨⟨geometry, values⟩, ?_⟩
    rw [VertexTable.prepare, hgeometry, hvalues, hambiguous]
    rfl

theorem meshTables_eq_ok_iff {tables : MeshTables} : db.meshTables = .ok tables ↔
    db.vertices = some tables.vertices ∧ db.triangles = some tables.triangles ∧
      db.index = some tables.index := by
  constructor
  · intro h
    obtain ⟨triangles, htriangles, h⟩ := bind_eq_ok h
    obtain ⟨vertices, hvertices, h⟩ := bind_eq_ok h
    obtain ⟨index, hindex, h⟩ := bind_eq_ok h
    cases h
    exact ⟨rowsOf_eq_ok_iff.mp hvertices, rowsOf_eq_ok_iff.mp htriangles, rowsOf_eq_ok_iff.mp hindex⟩
  · rintro ⟨hvertices, htriangles, hindex⟩
    rw [Database.meshTables, hvertices, htriangles, hindex]
    rfl

/-- The query is prepared exactly if the tables and the columns are there and no name is ambiguous. -/
theorem exists_query_iff :
    (∃ q, (db.meshTables.bind fun tables => tables.vertices.prepare columns) = .ok q) ↔
      db.Queries columns := by
  constructor
  · rintro ⟨q, h⟩
    obtain ⟨tables, htables, h⟩ := bind_eq_ok h
    obtain ⟨hvertices, htriangles, hindex⟩ := meshTables_eq_ok_iff.mp htables
    obtain ⟨hcolumns, hambiguous⟩ := exists_prepare_iff.mp ⟨q, h⟩
    exact ⟨tables.vertices, hvertices, by rw [htriangles]; rfl, by rw [hindex]; rfl, hcolumns,
      ambiguous?_eq_none_iff.mp hambiguous⟩
  · rintro ⟨t, hvertices, htriangles, hindex, hcolumns, hdistinct⟩
    obtain ⟨triangles, htriangles⟩ := Option.isSome_iff_exists.mp htriangles
    obtain ⟨index, hindex⟩ := Option.isSome_iff_exists.mp hindex
    obtain ⟨q, hq⟩ := exists_prepare_iff.mpr ⟨hcolumns, ambiguous?_eq_none_iff.mpr hdistinct⟩
    have htables : db.meshTables = .ok ⟨t, triangles, index⟩ :=
      meshTables_eq_ok_iff.mpr ⟨hvertices, htriangles, hindex⟩
    rw [htables]
    exact ⟨q, hq⟩

/-- Value columns among the columns of the vertices ask no more of a query. -/
theorem Database.Queries.with_values {horizontal : Bool} {vertical : Option VerticalEncoding}
    (h : db.Queries []) (hcolumns : ∀ c ∈ valueColumns horizontal vertical, c ∈ db.vertexColumns) :
    db.Queries (valueColumns horizontal vertical) := by
  obtain ⟨t, hvertices, htriangles, hindex, hgeometry, hdistinct⟩ := h
  refine ⟨t, hvertices, htriangles, hindex,
    List.forall_mem_cons.mpr ⟨hgeometry _ (by simp), ?_⟩, hdistinct⟩
  intro c hc
  -- no value column has the name of the key
  have hkey : c ≠ VertexTable.keyColumn := by
    rintro rfl
    revert hc
    cases horizontal <;> rcases vertical with _ | (_ | _) <;> decide
  have hmem := hcolumns c hc
  rw [Database.vertexColumns, hvertices] at hmem
  obtain ⟨column, hcolumn, rfl⟩ := List.mem_map.mp ((List.mem_cons.mp hmem).resolve_left hkey)
  exact ⟨column, hcolumn, decide_eq_true rfl⟩

end Query

/-! ## Gates and readings -/

namespace Gate

variable {db : Database}

theorem met_header_iff : Met db header ↔ ∃ h, db.header = .ok h :=
  exists_congr fun _ => Database.header_eq_ok_iff.symm

theorem met_extent_iff : Met db extent ↔ ∃ e, db.extent = .ok e :=
  exists_congr fun _ => Database.extent_eq_ok_iff.symm

theorem met_columns_iff {h : Header} (hheader : db.header = .ok h) : Met db columns ↔
    ∃ schema, db.schema = .ok schema ∧ ∃ vertical, schema.validate h = .ok vertical := by
  constructor
  · rintro ⟨hvertices, hserved⟩
    exact ⟨_, Database.schema_eq_ok_iff.mpr ⟨hvertices, rfl⟩,
      (hserved h (Database.header_eq_ok_iff.mp hheader)).exists_validate⟩
  · rintro ⟨schema, hschema, vertical, hvertical⟩
    obtain ⟨hvertices, rfl⟩ := Database.schema_eq_ok_iff.mp hschema
    refine ⟨hvertices, fun h' hfiled => ?_⟩
    rw [Except.ok.inj ((Database.header_eq_ok_iff.mpr hfiled).symm.trans hheader)]
    exact (VertexSchema.validate_eq_ok hvertical).1

theorem met_query_iff {metadata : MeshMetadata Float}
    (hcolumns : ∀ c ∈ requestedColumns metadata, c ∈ db.vertexColumns) : Met db query ↔
    ∃ q, (db.meshTables.bind fun tables => tables.vertices.prepare (requestedColumns metadata)) = .ok q := by
  rw [exists_query_iff]
  refine ⟨fun hmet => hmet.with_values hcolumns, ?_⟩
  rintro ⟨t, hvertices, htriangles, hindex, hqueried, hdistinct⟩
  exact ⟨t, hvertices, htriangles, hindex,
    fun c hc => hqueried c (by simp [List.mem_singleton.mp hc]), hdistinct⟩

end Gate

/-! ## Opening -/

/-- The kinds of errors with which a database is refused. -/
inductive Refusal where
  | metadata
  | schema
  | queryPreparation
  deriving Repr, DecidableEq

/-- The kind of an error of opening a database. -/
def refusal? : MeshError → Option Refusal
  | .metadata _ => some .metadata
  | .schema _ => some .schema
  | .queryPreparation _ => some .queryPreparation
  | _ => none

/-- The kind of error of a gate that is not met. -/
def Gate.refusal : Gate → Refusal
  | header => .metadata
  | extent => .metadata
  | columns => .schema
  | query => .queryPreparation

namespace MeshStore

variable {db : Database} {m : MeshStore} {e : MeshError}

/-- What opening has read when it succeeds. -/
structure Read (db : Database) (m : MeshStore) (h : Header) (vertical : Option VerticalEncoding) : Prop where
  header : db.header = .ok h
  extent : db.extent = .ok m.metadata.extent
  schema : db.schema = .ok m.schema
  columns : m.schema.validate h = .ok vertical
  metadata : m.metadata = h.toMetadata m.metadata.extent vertical
  query : ∃ q, (db.meshTables.bind fun tables =>
    tables.vertices.prepare (requestedColumns m.metadata)) = .ok q

theorem read_eq_ok (hread : read db = .ok m) : ∃ h vertical, Read db m h vertical := by
  have hends := read_ends db
  rw [hread] at hends
  cases hends with
  | opened hheader hextent hschema hcolumns hquery =>
    exact ⟨_, _, hheader, hextent, hschema, hcolumns, rfl, _, hquery⟩

variable {h : Header} {vertical : Option VerticalEncoding}

/-- The requested columns are among those of the vertices. -/
theorem requestedColumns_subset (extent : Extent Float) {schema : VertexSchema}
    (hschema : db.schema = .ok schema) (hcolumns : schema.validate h = .ok vertical) :
    ∀ c ∈ requestedColumns (h.toMetadata extent vertical), c ∈ db.vertexColumns := by
  rw [(Database.schema_eq_ok_iff.mp hschema).2] at hcolumns
  exact (VertexSchema.validate_eq_ok hcolumns).2.2

theorem Read.met (hread : Read db m h vertical) : ∀ g ∈ Gate.order, g.Met db := by
  have hrequested := requestedColumns_subset m.metadata.extent hread.schema hread.columns
  rw [← hread.metadata] at hrequested
  simp only [Gate.order, List.forall_mem_cons]
  exact ⟨Gate.met_header_iff.mpr ⟨h, hread.header⟩, Gate.met_extent_iff.mpr ⟨_, hread.extent⟩,
    (Gate.met_columns_iff hread.header).mpr ⟨_, hread.schema, vertical, hread.columns⟩,
    (Gate.met_query_iff hrequested).mpr hread.query, nofun⟩

/-- An error of opening is of the kind of the first unmet gate. -/
theorem read_eq_error (hread : read db = .error e) :
    FirstUnmet (Gate.Met db) (fun g e => refusal? e = some g.refusal) Gate.order e := by
  have hends := read_ends db
  rw [hread] at hends
  -- the gates before the one whose reading fails are met
  cases hends with
  | header hheader =>
    exact .here (fun hmet => not_exists_ok hheader (Gate.met_header_iff.mp hmet)) rfl
  | extent hheader hextent =>
    refine .later (Gate.met_header_iff.mpr ⟨_, hheader⟩) ?_
    exact .here (fun hmet => not_exists_ok hextent (Gate.met_extent_iff.mp hmet)) rfl
  | schema hheader hextent hschema =>
    refine .later (Gate.met_header_iff.mpr ⟨_, hheader⟩) ?_
    refine .later (Gate.met_extent_iff.mpr ⟨_, hextent⟩) (.here (fun hmet => ?_) rfl)
    obtain ⟨schema, hok, -⟩ := (Gate.met_columns_iff hheader).mp hmet
    exact not_exists_ok hschema ⟨schema, hok⟩
  | columns hheader hextent hschema hcolumns =>
    refine .later (Gate.met_header_iff.mpr ⟨_, hheader⟩) ?_
    refine .later (Gate.met_extent_iff.mpr ⟨_, hextent⟩) (.here (fun hmet => ?_) rfl)
    obtain ⟨schema', hok, hvertical⟩ := (Gate.met_columns_iff hheader).mp hmet
    rw [Except.ok.inj (hok.symm.trans hschema)] at hvertical
    exact not_exists_ok hcolumns hvertical
  | @query _ extent _ _ _ hheader hextent hschema hcolumns hquery =>
    refine .later (Gate.met_header_iff.mpr ⟨_, hheader⟩) ?_
    refine .later (Gate.met_extent_iff.mpr ⟨_, hextent⟩) ?_
    refine .later ((Gate.met_columns_iff hheader).mpr ⟨_, hschema, _, hcolumns⟩) (.here (fun hmet => ?_) rfl)
    have hrequested := requestedColumns_subset extent hschema hcolumns
    exact not_exists_ok hquery ((Gate.met_query_iff hrequested).mp hmet)

/-- What holds of an open mesh and of the database in which it was found. -/
structure Established (db : Database) (m : MeshStore) : Prop where
  /-- All but the extent and the encoding is what the header declares, and there is an encoding exactly if
  the header declares heights. -/
  header : ∃ h, db.Files h ∧ m.metadata = h.toMetadata m.metadata.extent m.metadata.vertical ∧
    (m.metadata.vertical.isSome = true ↔ h.vertical = true)
  extent : db.Lists m.metadata.extent
  width_pos : 0.0 < m.metadata.extent.width
  height_pos : 0.0 < m.metadata.extent.height
  /-- A fallback has a number of vertices to divide by. -/
  counted : m.metadata.fallback ≠ .none → ∃ count, m.metadata.vertexCount = some count ∧ 1 ≤ count.val
  columns : ∀ c ∈ requestedColumns m.metadata, c ∈ db.vertexColumns
  /-- The query is prepared, and each of its result rows has the cells that the reader takes. -/
  query : ∃ tables q, db.meshTables = .ok tables ∧
    tables.vertices.prepare (requestedColumns m.metadata) = .ok q ∧
    ∀ w, ∀ cells ∈ q.results tables w, cells.length = 3 + 3 * (requestedColumns m.metadata).length
  takes : Takes (3 + 3 * (requestedColumns m.metadata).length) (readRow m.metadata)

theorem parse_counted {text : String} (hparse : Header.parse text = .ok h)
    (hfallback : h.fallback ≠ .none) : ∃ count, h.vertexCount = some count ∧ 1 ≤ count.val := by
  unfold Header.parse at hparse
  split at hparse
  · cases hparse
  unfold Header.ofJson? at hparse
  split at hparse
  · cases hparse
  obtain ⟨count, hcount⟩ := Option.isSome_iff_exists.mp
    ((Header.ofFields?_eq_ok hparse).describes.counted.mp hfallback)
  exact ⟨count, hcount, count.pos⟩

theorem Read.established (hread : Read db m h vertical) : Established db m := by
  have hmetadata := hread.metadata
  have hvertical : m.metadata.vertical = vertical := by rw [hmetadata]; rfl
  have hrequested := requestedColumns_subset m.metadata.extent hread.schema hread.columns
  have hfiled := Database.header_eq_ok_iff.mp hread.header
  obtain ⟨hlisted, hx, hy⟩ := Database.extent_eq_ok_iff.mp hread.extent
  have hcolumns := hread.columns
  rw [(Database.schema_eq_ok_iff.mp hread.schema).2] at hcolumns
  rw [← hmetadata] at hrequested
  obtain ⟨q, hquery⟩ := hread.query
  obtain ⟨tables, htables, hprepare⟩ := bind_eq_ok hquery
  refine
    { header := ⟨h, hfiled, hvertical ▸ hmetadata, ?_⟩
      extent := hlisted
      width_pos := Double.sub_pos_of_lt hx
      height_pos := Double.sub_pos_of_lt hy
      counted := ?_
      columns := hrequested
      query := ⟨tables, q, htables, hprepare, fun w cells hcells => ?_⟩
      takes := takes_readRow m.metadata }
  · rw [hvertical, (VertexSchema.validate_eq_ok hcolumns).2.1]
  · obtain ⟨-, -, text, -, -, -, hparse⟩ := hfiled
    rw [hmetadata]
    exact parse_counted hparse
  · obtain ⟨entry, -, rfl⟩ := List.mem_map.mp hcells
    rw [length_resultRow, length_prepare hprepare]

end MeshStore

/-- **Opening is a gate.**  A container that is reached and holds no database is refused.  If it holds one,
opening succeeds exactly if the tables meet every gate, and otherwise fails with the kind of error of the
first unmet one.  Of an open mesh everything holds that the lookups rely on. -/
theorem opening_gate {disk : Disk} {options : OpenOptions} {location : String} {access : AccessPath}
    {content : Content}
    (hreach : reach disk options location [] AccessPath.order = .ok (access, content)) :
    (∀ fault, content.database? = .error fault →
      openMesh disk options location = .error (.metadata (.unreadable fault))) ∧
    ∀ db, content.database? = .ok db →
      ((∃ mesh, openMesh disk options location = .ok mesh) ↔ ∀ g ∈ Gate.order, g.Met db) ∧
      (∀ e, openMesh disk options location = .error e →
        FirstUnmet (Gate.Met db) (fun g e => refusal? e = some g.refusal) Gate.order e) ∧
      ∀ mesh, openMesh disk options location = .ok mesh →
        mesh.access = access ∧ mesh.content = content ∧ mesh.store.Established db := by
  have hopen : openMesh disk options location =
      (MeshStore.ofContent content).map fun store => ⟨access, content, store⟩ := by
    rw [openMesh, hreach]
  refine ⟨fun fault hfault => ?_, fun db hdb => ?_⟩
  · rw [hopen, MeshStore.ofContent, hfault]
    rfl
  have hread : openMesh disk options location =
      (MeshStore.read db).map fun store => ⟨access, content, store⟩ := by
    rw [hopen, MeshStore.ofContent, hdb]
  have herror : ∀ e, openMesh disk options location = .error e →
      FirstUnmet (Gate.Met db) (fun g e => refusal? e = some g.refusal) Gate.order e := by
    intro e he
    cases hstore : MeshStore.read db with
    | ok store =>
      rw [hread, hstore] at he
      cases he
    | error fault =>
      rw [hread, hstore] at he
      cases he
      exact MeshStore.read_eq_error hstore
  have hok : ∀ mesh, openMesh disk options location = .ok mesh →
      (∀ g ∈ Gate.order, g.Met db) ∧
        mesh.access = access ∧ mesh.content = content ∧ mesh.store.Established db := by
    intro mesh hmesh
    cases hstore : MeshStore.read db with
    | error fault =>
      rw [hread, hstore] at hmesh
      cases hmesh
    | ok store =>
      rw [hread, hstore] at hmesh
      cases hmesh
      obtain ⟨h, vertical, hfound⟩ := MeshStore.read_eq_ok hstore
      exact ⟨hfound.met, rfl, rfl, hfound.established⟩
  exact ⟨ok_iff_of_firstUnmet (fun mesh hmesh => (hok mesh hmesh).1) herror, herror,
    fun mesh hmesh => (hok mesh hmesh).2⟩

/-- The container of the quoted mesh without its triangles. -/
def hollowDatabase : Database := { quotedDraft.database with triangles := none }

/-- The container of the quoted mesh with a column more. -/
def crowdedDatabase (column : String) : Database :=
  { quotedDraft.database with
    vertices := some ⟨quotedDraft.vertexTable.columns ++ [⟨column, "DOUBLE"⟩],
      quotedDraft.vertexTable.rows.map fun r => { r with cells := r.cells ++ [.null] }⟩ }

theorem quoted_opening_gate :
    (reach quotedDisk {} meshPath [] AccessPath.order = .ok (.localFile, .database quotedDraft.database) ∧
      (∀ g ∈ Gate.order, g.Met quotedDraft.database) ∧
      ∃ mesh, openMesh quotedDisk {} meshPath = .ok mesh ∧ mesh.store.Established quotedDraft.database) ∧
    (reach (meshDisk (.database hollowDatabase)) {} meshPath [] AccessPath.order =
      .ok (.localFile, .database hollowDatabase) ∧
      ∃ e, openMesh (meshDisk (.database hollowDatabase)) {} meshPath = .error e ∧
        refusal? e = some .queryPreparation) ∧
    ∀ column ∈ ["idx_vertex1", "IDX_VERTEX2", "Idx_Vertex3"],
      reach (meshDisk (.database (crowdedDatabase column))) {} meshPath [] AccessPath.order =
        .ok (.localFile, .database (crowdedDatabase column)) ∧
      ∃ e, openMesh (meshDisk (.database (crowdedDatabase column))) {} meshPath = .error e ∧
        refusal? e = some .queryPreparation := by
  have hreach := reach_meshDisk {} (.database quotedDraft.database)
  obtain ⟨hopens, -, hestablished⟩ := (opening_gate hreach).2 _ rfl
  obtain ⟨mesh, hmesh⟩ := quotedDisk_opens {}
  have hmet := hopens.mp ⟨mesh, hmesh⟩
  have hrefused : ∀ db, Gate.Met db .header → Gate.Met db .extent → Gate.Met db .columns →
      ¬ Gate.Met db .query →
      ∃ e, openMesh (meshDisk (.database db)) {} meshPath = .error e ∧
        refusal? e = some .queryPreparation := by
    intro db hheader hextent hcolumns hquery
    obtain ⟨hopens', hrefused, -⟩ := (opening_gate (reach_meshDisk {} (.database db))).2 db rfl
    cases hopen : openMesh (meshDisk (.database db)) {} meshPath with
    | ok mesh' => exact absurd (hopens'.mp ⟨mesh', hopen⟩ .query (by decide)) hquery
    | error e =>
      obtain ⟨g, -, hunmet, hkind⟩ := hrefused e hopen
      refine ⟨e, rfl, hkind.trans ?_⟩
      cases g with
      | header => exact absurd hheader hunmet
      | extent => exact absurd hextent hunmet
      | columns => exact absurd hcolumns hunmet
      | query => rfl
  refine ⟨⟨hreach, hmet, mesh, hmesh, (hestablished mesh hmesh).2.2⟩,
    ⟨reach_meshDisk {} (.database hollowDatabase), ?_⟩, fun column hcolumn =>
      ⟨reach_meshDisk {} (.database (crowdedDatabase column)), ?_⟩⟩
  · -- the other gates do not look at the triangles
    refine hrefused hollowDatabase (hmet .header (by decide)) (hmet .extent (by decide))
      (hmet .columns (by decide)) ?_
    rintro ⟨t, -, htriangles, -⟩
    cases htriangles
  · -- one column more serves the header as well
    obtain ⟨-, hserved⟩ := hmet .columns (by decide)
    have hnames : (crowdedDatabase column).vertexColumns =
        quotedDraft.database.vertexColumns ++ [column] := by
      simp [crowdedDatabase, Database.vertexColumns, MeshDraft.database]
    refine hrefused (crowdedDatabase column) (hmet .header (by decide)) (hmet .extent (by decide))
      ⟨rfl, fun h hfiled => ?_⟩ ?_
    · rw [hnames]
      exact (hserved h hfiled).mono (List.subset_append_left _ _)
    · rintro ⟨t, ht, -, -, -, hdistinct⟩
      cases ht
      have hsame : ∃ c ∈ ["idx_vertex1", "idx_vertex2", "idx_vertex3"],
          VertexTable.sameName column c = true := by
        revert column
        decide
      obtain ⟨c, hc, hsame⟩ := hsame
      rw [hdistinct c hc ⟨column, "DOUBLE"⟩ (by simp)] at hsame
      cases hsame

end Container

end ShiftMesh
