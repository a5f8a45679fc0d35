import ShiftMesh.Proofs.Container.Written
import ShiftMesh.Proofs.PointBlob

/-!
# ShiftMesh.Proofs.Container.Stream — what a window streams from a written container

* `MeshDraft.row?_vertexTable`: the key of a corner leads to the vertex that the corner refers to.
* `matching_database`: the triangles of a window are those whose stored box meets it, each once and in
  order.
* `readRow_cells`: a result row is read with each value at its own corner, whatever the components.
* `stream_database`: the stream of a window, for every draft whose corners refer to vertices.
-/

namespace ShiftMesh

open Container

/-! ## Keys -/

namespace MeshDraft

/-- Keys are counted from `fid` on. -/
theorem find?_vertexEntries (d : MeshDraft) (vertices : List VertexRecord) (fid i : Nat) :
    (d.vertexEntries fid vertices).find? (fun r => r.fid = ((fid + i : Nat) : Int)) =
      vertices[i]?.map (d.vertexEntry ((fid + i : Nat) : Int)) := by
  induction vertices generalizing fid i with
  | nil => rfl
  | cons v rest ih =>
    rw [vertexEntries]
    cases i with
    | zero => exact List.find?_cons_of_pos (decide_eq_true rfl)
    | succ i =>
      have hne : ¬ (fid : Int) = ((fid + (i + 1) : Nat) : Int) := by omega
      have hkey : fid + (i + 1) = fid + 1 + i := by omega
      refine (List.find?_cons_of_neg ?_).trans ?_
      · rw [decide_eq_true_iff]
        exact hne
      · rw [hkey, ih (fid + 1) i]
        rfl

/-- The key of a corner leads to its vertex. -/
theorem row?_vertexTable (d : MeshDraft) (i : Nat) :
    d.vertexTable.row? ((i : Int) + 1) = d.vertices[i]?.map (d.vertexEntry ((i : Int) + 1)) := by
  have hkey : ((i : Int) + 1) = ((1 + i : Nat) : Int) := by omega
  rw [hkey]
  exact d.find?_vertexEntries d.vertices 1 i

theorem le_fid_of_mem {ts : List (Corners Nat)} {fid : Nat} {entry : TriangleEntry}
    (h : entry ∈ triangleEntries fid ts) : (fid : Int) ≤ entry.fid := by
  induction ts generalizing fid with
  | nil => cases h
  | cons t rest ih =>
    rcases List.mem_cons.mp h with rfl | h
    · exact le_rfl
    · have := ih h
      omega

theorem le_id_of_mem {vertices : Array VertexRecord} {ts : List (Corners Nat)} {fid : Nat}
    {entry : IndexEntry} (h : entry ∈ indexEntries vertices fid ts) : (fid : Int) ≤ entry.id := by
  induction ts generalizing fid with
  | nil => cases h
  | cons t rest ih =>
    rcases List.mem_append.mp h with h | h
    · rw [Option.mem_toList, Option.map_eq_some_iff] at h
      obtain ⟨v, -, rfl⟩ := h
      exact le_rfl
    · have := ih h
      omega

/-! ## The triangles of a window -/

variable (d : MeshDraft)

/-- The vertices at the corners of a triangle. -/
def records (t : Corners Nat) : Corners VertexRecord := t.map fun i => d.vertices.getD i default

/-- The source positions of the corners of a triangle. -/
def corners (t : Corners Nat) : Triangle Float := (d.records t).map VertexRecord.source

/-- The box of a triangle as the index holds it, but for its key. -/
def indexBox (t : Corners Nat) : IndexEntry := .ofBox 0 (d.corners t).boxMin (d.corners t).boxMax

variable {d}

/-- Each corner refers to a vertex. -/
theorem records_eq {t : Corners Nat} (h : ∀ i ∈ t.toList, i < d.vertices.length) :
    t.map (fun i => d.vertices[i]?) = (d.records t).map some := by
  have hget : ∀ i ∈ t.toList, d.vertices[i]? = some (d.vertices.getD i default) := fun i hi => by
    rw [List.getD_eq_getElem _ _ (h i hi), List.getElem?_eq_getElem (h i hi)]
  simp only [Corners.toList, List.forall_mem_cons] at hget
  obtain ⟨hfirst, hsecond, hthird, -⟩ := hget
  simp only [records, Corners.map, hfirst, hsecond, hthird]

theorem sourceTriangle?_eq {t : Corners Nat} (h : ∀ i ∈ t.toList, i < d.vertices.length) :
    sourceTriangle? d.vertices.toArray t = some (d.corners t) := by
  obtain ⟨hfirst, hsecond, hthird⟩ := Corners.mk.inj (records_eq h)
  simp only [sourceTriangle?, List.getElem?_toArray, hfirst, hsecond, hthird]
  rfl

/-- Whether the index has an entry of a key with a box that meets the window. -/
def indexFinds (d : MeshDraft) (w : Window Float) (fid : Nat) (ts : List (Corners Nat)) (id : Int) :
    Bool :=
  (indexEntries d.vertices.toArray fid ts).any fun e => e.meets w && decide (e.id = id)

theorem indexFinds_cons (w : Window Float) (fid : Nat) {t : Corners Nat} (rest : List (Corners Nat))
    (h : ∀ i ∈ t.toList, i < d.vertices.length) (id : Int) :
    d.indexFinds w fid (t :: rest) id =
      ((d.indexBox t).meets w && decide ((fid : Int) = id) || d.indexFinds w (fid + 1) rest id) := by
  rw [indexFinds, indexEntries, sourceTriangle?_eq h]
  rfl

/-- There is no entry of a key below the first one. -/
theorem indexFinds_of_lt (w : Window Float) {fid : Nat} (ts : List (Corners Nat)) {id : Int}
    (h : id < fid) : d.indexFinds w fid ts id = false := by
  rw [indexFinds, List.any_eq_false]
  intro e he
  have hkey := le_id_of_mem he
  have hne : ¬ e.id = id := by omega
  simp [hne]

/-- Of the triangles with keys from `fid` on, the index finds those whose box meets the window. -/
theorem filter_triangleEntries (w : Window Float) (ts : List (Corners Nat)) (fid : Nat)
    (h : ∀ t ∈ ts, ∀ i ∈ t.toList, i < d.vertices.length) :
    ((triangleEntries fid ts).filter fun entry => d.indexFinds w fid ts entry.fid).map
        TriangleEntry.vertices =
      (ts.filter fun t => (d.indexBox t).meets w).map (Corners.map fun i : Nat => (i : Int) + 1) := by
  induction ts generalizing fid with
  | nil => rfl
  | cons t rest ih =>
    rw [List.forall_mem_cons] at h
    have hfirst : d.indexFinds w fid (t :: rest) fid = (d.indexBox t).meets w := by
      rw [indexFinds_cons w fid rest h.1, indexFinds_of_lt w rest (by omega), decide_eq_true rfl,
        Bool.and_true, Bool.or_false]
    -- the keys of the rest are greater than that of the first triangle
    have hrest : ∀ entry ∈ triangleEntries (fid + 1) rest,
        d.indexFinds w fid (t :: rest) entry.fid = d.indexFinds w (fid + 1) rest entry.fid := by
      intro entry hentry
      have hkey := le_fid_of_mem hentry
      have hne : ¬ (fid : Int) = entry.fid := by omega
      rw [indexFinds_cons w fid rest h.1, decide_eq_false hne, Bool.and_false, Bool.false_or]
    rw [triangleEntries, List.filter_cons, hfirst, List.filter_congr hrest, List.filter_cons]
    by_cases hmeets : (d.indexBox t).meets w = true
    · rw [if_pos hmeets, if_pos hmeets, List.map_cons, List.map_cons, ih (fid + 1) h.2]
    · rw [if_neg hmeets, if_neg hmeets, ih (fid + 1) h.2]

/-- The tables of a draft. -/
def meshTables (d : MeshDraft) : MeshTables :=
  ⟨d.vertexTable, triangleEntries 1 d.triangles, indexEntries d.vertices.toArray 1 d.triangles⟩

theorem matching_database (h : ∀ t ∈ d.triangles, ∀ i ∈ t.toList, i < d.vertices.length)
    (w : Window Float) : (CandidateQuery.matching d.meshTables w).map TriangleEntry.vertices =
      (d.triangles.filter fun t => (d.indexBox t).meets w).map
        (Corners.map fun i : Nat => (i : Int) + 1) := by
  rw [← filter_triangleEntries w d.triangles 1 h, CandidateQuery.matching]
  simp only [List.any_filter, meshTables, indexFinds]

end MeshDraft

/-! ## Cells -/

/-- A value as it is read after it was stored: zero where there is none. -/
def given (value : Option Float) : Float := (value.bind stored).getD 0.0

theorem given_some {x : Float} (h : x.isNaN = false) : given (some x) = kept x := by
  change (stored x).getD 0.0 = kept x
  rw [stored, h]
  rfl

theorem toFloat_cell (v : VertexRecord) (column name : String) :
    (v.cell column).toFloat name = .ok (given (v.value? column)) := by
  rw [VertexRecord.cell]
  cases v.value? column with
  | none => rfl
  | some x =>
    simp only [Cell.toFloat, toFloat?_stored]
    rfl

/-- The cells of three vertices in a column. -/
def columnCells (v : Corners VertexRecord) (column : String) : List Cell :=
  (v.map fun r => r.cell column).toList

/-- What is read of three vertices in a column. -/
def columnValues (v : Corners VertexRecord) (column : String) : Corners Float :=
  v.map fun r => given (r.value? column)

theorem readThree_columnCells (v : Corners VertexRecord) (column name : String)
    (rest : List Cell) : readThree (Cell.toFloat name) (columnCells v column ++ rest) =
      .ok (columnValues v column, rest) := by
  simp only [columnCells, Corners.map, Corners.toList, List.cons_append, List.nil_append, readThree,
    toFloat_cell, bind, Except.bind, pure, Except.pure]
  rfl

namespace MeshDraft

/-- The positions that are stored for vertices. -/
def blobs (d : MeshDraft) (v : Corners VertexRecord) : Corners Blob :=
  v.map fun r => PointBlob.encodeWords PointBlob.stored d.srsId r.sourceWords

/-- The cells of a result row. -/
def rowCells (d : MeshDraft) (v : Corners VertexRecord) : List Cell :=
  ((d.blobs v).map Cell.blob).toList ++ d.columns.flatMap (columnCells v)

end MeshDraft

theorem flatMap_range' {α β : Type} {f : Nat → List β} {g : α → List β} (l : List α) (s : Nat)
    (h : ∀ i (hi : i < l.length), f (s + i) = g l[i]) :
    (List.range' s l.length).flatMap f = l.flatMap g := by
  induction l generalizing s with
  | nil => rfl
  | cons a rest ih =>
    have hrest : ∀ i (hi : i < rest.length), f (s + 1 + i) = g rest[i] := by
      intro i hi
      have hcons := h (i + 1) (Nat.succ_lt_succ hi)
      rwa [List.getElem_cons_succ, ← Nat.add_assoc, Nat.add_right_comm] at hcons
    rw [List.length_cons, List.range'_succ, List.flatMap_cons, List.flatMap_cons, ih (s + 1) hrest]
    exact congrArg (· ++ _) (h 0 (Nat.succ_pos _))

namespace MeshDraft

variable {d : MeshDraft}

/-- The result row of a triangle: the positions of its corners, then each column at the corners. -/
theorem resultRow_database {t : Corners Nat} (h : ∀ i ∈ t.toList, i < d.vertices.length)
    (fid : Int) :
    CandidateQuery.resultRow ⟨0, List.range' 1 d.columns.length⟩ d.vertexTable
      ⟨fid, t.map fun i : Nat => (i : Int) + 1⟩ = d.rowCells (d.records t) := by
  have hcorners : (t.map fun i : Nat => (i : Int) + 1).map d.vertexTable.row? =
      ⟨some (d.vertexEntry (t.first + 1) (d.records t).first),
        some (d.vertexEntry (t.second + 1) (d.records t).second),
        some (d.vertexEntry (t.third + 1) (d.records t).third)⟩ := by
    obtain ⟨hfirst, hsecond, hthird⟩ := Corners.mk.inj (records_eq h)
    simp only [Corners.map, row?_vertexTable, hfirst, hsecond, hthird, Option.map_some]
  have hcolumn : ∀ i (hi : i < d.columns.length) (fid : Int) (v : VertexRecord),
      VertexEntry.cellAt (some (d.vertexEntry fid v)) (1 + i) = v.cell d.columns[i] := by
    intro i hi fid v
    change (Cell.blob _ :: d.columns.map v.cell).getD (1 + i) .null = _
    rw [Nat.add_comm, List.getD_cons_succ, List.getD_eq_getElem _ _ (by rwa [List.length_map]),
      List.getElem_map]
  simp only [CandidateQuery.resultRow, hcorners]
  rw [List.flatMap_cons, flatMap_range' (g := columnCells (d.records t)) d.columns 1]
  · rfl
  · intro i hi
    simp only [Corners.map, hcolumn i hi]
    rfl

/-! ## Reading a row -/

/-- The row that is read for three vertices. -/
def storedRow (d : MeshDraft) (v : Corners VertexRecord) : TriangleRow Blob Float where
  geometry := d.blobs v
  target :=
    if d.horizontal then
      some (v.map fun r => ⟨given (r.value? "target_x"), given (r.value? "target_y")⟩)
    else none
  vertical := d.vertical.map fun
    | .paired => .paired (columnValues v "source_z") (columnValues v "target_z")
    | .offset => .offset (columnValues v "offset_z")

theorem readTarget_cells (v : Corners VertexRecord) (horizontal : Bool) (rest : List Cell) :
    readIf (fun () => readTarget) (if horizontal then some () else none)
        ((if horizontal then ["target_x", "target_y"] else []).flatMap (columnCells v) ++ rest) =
      .ok (if horizontal then
        some (v.map fun r => ⟨given (r.value? "target_x"), given (r.value? "target_y")⟩)
      else none, rest) := by
  cases horizontal with
  | false => rfl
  | true =>
    simp only [if_true, readIf, List.flatMap_cons, List.flatMap_nil, List.append_nil,
      List.append_assoc, readTarget, readThree_columnCells, bind, Except.bind, pure, Except.pure,
      Except.map]
    rfl

theorem readHeights_cells (v : Corners VertexRecord) (vertical : Option VerticalEncoding) :
    readIf readHeights vertical ((valueColumns false vertical).flatMap (columnCells v)) =
      .ok (vertical.map fun
        | .paired => .paired (columnValues v "source_z") (columnValues v "target_z")
        | .offset => .offset (columnValues v "offset_z"), []) := by
  have hlast : ∀ column name, readThree (Cell.toFloat name) (columnCells v column) =
      .ok (columnValues v column, []) := fun column name => by
    rw [← List.append_nil (columnCells v column), readThree_columnCells]
  match vertical with
  | none => rfl
  | some .offset =>
    simp only [valueColumns, Bool.false_eq_true, if_false, List.nil_append, List.flatMap_cons,
      List.flatMap_nil, List.append_nil, readIf, readHeights, hlast, bind, Except.bind, pure,
      Except.pure, Except.map, Option.map_some]
  | some .paired =>
    simp only [valueColumns, Bool.false_eq_true, if_false, List.nil_append, List.flatMap_cons,
      List.flatMap_nil, List.append_nil, readIf, readHeights, readThree_columnCells, hlast, bind,
      Except.bind, pure, Except.pure, Except.map, Option.map_some]

/-- A result row is read with each value at its own corner, and no cell is left over. -/
theorem readRow_cells {m : MeshMetadata Float} (hhorizontal : m.horizontal = d.horizontal)
    (hvertical : m.vertical = d.vertical) (v : Corners VertexRecord) :
    readRow m (d.rowCells v) = .ok (d.storedRow v, []) := by
  have hgeometry : ∀ rest, readThree (Cell.toBlob VertexTable.geometryColumn)
      (((d.blobs v).map Cell.blob).toList ++ rest) = .ok (d.blobs v, rest) := fun _ => rfl
  have hcolumns : d.columns = (if d.horizontal then ["target_x", "target_y"] else []) ++
      valueColumns false d.vertical := rfl
  rw [readRow, rowCells, hgeometry, hhorizontal, hvertical, hcolumns, List.flatMap_append]
  simp only [bind, Except.bind, readTarget_cells, readHeights_cells]
  rfl

end MeshDraft

/-! ## The stream of a window -/

theorem RowStream.ofResults_ok {β α : Type} (rows : List (TriangleRow β α)) :
    RowStream.ofResults (rows.map .ok) = { rows } := by
  induction rows with
  | nil => rfl
  | cons r rest ih => rw [List.map_cons, RowStream.ofResults, ih]

namespace MeshDraft

variable {d : MeshDraft}

/-- A window streams the triangles whose stored box meets it, each once, and no others. -/
theorem stream_database (h : ∀ t ∈ d.triangles, ∀ i ∈ t.toList, i < d.vertices.length)
    {s : MeshStore} (hhorizontal : s.metadata.horizontal = d.horizontal)
    (hvertical : s.metadata.vertical = d.vertical) (w : Window Float) :
    s.stream (.database d.database) w =
      { rows := (d.triangles.filter fun t => (d.indexBox t).meets w).map fun t =>
          d.storedRow (d.records t) } := by
  have hrequested : requestedColumns s.metadata = d.columns := by
    rw [requestedColumns, hhorizontal, hvertical]
    rfl
  have hresults : CandidateQuery.results ⟨0, List.range' 1 d.columns.length⟩ d.meshTables w =
      (d.triangles.filter fun t => (d.indexBox t).meets w).map fun t => d.rowCells (d.records t) := by
    have hcells : ∀ t ∈ d.triangles.filter fun t => (d.indexBox t).meets w,
        CandidateQuery.resultRow ⟨0, List.range' 1 d.columns.length⟩ d.vertexTable
          ⟨0, t.map fun i : Nat => (i : Int) + 1⟩ = d.rowCells (d.records t) :=
      fun t ht => resultRow_database (h t (List.mem_of_mem_filter ht)) 0
    rw [← List.map_congr_left hcells, CandidateQuery.results]
    have hvertices := congrArg (List.map fun c => CandidateQuery.resultRow
      ⟨0, List.range' 1 d.columns.length⟩ d.vertexTable ⟨0, c⟩) (matching_database h w)
    rwa [List.map_map, List.map_map] at hvertices
  have hrows : ∀ v, MeshStore.row s.metadata (d.rowCells v) = .ok (d.storedRow v) := fun v => by
    rw [MeshStore.row, readRow_cells hhorizontal hvertical]
  have hstream : s.stream (.database d.database) w = .ofResults
      ((CandidateQuery.results ⟨0, List.range' 1 d.columns.length⟩ d.meshTables w).map
        (MeshStore.row s.metadata)) := by
    rw [MeshStore.stream, hrequested]
    simp only [Content.database?, meshTables_database, prepare_database, bind, Except.bind]
    rfl
  rw [hstream, hresults, List.map_map]
  have hread : (MeshStore.row s.metadata ∘ fun t => d.rowCells (d.records t)) =
      fun t => .ok (d.storedRow (d.records t)) := funext fun t => hrows (d.records t)
  rw [hread, ← RowStream.ofResults_ok, List.map_map]
  rfl

end MeshDraft

end ShiftMesh
