import ShiftMesh.Proofs.Conversion
import ShiftMesh.Proofs.Json.Range

/-!
# ShiftMesh.Proofs.Columns — rows of an exchange document are read by the names of their columns

* `Under`: the value of a row under the name of a column; `VertexByName`, `CornersByName`: vertices and
  triangles that have the values of their rows under the known names.
* `readVertices_eq_ok`, `readTriangles_eq_ok`: what the readers of the rows accept;
  `readVertices_length`, `readTriangles_length`: a row of another length is refused.
* `vertexColumns_within`, `cornerColumns_within`: the columns that a row is read at are columns of it.
* `Placed`: a table whose columns stand elsewhere in another one; `vertexColumns_placed`,
  `cornerColumns_placed`: then so do the columns that are read.
* `Tables.into`: fields with other tables; `scatteredTables`: the columns of a document at other places.
* `rows_read_by_name`: hence rows are read by name, wherever the columns stand and whatever others there
  are, and no value is taken beyond the end of a row.
-/

namespace ShiftMesh

open ShiftMesh.Json (Value Fields Number)

/-! ## Columns of a vertex row -/

namespace VertexColumns

variable {c : VertexColumns} {row : List Float}

/-- The columns that a vertex takes its values from. -/
def positions (c : VertexColumns) : List ℕ :=
  [c.sourceX, c.sourceY] ++ (c.target.toList ++ c.heights.toList).flatMap (fun p => [p.1, p.2]) ++
    c.offsetZ.toList

/-- The vertex of a row of the right length. -/
def vertex (c : VertexColumns) (row : List Float) : VertexRecord where
  sourceWords := Point.words ⟨value row c.sourceX, value row c.sourceY⟩
  target := c.target.map fun t => ⟨value row t.1, value row t.2⟩
  sourceZ := c.heights.map fun h => value row h.1
  targetZ := c.heights.map fun h => value row h.2
  offsetZ := c.offsetZ.map fun o => value row o

theorem record?_eq (c : VertexColumns) (index : ℕ) (row : List Float) :
    c.record? index row =
      if row.length ≠ c.length then .error (.vertexLength index row.length c.length)
      else .ok (c.vertex row) := rfl

/-- The columns when each of them stands at another place, among a number of columns. -/
def place (c : VertexColumns) (σ : ℕ → ℕ) (length : ℕ) : VertexColumns where
  sourceX := σ c.sourceX
  sourceY := σ c.sourceY
  target := c.target.map (Prod.map σ σ)
  heights := c.heights.map (Prod.map σ σ)
  offsetZ := c.offsetZ.map σ
  length

/-- A vertex depends on the values at its columns only. -/
theorem vertex_place {σ : ℕ → ℕ} {row' : List Float} {n : ℕ}
    (h : ∀ p ∈ c.positions, row'[σ p]? = row[p]?) : (c.place σ n).vertex row' = c.vertex row := by
  have hvalue : ∀ p ∈ c.positions, value row' (σ p) = value row p := by
    intro p hp
    rw [value, value, List.getD_eq_getElem?_getD, List.getD_eq_getElem?_getD, h p hp]
  simp only [positions, List.forall_mem_append, List.forall_mem_cons, List.flatMap_append,
    List.not_mem_nil, false_implies, implies_true, and_true] at hvalue
  obtain ⟨⟨⟨hx, hy⟩, htarget, hheights⟩, hoffset⟩ := hvalue
  unfold vertex place
  rw [hx, hy]
  congr 1
  · cases ht : c.target with
    | none => rfl
    | some t =>
      rw [ht] at htarget
      exact congrArg some (congrArg₂ Point.mk (htarget t.1 (by simp)) (htarget t.2 (by simp)))
  · cases hh : c.heights with
    | none => rfl
    | some t =>
      rw [hh] at hheights
      exact congrArg some (hheights t.1 (by simp))
  · cases hh : c.heights with
    | none => rfl
    | some t =>
      rw [hh] at hheights
      exact congrArg some (hheights t.2 (by simp))
  · cases ho : c.offsetZ with
    | none => rfl
    | some o =>
      rw [ho] at hoffset
      exact congrArg some (hoffset o (by simp))

end VertexColumns

namespace Exchange

/-! ## Names -/

/-- The names of the columns that a vertex is read from. -/
def vertexNames : List String :=
  ["source_x", "source_y", "target_x", "target_y", "source_z", "target_z", "offset_z"]

/-- The names of the columns that a triangle is read from. -/
def cornerNames : List String := ["idx_vertex1", "idx_vertex2", "idx_vertex3"]

/-- No known name stands twice in a list of columns. -/
def NoneTwice (known : List String) (names : List Value) : Prop :=
  ∀ name ∈ known, ∀ i k : ℕ, names[i]? = some (.string name) → names[k]? = some (.string name) → i = k

variable {names names' : List Value} {name a b : String} {i k : ℕ}

theorem noneTwice_of_nodup {known texts : List String} (h : texts.Nodup) :
    NoneTwice known (texts.map .string) := by
  intro name _ i k hi hk
  rw [List.getElem?_map, Option.map_eq_some_iff] at hi hk
  obtain ⟨text, hi, htext⟩ := hi
  obtain ⟨text', hk, htext'⟩ := hk
  cases htext
  cases htext'
  exact (List.getElem?_inj (List.getElem?_eq_some_iff.mp hi).1 h).mp (hi.trans hk.symm)

theorem position?_eq_some (h : position? names name = some i) : names[i]? = some (.string name) := by
  obtain ⟨hi, hname, -⟩ := List.findIdx?_eq_some_iff_getElem.mp h
  rw [List.getElem?_eq_getElem hi, Value.text?_eq_some.mp (of_decide_eq_true hname)]

theorem position?_lt (h : position? names name = some i) : i < names.length :=
  (List.getElem?_eq_some_iff.mp (position?_eq_some h)).1

theorem position?_eq_none : position? names name = none ↔ Value.string name ∉ names := by
  rw [position?, List.findIdx?_eq_none_iff]
  refine ⟨fun h hmem => ?_, fun h v hv => decide_eq_false fun htext => h ?_⟩
  · exact absurd rfl (of_decide_eq_false (h _ hmem))
  · rw [← Value.text?_eq_some.mp htext]
    exact hv

/-- A known name that stands somewhere stands where it is looked for. -/
theorem position?_of_getElem {known : List String} (h : NoneTwice known names) (hname : name ∈ known)
    (hi : names[i]? = some (.string name)) : position? names name = some i := by
  cases hposition : position? names name with
  | none => exact absurd (List.mem_of_getElem? hi) (position?_eq_none.mp hposition)
  | some k => rw [h name hname k i (position?_eq_some hposition) hi]

theorem position_eq_ok {list : String} :
    position list names name = .ok i ↔ position? names name = some i := by
  unfold position
  cases position? names name <;> simp

theorem pair?_eq : pair? names a b =
    (position? names a).bind fun i => (position? names b).map fun k => (i, k) := by
  unfold pair?
  cases position? names a <;> cases position? names b <;> rfl

theorem pair?_eq_some {p : ℕ × ℕ} (h : pair? names a b = some p) :
    position? names a = some p.1 ∧ position? names b = some p.2 := by
  rw [pair?_eq] at h
  obtain ⟨i, hi, h⟩ := Option.bind_eq_some_iff.mp h
  obtain ⟨k, hk, rfl⟩ := Option.map_eq_some_iff.mp h
  exact ⟨hi, hk⟩

theorem pair?_eq_none (h : pair? names a b = none) :
    ¬ (Value.string a ∈ names ∧ Value.string b ∈ names) := by
  rintro ⟨ha, hb⟩
  rw [pair?_eq] at h
  cases hi : position? names a with
  | none => exact position?_eq_none.mp hi ha
  | some i =>
    cases hk : position? names b with
    | none => exact position?_eq_none.mp hk hb
    | some k =>
      rw [hi, hk] at h
      cases h

/-- Where the columns of a vertex are found. -/
theorem vertexColumns_eq_ok {c : VertexColumns} : vertexColumns names = .ok c ↔
    position? names "source_x" = some c.sourceX ∧ position? names "source_y" = some c.sourceY ∧
      pair? names "target_x" "target_y" = c.target ∧ pair? names "source_z" "target_z" = c.heights ∧
      position? names "offset_z" = c.offsetZ ∧ names.length = c.length := by
  refine ⟨fun h => ?_, ?_⟩
  · obtain ⟨_, hx, h⟩ := bind_eq_ok h
    obtain ⟨_, hy, h⟩ := bind_eq_ok h
    cases h
    exact ⟨position_eq_ok.mp hx, position_eq_ok.mp hy, rfl, rfl, rfl, rfl⟩
  · rintro ⟨hx, hy, htarget, hheights, hoffset, hlength⟩
    simp only [vertexColumns, position_eq_ok.mpr hx, position_eq_ok.mpr hy, htarget, hheights, hoffset,
      hlength, bind, Except.bind, pure, Except.pure]

/-- Where the corners of a triangle are found. -/
theorem cornerColumns_eq_ok {c : Corners ℕ} : cornerColumns names = .ok c ↔
    position? names "idx_vertex1" = some c.first ∧ position? names "idx_vertex2" = some c.second ∧
      position? names "idx_vertex3" = some c.third := by
  refine ⟨fun h => ?_, ?_⟩
  · obtain ⟨_, hfirst, h⟩ := bind_eq_ok h
    obtain ⟨_, hsecond, h⟩ := bind_eq_ok h
    obtain ⟨_, hthird, h⟩ := bind_eq_ok h
    cases h
    exact ⟨position_eq_ok.mp hfirst, position_eq_ok.mp hsecond, position_eq_ok.mp hthird⟩
  · rintro ⟨hfirst, hsecond, hthird⟩
    simp only [cornerColumns, position_eq_ok.mpr hfirst, position_eq_ok.mpr hsecond,
      position_eq_ok.mpr hthird, bind, Except.bind, pure, Except.pure]

/-- The columns of a vertex are columns of its row. -/
theorem vertexColumns_within {c : VertexColumns} (h : vertexColumns names = .ok c) :
    ∀ p ∈ c.positions, p < names.length := by
  obtain ⟨hx, hy, htarget, hheights, hoffset, -⟩ := vertexColumns_eq_ok.mp h
  have hpair : ∀ {a b : String} {o : Option (ℕ × ℕ)}, pair? names a b = o →
      ∀ p ∈ o.toList, p.1 < names.length ∧ p.2 < names.length := by
    intro a b o ho p hp
    rw [Option.mem_toList.mp hp] at ho
    obtain ⟨h1, h2⟩ := pair?_eq_some ho
    exact ⟨position?_lt h1, position?_lt h2⟩
  intro p hp
  simp only [VertexColumns.positions, List.mem_append, List.mem_cons, List.not_mem_nil, or_false,
    List.mem_flatMap] at hp
  rcases hp with ((rfl | rfl) | ⟨q, hq, hp⟩) | hp
  · exact position?_lt hx
  · exact position?_lt hy
  · have hlt : q.1 < names.length ∧ q.2 < names.length := by
      rcases hq with hq | hq
      · exact hpair htarget q hq
      · exact hpair hheights q hq
    rcases hp with rfl | rfl
    exacts [hlt.1, hlt.2]
  · rw [Option.mem_toList.mp hp] at hoffset
    exact position?_lt hoffset

/-- The columns of the corners are columns of a triangle row. -/
theorem cornerColumns_within {c : Corners ℕ} (h : cornerColumns names = .ok c) :
    ∀ p ∈ c.toList, p < names.length := by
  obtain ⟨hfirst, hsecond, hthird⟩ := cornerColumns_eq_ok.mp h
  intro p hp
  simp only [Corners.toList, List.mem_cons, List.not_mem_nil, or_false] at hp
  rcases hp with rfl | rfl | rfl
  exacts [position?_lt hfirst, position?_lt hsecond, position?_lt hthird]

/-! ## Rows -/

section Rows

variable {τ : Type} {read : Value → Option τ}

theorem readItems_eq_some {cells : List Value} {values : List τ} :
    readItems read cells = some values ↔ cells.map read = values.map some := by
  induction cells generalizing values with
  | nil => cases values <;> simp [readItems]
  | cons v rest ih =>
    rw [readItems, List.map_cons]
    cases hv : read v with
    | none => cases values <;> simp
    | some a =>
      change ((readItems read rest).bind fun others => some (a :: others)) = some values ↔ _
      rw [Option.bind_eq_some_iff]
      cases values with
      | nil => simp
      | cons b others => simp [ih, and_comm]

theorem getElem?_of_map {cells : List Value} {values : List τ} (h : cells.map read = values.map some)
    (i : ℕ) : values[i]? = cells[i]?.bind read := by
  have hi := congrArg (fun l : List (Option τ) => l[i]?) h
  simp only [List.getElem?_map] at hi
  cases hc : cells[i]? <;> cases hv : values[i]? <;> simp_all

theorem length_of_map {cells : List Value} {values : List τ} (h : cells.map read = values.map some) :
    values.length = cells.length := by
  simpa using (congrArg List.length h).symm

/-- A row is an array whose items are read as these values. -/
def RowOf (read : Value → Option τ) (row : Value) (values : List τ) : Prop :=
  ∃ cells, row = .array cells ∧ cells.map read = values.map some

theorem readRow_eq_some {row : Value} {values : List τ} :
    readRow read row = some values ↔ RowOf read row values := by
  unfold readRow RowOf
  cases hrow : row.items? with
  | none =>
    refine ⟨nofun, ?_⟩
    rintro ⟨cells, rfl, -⟩
    cases hrow
  | some cells =>
    obtain rfl := Value.items?_eq_some.mp hrow
    change readItems read cells = some values ↔ _
    simp [readItems_eq_some]

/-- A vertex that is read from a row. -/
def ReadsVertex (c : VertexColumns) (row : Value) (v : VertexRecord) : Prop :=
  ∃ values, RowOf Value.float? row values ∧ values.length = c.length ∧ v = c.vertex values

/-- A triangle that is read from a row. -/
def ReadsCorners (columns : Corners ℕ) (length : ℕ) (row : Value) (t : Corners ℕ) : Prop :=
  ∃ indices, RowOf Value.nat? row indices ∧ indices.length = length ∧
    t = columns.map (indices.getD · 0)

/-- A reader of rows, counted from a number, that reads each row by itself and is refused by the first one
that it cannot read. -/
structure RowByRow {ρ σ ε : Type} (R : ρ → σ → Prop) (reads : ℕ → List ρ → Except ε (List σ)) : Prop where
  unique : ∀ row a b, R row a → R row b → a = b
  nil : ∀ first, reads first [] = .ok []
  cons : ∀ first row rows a, R row a →
    reads first (row :: rows) = (reads (first + 1) rows).bind fun others => .ok (a :: others)
  refused : ∀ first row rows, (∀ a, ¬ R row a) → ∃ e, reads first (row :: rows) = .error e

namespace RowByRow

variable {ρ σ ε : Type} {R : ρ → σ → Prop} {reads : ℕ → List ρ → Except ε (List σ)}

theorem eq_ok (h : RowByRow R reads) {rows : List ρ} {values : List σ} {first : ℕ} :
    reads first rows = .ok values ↔ List.Forall₂ R rows values := by
  induction rows generalizing first values with
  | nil => rw [h.nil, List.forall₂_nil_left_iff, Except.ok.injEq, eq_comm]
  | cons row rows ih =>
    rw [List.forall₂_cons_left_iff]
    by_cases hrow : ∃ a, R row a
    · obtain ⟨a, ha⟩ := hrow
      rw [h.cons first row rows a ha]
      cases hrest : reads (first + 1) rows with
      | error e =>
        refine ⟨nofun, ?_⟩
        rintro ⟨b, others, -, hothers, rfl⟩
        rw [ih.mpr hothers] at hrest
        cases hrest
      | ok others =>
        refine ⟨?_, ?_⟩
        · rintro ⟨⟩
          exact ⟨a, others, ha, ih.mp hrest, rfl⟩
        · rintro ⟨b, others', hb, hothers, rfl⟩
          rw [ih.mpr hothers] at hrest
          cases hrest
          rw [h.unique row b a hb ha]
          rfl
    · obtain ⟨e, he⟩ := h.refused first row rows (not_exists.mp hrow)
      rw [he]
      refine ⟨nofun, ?_⟩
      rintro ⟨a, -, ha, -⟩
      exact absurd ⟨a, ha⟩ hrow

/-- What refuses a row refuses the rows that start with rows that are read. -/
theorem error_append (h : RowByRow R reads) {pre rest : List ρ} (hpre : ∀ row ∈ pre, ∃ a, R row a)
    {first : ℕ} {e : ε} (he : reads (first + pre.length) rest = .error e) :
    reads first (pre ++ rest) = .error e := by
  induction pre generalizing first with
  | nil => exact he
  | cons row pre ih =>
    rw [List.forall_mem_cons] at hpre
    obtain ⟨⟨a, ha⟩, hpre⟩ := hpre
    rw [List.length_cons, Nat.add_comm pre.length 1, ← Nat.add_assoc] at he
    rw [List.cons_append, h.cons first row _ a ha, ih hpre he]
    rfl

end RowByRow

variable {c : VertexColumns} {columns : Corners ℕ} {length : ℕ} {row : Value} {rows : List Value}

/-- A row of numbers of another length is refused. -/
theorem readVertices_length {values : List Float} (hvalues : RowOf Value.float? row values)
    (hlength : values.length ≠ c.length) (first : ℕ) :
    readVertices c first (row :: rows) = .error (.vertexLength first values.length c.length) := by
  rw [readVertices, readRow_eq_some.mpr hvalues]
  change (c.record? first values).bind _ = _
  rw [VertexColumns.record?_eq, if_pos hlength]
  rfl

theorem readVertices_rowByRow (c : VertexColumns) : RowByRow (ReadsVertex c) (readVertices c) where
  unique := by
    rintro row _ _ ⟨values, hvalues, -, rfl⟩ ⟨values', hvalues', -, rfl⟩
    rw [← readRow_eq_some] at hvalues hvalues'
    rw [hvalues] at hvalues'
    injection hvalues' with h
    rw [h]
  nil _ := rfl
  cons := by
    rintro first row rows _ ⟨values, hvalues, hlength, rfl⟩
    rw [readVertices, readRow_eq_some.mpr hvalues]
    change (c.record? first values).bind _ = _
    rw [VertexColumns.record?_eq, if_neg (not_not_intro hlength)]
    rfl
  refused := by
    intro first row rows h
    cases hread : readRow Value.float? row with
    | none => exact ⟨_, by rw [readVertices, hread]⟩
    | some values =>
      rw [readRow_eq_some] at hread
      exact ⟨_, readVertices_length hread (fun hlength => h _ ⟨values, hread, hlength, rfl⟩) first⟩

/-- A row that is no row of as many indices as there are columns is refused. -/
theorem readTriangles_refused (h : ∀ t, ¬ ReadsCorners columns length row t) (first : ℕ) :
    readTriangles columns length first (row :: rows) = .error (.triangleNotIndices first) := by
  have hnone : (readRow Value.nat? row).filter (fun indices => indices.length = length) = none := by
    rw [Option.filter_eq_none_iff]
    intro indices hindices hlength
    exact h _ ⟨indices, readRow_eq_some.mp hindices, of_decide_eq_true hlength, rfl⟩
  rw [readTriangles, hnone]

theorem readTriangles_rowByRow (columns : Corners ℕ) (length : ℕ) :
    RowByRow (ReadsCorners columns length) (readTriangles columns length) where
  unique := by
    rintro row _ _ ⟨indices, hindices, -, rfl⟩ ⟨indices', hindices', -, rfl⟩
    rw [← readRow_eq_some] at hindices hindices'
    rw [hindices] at hindices'
    injection hindices' with h
    rw [h]
  nil _ := rfl
  cons := by
    rintro first row rows _ ⟨indices, hindices, hlength, rfl⟩
    rw [readTriangles, readRow_eq_some.mpr hindices, Option.filter_some_pos (by simpa using hlength)]
    rfl
  refused first _ _ h := ⟨_, readTriangles_refused h first⟩

/-! ## Values by name -/

/-- The value of a row under the name of a column. -/
def Under (read : Value → Option τ) (names cells : List Value) (name : String) (a : τ) : Prop :=
  Value.string name ∈ names ∧
    ∀ i : ℕ, names[i]? = some (.string name) → cells[i]?.bind read = some a

theorem under_of_position {known : List String} {cells : List Value} {values : List τ} {a : τ}
    (honce : NoneTwice known names) (hname : name ∈ known)
    (hcells : cells.map read = values.map some) (hi : position? names name = some i)
    (ha : values[i]? = some a) : Under read names cells name a := by
  have hstands := position?_eq_some hi
  refine ⟨List.mem_of_getElem? hstands, fun k hk => ?_⟩
  rw [honce name hname k i hk hstands, ← getElem?_of_map hcells, ha]

end Rows

/-- A vertex with the values of a row under the names of the columns. -/
structure VertexByName (names cells : List Value) (v : VertexRecord) : Prop where
  sourceX : Under Value.float? names cells "source_x" v.source.x
  sourceY : Under Value.float? names cells "source_y" v.source.y
  target : match v.target with
    | some t => Under Value.float? names cells "target_x" t.x ∧
        Under Value.float? names cells "target_y" t.y
    | none => ¬ (Value.string "target_x" ∈ names ∧ Value.string "target_y" ∈ names)
  heights : match v.sourceZ, v.targetZ with
    | some s, some t => Under Value.float? names cells "source_z" s ∧
        Under Value.float? names cells "target_z" t
    | none, none => ¬ (Value.string "source_z" ∈ names ∧ Value.string "target_z" ∈ names)
    | _, _ => False
  offset : match v.offsetZ with
    | some o => Under Value.float? names cells "offset_z" o
    | none => Value.string "offset_z" ∉ names

/-- A triangle with the indices of a row under the names of the columns. -/
structure CornersByName (names cells : List Value) (t : Corners ℕ) : Prop where
  first : Under Value.nat? names cells "idx_vertex1" t.first
  second : Under Value.nat? names cells "idx_vertex2" t.second
  third : Under Value.nat? names cells "idx_vertex3" t.third

theorem source_vertex (c : VertexColumns) (row : List Float) :
    (c.vertex row).source = ⟨VertexColumns.value row c.sourceX, VertexColumns.value row c.sourceY⟩ := by
  change Point.mk (Float.ofBits (Float.toBits _)) (Float.ofBits (Float.toBits _)) = _
  rw [Float.ofBits_toBits, Float.ofBits_toBits]

theorem getElem?_value {row : List Float} (h : i < row.length) :
    row[i]? = some (VertexColumns.value row i) := by
  rw [VertexColumns.value, List.getD_eq_getElem?_getD, List.getElem?_eq_getElem h]
  rfl

/-- A vertex that is read from a row has the values of the row under the known names. -/
theorem ReadsVertex.byName {c : VertexColumns} {row : Value} {v : VertexRecord}
    (hread : ReadsVertex c row v) (hc : vertexColumns names = .ok c)
    (honce : NoneTwice vertexNames names) :
    ∃ cells, row = .array cells ∧ VertexByName names cells v := by
  obtain ⟨values, ⟨cells, rfl, hcells⟩, hlength, rfl⟩ := hread
  obtain ⟨hx, hy, htarget, hheights, hoffset, hnames⟩ := vertexColumns_eq_ok.mp hc
  have hunder : ∀ {name : String} {i : ℕ}, name ∈ vertexNames → position? names name = some i →
      Under Value.float? names cells name (VertexColumns.value values i) := by
    intro name i hname hi
    refine under_of_position honce hname hcells hi (getElem?_value ?_)
    rw [hlength, ← hnames]
    exact position?_lt hi
  refine ⟨cells, rfl, ?_, ?_, ?_, ?_, ?_⟩
  · rw [source_vertex]
    exact hunder (by simp [vertexNames]) hx
  · rw [source_vertex]
    exact hunder (by simp [vertexNames]) hy
  · unfold VertexColumns.vertex
    cases ht : c.target with
    | none => exact pair?_eq_none (htarget.trans ht)
    | some t =>
      obtain ⟨h1, h2⟩ := pair?_eq_some (htarget.trans ht)
      exact ⟨hunder (by simp [vertexNames]) h1, hunder (by simp [vertexNames]) h2⟩
  · unfold VertexColumns.vertex
    cases hh : c.heights with
    | none => exact pair?_eq_none (hheights.trans hh)
    | some t =>
      obtain ⟨h1, h2⟩ := pair?_eq_some (hheights.trans hh)
      exact ⟨hunder (by simp [vertexNames]) h1, hunder (by simp [vertexNames]) h2⟩
  · unfold VertexColumns.vertex
    cases ho : c.offsetZ with
    | none => exact position?_eq_none.mp (hoffset.trans ho)
    | some o => exact hunder (by simp [vertexNames]) (hoffset.trans ho)

/-- A triangle that is read from a row has the indices of the row under the known names. -/
theorem ReadsCorners.byName {columns : Corners ℕ} {row : Value} {t : Corners ℕ}
    (hread : ReadsCorners columns names.length row t) (hcolumns : cornerColumns names = .ok columns)
    (honce : NoneTwice cornerNames names) :
    ∃ cells, row = .array cells ∧ CornersByName names cells t := by
  obtain ⟨indices, ⟨cells, rfl, hcells⟩, hlength, rfl⟩ := hread
  obtain ⟨hfirst, hsecond, hthird⟩ := cornerColumns_eq_ok.mp hcolumns
  have hunder : ∀ {name : String} {i : ℕ}, name ∈ cornerNames → position? names name = some i →
      Under Value.nat? names cells name (indices.getD i 0) := by
    intro name i hname hi
    refine under_of_position honce hname hcells hi ?_
    have hlt : i < indices.length := by
      rw [hlength]
      exact position?_lt hi
    rw [List.getD_eq_getElem?_getD, List.getElem?_eq_getElem hlt]
    rfl
  exact ⟨cells, rfl, hunder (by simp [cornerNames]) hfirst, hunder (by simp [cornerNames]) hsecond,
    hunder (by simp [cornerNames]) hthird⟩

/-! ## Columns elsewhere -/

section Placed

variable {τ : Type} {read : Value → Option τ} {σ : ℕ → ℕ} {known : List String}

/-- Each column of a list stands in another list at the place that is given for it, and all columns there
that have a known name are such.  If the places are all there are, the columns are permuted; otherwise
others are added. -/
structure Placed (known : List String) (σ : ℕ → ℕ) (names names' : List Value) : Prop where
  stands : ∀ (i : ℕ) v, names[i]? = some v → names'[σ i]? = some v
  known_old : ∀ (k : ℕ), ∀ name ∈ known, names'[k]? = some (.string name) → ∃ i < names.length, σ i = k

/-- Each value of a row stands in another row at the place of its column, and the other values there are
of a kind. -/
def RowPlaced (kind : Value → Prop) (σ : ℕ → ℕ) (names names' : List Value) (row row' : Value) :
    Prop :=
  ∀ cells, row = .array cells → ∃ cells', row' = .array cells' ∧ cells'.length = names'.length ∧
    (∀ (i : ℕ) v, cells[i]? = some v → cells'[σ i]? = some v) ∧
    ∀ (k : ℕ) v, cells'[k]? = some v → (∃ i < names.length, σ i = k) ∨ kind v

/-- A column of a known name in the other list stands there for one of this name. -/
theorem Placed.exists_old (h : Placed known σ names names') (hname : name ∈ known)
    (hk : names'[k]? = some (.string name)) : ∃ i, σ i = k ∧ names[i]? = some (.string name) := by
  obtain ⟨i, hi, rfl⟩ := h.known_old k name hname hk
  refine ⟨i, rfl, ?_⟩
  have hstands := h.stands i _ (List.getElem?_eq_getElem hi)
  rw [hk] at hstands
  rw [List.getElem?_eq_getElem hi, hstands]

theorem Placed.noneTwice (h : Placed known σ names names') (honce : NoneTwice known names) :
    NoneTwice known names' := by
  intro name hname k k' hk hk'
  obtain ⟨i, rfl, hi⟩ := h.exists_old hname hk
  obtain ⟨i', rfl, hi'⟩ := h.exists_old hname hk'
  rw [honce name hname i i' hi hi']

/-- A known name stands where its column is placed. -/
theorem Placed.position? (h : Placed known σ names names') (honce : NoneTwice known names)
    (hname : name ∈ known) : position? names' name = (position? names name).map σ := by
  cases hi : Exchange.position? names name with
  | some i => exact position?_of_getElem (h.noneTwice honce) hname (h.stands i _ (position?_eq_some hi))
  | none =>
    refine position?_eq_none.mpr fun hmem => position?_eq_none.mp hi ?_
    obtain ⟨k, hk⟩ := List.mem_iff_getElem?.mp hmem
    obtain ⟨i, -, hi⟩ := h.exists_old hname hk
    exact List.mem_of_getElem? hi

theorem Placed.pair? (h : Placed known σ names names') (honce : NoneTwice known names)
    (ha : a ∈ known) (hb : b ∈ known) :
    pair? names' a b = (pair? names a b).map (Prod.map σ σ) := by
  rw [pair?_eq, pair?_eq, h.position? honce ha, h.position? honce hb]
  cases Exchange.position? names a <;> cases Exchange.position? names b <;> rfl

theorem vertexColumns_placed {c : VertexColumns} (hc : vertexColumns names = .ok c)
    (h : Placed vertexNames σ names names') (honce : NoneTwice vertexNames names) :
    vertexColumns names' = .ok (c.place σ names'.length) := by
  obtain ⟨hx, hy, htarget, hheights, hoffset, -⟩ := vertexColumns_eq_ok.mp hc
  have hmem : ∀ name ∈ vertexNames, position? names' name = (position? names name).map σ :=
    fun name hname => h.position? honce hname
  refine vertexColumns_eq_ok.mpr ⟨?_, ?_, ?_, ?_, ?_, rfl⟩
  · rw [hmem _ (by simp [vertexNames]), hx]
    rfl
  · rw [hmem _ (by simp [vertexNames]), hy]
    rfl
  · rw [h.pair? honce (by simp [vertexNames]) (by simp [vertexNames]), htarget]
    rfl
  · rw [h.pair? honce (by simp [vertexNames]) (by simp [vertexNames]), hheights]
    rfl
  · rw [hmem _ (by simp [vertexNames]), hoffset]
    rfl

theorem cornerColumns_placed {c : Corners ℕ} (hc : cornerColumns names = .ok c)
    (h : Placed cornerNames σ names names') (honce : NoneTwice cornerNames names) :
    cornerColumns names' = .ok (c.map σ) := by
  obtain ⟨hfirst, hsecond, hthird⟩ := cornerColumns_eq_ok.mp hc
  refine cornerColumns_eq_ok.mpr ⟨?_, ?_, ?_⟩
  · rw [h.position? honce (by simp [cornerNames]), hfirst]
    rfl
  · rw [h.position? honce (by simp [cornerNames]), hsecond]
    rfl
  · rw [h.position? honce (by simp [cornerNames]), hthird]
    rfl

theorem exists_values {cells : List Value} (h : ∀ v ∈ cells, (read v).isSome = true) :
    ∃ values : List τ, cells.map read = values.map some := by
  induction cells with
  | nil => exact ⟨[], rfl⟩
  | cons v rest ih =>
    rw [List.forall_mem_cons] at h
    obtain ⟨a, ha⟩ := Option.isSome_iff_exists.mp h.1
    obtain ⟨values, hvalues⟩ := ih h.2
    exact ⟨a :: values, by rw [List.map_cons, ha, hvalues, List.map_cons]⟩

/-- What holds between the items of two lists passes on to a third list along them. -/
theorem forall₂_transfer {ρ ρ' υ : Type} {P : ρ → ρ' → Prop} {Q : ρ → υ → Prop} {Q' : ρ' → υ → Prop}
    {as : List ρ} {bs : List ρ'} {cs : List υ} (hab : List.Forall₂ P as bs)
    (hac : List.Forall₂ Q as cs) (h : ∀ {a b c}, P a b → Q a c → Q' b c) : List.Forall₂ Q' bs cs := by
  induction hab generalizing cs with
  | nil =>
    cases hac
    exact .nil
  | cons hp _ ih =>
    cases hac with
    | cons hq hac => exact .cons (h hp hq) (ih hac)

/-- The values of a row are found in the other one. -/
theorem RowOf.placed {row row' : Value} {values : List τ} (hrow : RowOf read row values)
    (hlength : values.length = names.length)
    (h : RowPlaced (fun v => (read v).isSome = true) σ names names' row row') :
    ∃ values', RowOf read row' values' ∧ values'.length = names'.length ∧
      ∀ p < names.length, values'[σ p]? = values[p]? := by
  obtain ⟨cells, rfl, hcells⟩ := hrow
  obtain ⟨cells', rfl, hlength', hstands, hadded⟩ := h cells rfl
  have hcount : cells.length = names.length := by rw [← length_of_map hcells, hlength]
  have hsame : ∀ p < names.length, cells'[σ p]? = cells[p]? := by
    intro p hp
    rw [← hcount] at hp
    rw [hstands p _ (List.getElem?_eq_getElem hp), List.getElem?_eq_getElem hp]
  have hread : ∀ v ∈ cells', (read v).isSome = true := by
    intro v hv
    obtain ⟨k, hk⟩ := List.mem_iff_getElem?.mp hv
    rcases hadded k v hk with ⟨i, hi, rfl⟩ | hsome
    · rw [hsame i hi] at hk
      have hvalue := getElem?_of_map hcells i
      rw [hk, List.getElem?_eq_getElem (by rwa [hlength])] at hvalue
      exact Option.isSome_iff_exists.mpr ⟨_, hvalue.symm⟩
    · exact hsome
  obtain ⟨values', hvalues'⟩ := exists_values hread
  refine ⟨values', ⟨cells', rfl, hvalues'⟩, by rw [length_of_map hvalues', hlength'], fun p hp => ?_⟩
  rw [getElem?_of_map hvalues', getElem?_of_map hcells, hsame p hp]

theorem RowPlaced.imp {kind kind' : Value → Prop} {row row' : Value}
    (h : RowPlaced kind σ names names' row row')
    (hkind : ∀ cells', row' = .array cells' → ∀ v ∈ cells', kind v → kind' v) :
    RowPlaced kind' σ names names' row row' := by
  intro cells hcells
  obtain ⟨cells', rfl, hlength, hstands, hadded⟩ := h cells hcells
  refine ⟨cells', rfl, hlength, hstands, fun k v hk => (hadded k v hk).imp_right ?_⟩
  exact hkind cells' rfl v (List.mem_of_getElem? hk)

theorem ReadsVertex.placed {c : VertexColumns} {row row' : Value} {v : VertexRecord}
    (hread : ReadsVertex c row v) (hc : vertexColumns names = .ok c)
    (h : RowPlaced (fun v => v.float?.isSome = true) σ names names' row row') :
    ReadsVertex (c.place σ names'.length) row' v := by
  obtain ⟨values, hvalues, hlength, rfl⟩ := hread
  have hnames := (vertexColumns_eq_ok.mp hc).2.2.2.2.2
  obtain ⟨values', hvalues', hlength', hsame⟩ := hvalues.placed (hlength.trans hnames.symm) h
  exact ⟨values', hvalues', hlength',
    (VertexColumns.vertex_place fun p hp => hsame p (vertexColumns_within hc p hp)).symm⟩

theorem ReadsCorners.placed {columns : Corners ℕ} {row row' : Value} {t : Corners ℕ}
    (hread : ReadsCorners columns names.length row t) (hcolumns : cornerColumns names = .ok columns)
    (h : RowPlaced (fun v => v.nat?.isSome = true) σ names names' row row') :
    ReadsCorners (columns.map σ) names'.length row' t := by
  obtain ⟨indices, hindices, hlength, rfl⟩ := hread
  obtain ⟨indices', hindices', hlength', hsame⟩ := hindices.placed hlength h
  refine ⟨indices', hindices', hlength', ?_⟩
  have hvalue : ∀ p ∈ columns.toList, indices.getD p 0 = indices'.getD (σ p) 0 := by
    intro p hp
    rw [List.getD_eq_getElem?_getD, List.getD_eq_getElem?_getD,
      hsame p (cornerColumns_within hcolumns p hp)]
  simp only [Corners.toList, List.forall_mem_cons, List.not_mem_nil, false_implies, implies_true,
    and_true] at hvalue
  obtain ⟨hfirst, hsecond, hthird⟩ := hvalue
  simp only [Corners.map, hfirst, hsecond, hthird]

end Placed

/-! ## Documents -/

/-- The columns and the rows of a document. -/
structure Tables where
  vertexNames : List Value
  vertexRows : List Value
  cornerNames : List Value
  triangleRows : List Value

/-- The keys of the columns and the rows. -/
def tableKeys : List String := ["vertices_columns", "vertices", "triangles_columns", "triangles"]

namespace Tables

/-- The columns and the rows are those of the fields. -/
structure Of (t : Tables) (j : Fields) : Prop where
  vertexNames : j.get? "vertices_columns" = some (.array t.vertexNames)
  vertexRows : j.get? "vertices" = some (.array t.vertexRows)
  cornerNames : j.get? "triangles_columns" = some (.array t.cornerNames)
  triangleRows : j.get? "triangles" = some (.array t.triangleRows)

/-- No known name stands twice in either list of columns. -/
def NoneTwice (t : Tables) : Prop :=
  Exchange.NoneTwice Exchange.vertexNames t.vertexNames ∧
    Exchange.NoneTwice Exchange.cornerNames t.cornerNames

/-- The columns stand elsewhere in other tables, with their values in each row, and the columns that are
added there have other names, numbers in each vertex row and non-negative integers in each triangle row. -/
def PlacedIn (t t' : Tables) : Prop :=
  (∃ σ, Placed Exchange.vertexNames σ t.vertexNames t'.vertexNames ∧
    List.Forall₂ (RowPlaced (fun v => ∃ n, v = .number n) σ t.vertexNames t'.vertexNames)
      t.vertexRows t'.vertexRows) ∧
  ∃ σ, Placed Exchange.cornerNames σ t.cornerNames t'.cornerNames ∧
    List.Forall₂ (RowPlaced (fun v => ∃ n : ℕ, v = .number (.whole n)) σ t.cornerNames t'.cornerNames)
      t.triangleRows t'.triangleRows

end Tables

variable {j j' : Fields}

theorem text_congr {key : String} (h : j'.get? key = j.get? key) : text j' key = text j key := by
  unfold text
  rw [h]

theorem items_congr {key : String} (h : j'.get? key = j.get? key) : items j' key = items j key := by
  unfold items
  rw [h]

/-- The checks that a heading has passed are all that it takes. -/
theorem Heading.DeclaredBy.heading? {heading : Heading} (h : heading.DeclaredBy j) :
    heading? j = .ok heading := by
  obtain ⟨version, hversion, hsupported⟩ := h.version
  obtain ⟨names, hnames, hcomponents⟩ := h.components
  obtain ⟨columnNames, hcolumnNames, hcolumns⟩ := h.columns
  obtain ⟨cornerNames, hcornerNames, hcorners, hcount⟩ := h.corners
  have htargets : (heading.components.horizontal && heading.columns.target.isNone) = false := by
    cases hh : heading.components.horizontal with
    | false => rfl
    | true =>
      obtain ⟨target, htarget⟩ := Option.isSome_iff_exists.mp (h.targets hh)
      rw [htarget]
      rfl
  simp only [Exchange.heading?, h.fileType, hversion, hsupported, hnames, hcomponents, hcolumnNames,
    hcolumns, htargets, h.vertical, hcornerNames, hcorners, ← hcount, bind, Except.bind, pure,
    Except.pure, ne_eq, not_true, Bool.not_true, Bool.false_eq_true, if_false]

/-- The heading of a document whose columns stand elsewhere. -/
def Heading.place (h : Heading) (σ ρ : ℕ → ℕ) (t : Tables) : Heading :=
  { h with
    columns := h.columns.place σ t.vertexNames.length
    corners := h.corners.map ρ
    cornerCount := t.cornerNames.length }

/-- Where a heading finds the columns of the tables of its document. -/
structure Heading.Finds (h : Heading) (t : Tables) : Prop where
  columns : vertexColumns t.vertexNames = .ok h.columns
  corners : cornerColumns t.cornerNames = .ok h.corners
  count : h.cornerCount = t.cornerNames.length

theorem Heading.DeclaredBy.finds {heading : Heading} {t : Tables} (h : heading.DeclaredBy j)
    (ht : t.Of j) : heading.Finds t := by
  obtain ⟨columnNames, hcolumnNames, hcolumns⟩ := h.columns
  obtain ⟨cornerNames, hcornerNames, hcorners, hcount⟩ := h.corners
  rw [items_eq_ok.mpr ht.vertexNames] at hcolumnNames
  rw [items_eq_ok.mpr ht.cornerNames] at hcornerNames
  cases hcolumnNames
  cases hcornerNames
  exact ⟨hcolumns, hcorners, hcount⟩

theorem Heading.DeclaredBy.place {heading : Heading} {t t' : Tables} {σ ρ : ℕ → ℕ}
    (h : heading.DeclaredBy j) (ht : t.Of j) (ht' : t'.Of j') (honce : t.NoneTwice)
    (hσ : Placed vertexNames σ t.vertexNames t'.vertexNames)
    (hρ : Placed Exchange.cornerNames ρ t.cornerNames t'.cornerNames)
    (hkeys : ∀ key, key ∉ tableKeys → j'.get? key = j.get? key) :
    (heading.place σ ρ t').DeclaredBy j' := by
  obtain ⟨hcolumns, hcorners, -⟩ := h.finds ht
  have hencoding : ∀ vertical, encoding vertical (heading.columns.place σ t'.vertexNames.length) =
      encoding vertical heading.columns := by
    intro vertical
    simp only [encoding, VertexColumns.place, Option.isSome_map]
  refine ⟨?_, ?_, ?_, ⟨_, items_eq_ok.mpr ht'.vertexNames, vertexColumns_placed hcolumns hσ honce.1⟩,
    fun hh => ?_, (hencoding _).trans h.vertical,
    ⟨_, items_eq_ok.mpr ht'.cornerNames, cornerColumns_placed hcorners hρ honce.2, rfl⟩⟩
  · rw [text_congr (hkeys "file_type" (by simp [tableKeys]))]
    exact h.fileType
  · rw [text_congr (hkeys "format_version" (by simp [tableKeys]))]
    exact h.version
  · rw [items_congr (hkeys "transformed_components" (by simp [tableKeys]))]
    exact h.components
  · rw [Heading.place, VertexColumns.place, Option.isSome_map]
    exact h.targets hh

/-- The draft of fields has the vertices and the triangles of the rows of its tables. -/
theorem readFrom_rows {d : MeshDraft} {heading : Heading} {t : Tables} (h : d.ReadFrom j heading)
    (ht : t.Of j) : List.Forall₂ (ReadsVertex heading.columns) t.vertexRows d.vertices ∧
      List.Forall₂ (ReadsCorners heading.corners t.cornerNames.length) t.triangleRows d.triangles := by
  obtain ⟨rows, hrows, hvertices⟩ := h.vertices
  obtain ⟨rows', hrows', htriangles⟩ := h.triangles
  rw [items_eq_ok.mpr ht.vertexRows] at hrows
  rw [items_eq_ok.mpr ht.triangleRows] at hrows'
  cases hrows
  cases hrows'
  rw [((heading?_eq_ok h.declared).finds ht).count] at htriangles
  exact ⟨(readVertices_rowByRow _).eq_ok.mp hvertices, (readTriangles_rowByRow _ _).eq_ok.mp htriangles⟩

/-- What is added to the rows of a document can be read: its whole numbers fit 64 bits. -/
theorem Tables.PlacedIn.readable {t t' : Tables} (h : t.PlacedIn t') (ht' : t'.Of j')
    (hsized : (Value.object j').All Number.Sized) :
    (∃ σ, Placed Exchange.vertexNames σ t.vertexNames t'.vertexNames ∧
      List.Forall₂ (RowPlaced (fun v => v.float?.isSome = true) σ t.vertexNames t'.vertexNames)
        t.vertexRows t'.vertexRows) ∧
    ∃ σ, Placed Exchange.cornerNames σ t.cornerNames t'.cornerNames ∧
      List.Forall₂ (RowPlaced (fun v => v.nat?.isSome = true) σ t.cornerNames t'.cornerNames)
        t.triangleRows t'.triangleRows := by
  obtain ⟨⟨σ, hσ, hvertexRows⟩, ρ, hρ, htriangleRows⟩ := h
  have hnumbers : ∀ row row', RowPlaced (fun v => ∃ n, v = .number n) σ t.vertexNames t'.vertexNames
      row row' → RowPlaced (fun v => v.float?.isSome = true) σ t.vertexNames t'.vertexNames row row' := by
    intro row row' hrow
    refine RowPlaced.imp hrow ?_
    rintro _ - _ - ⟨n, rfl⟩
    rfl
  have hindices : ∀ row' row, row'.All Number.Sized ∧ flip (RowPlaced
      (fun v => ∃ n : ℕ, v = .number (.whole n)) ρ t.cornerNames t'.cornerNames) row' row →
      flip (RowPlaced (fun v => v.nat?.isSome = true) ρ t.cornerNames t'.cornerNames) row' row := by
    rintro row' row ⟨hall, hrow⟩
    refine RowPlaced.imp hrow ?_
    rintro cells' rfl _ hv ⟨n, rfl⟩
    rw [(hall.of_mem hv).nat?_whole]
    rfl
  have hrows : ∀ row' ∈ t'.triangleRows, row'.All Number.Sized :=
    fun row' hrow' => (hsized.of_get? ht'.triangleRows).of_mem hrow'
  have hboth := (List.forall₂_and_left _ _).mpr ⟨hrows, htriangleRows.flip⟩
  exact ⟨⟨σ, hσ, hvertexRows.imp hnumbers⟩, ρ, hρ, (hboth.imp hindices).flip⟩

/-- The draft of a document whose columns stand elsewhere is the same. -/
theorem ofFields?_placed {d : MeshDraft} {t t' : Tables} (h : MeshDraft.ofFields? j = .ok d)
    (ht : t.Of j) (ht' : t'.Of j') (honce : t.NoneTwice) (hplaced : t.PlacedIn t')
    (hsized : (Value.object j').All Number.Sized)
    (hkeys : ∀ key, key ∉ tableKeys → j'.get? key = j.get? key) :
    MeshDraft.ofFields? j' = .ok d := by
  obtain ⟨⟨σ, hσ, hvertexRows⟩, ρ, hρ, htriangleRows⟩ := hplaced.readable ht' hsized
  obtain ⟨heading, hread⟩ := MeshDraft.ofFields?_eq_ok h
  have hdeclared := heading?_eq_ok hread.declared
  obtain ⟨hcolumns, hcorners, hcount⟩ := hdeclared.finds ht
  obtain ⟨hvertices, htriangles⟩ := readFrom_rows hread ht
  have hheading := (hdeclared.place ht ht' honce hσ hρ hkeys).heading?
  have hvertices' : readVertices (heading.place σ ρ t').columns 0 t'.vertexRows = .ok d.vertices :=
    (readVertices_rowByRow _).eq_ok.mpr
      (forall₂_transfer hvertexRows hvertices fun hrow hv => hv.placed hcolumns hrow)
  have htriangles' : readTriangles (heading.place σ ρ t').corners (heading.place σ ρ t').cornerCount 0
      t'.triangleRows = .ok d.triangles :=
    (readTriangles_rowByRow _ _).eq_ok.mpr
      (forall₂_transfer htriangleRows htriangles fun hrow hv => hv.placed hcorners hrow)
  replace hvertices : readVertices heading.columns 0 t.vertexRows = .ok d.vertices :=
    (readVertices_rowByRow _).eq_ok.mpr hvertices
  replace htriangles : readTriangles heading.corners heading.cornerCount 0 t.triangleRows =
      .ok d.triangles := by
    rw [hcount]
    exact (readTriangles_rowByRow _ _).eq_ok.mpr htriangles
  have hmesh : ∀ fallback, mesh? j' (heading.place σ ρ t') fallback = mesh? j heading fallback := by
    intro fallback
    simp only [mesh?, text_congr (hkeys "input_crs" (by simp [tableKeys])),
      text_congr (hkeys "output_crs" (by simp [tableKeys])), items_eq_ok.mpr ht.vertexRows,
      items_eq_ok.mpr ht'.vertexRows, items_eq_ok.mpr ht.triangleRows,
      items_eq_ok.mpr ht'.triangleRows, hvertices, hvertices', htriangles, htriangles', bind,
      Except.bind]
    rfl
  rw [← h, MeshDraft.ofFields?, MeshDraft.ofFields?, hheading, hread.declared]
  simp only [MeshDraft.lift, bind, Except.bind, hmesh, MeshDraft.readFallback,
    text_congr (hkeys "fallback_strategy" (by simp [tableKeys]))]

/-! ## No row is read beyond its end -/

/-- No row is read beyond its end: a row is refused where its length is not the number of columns, and
the columns that any other row is read at are columns of it. -/
structure Heading.IndexSafe (h : Heading) (vertexColumns cornerColumns : ℕ) : Prop where
  vertex : ∀ i values,
    values.length ≠ vertexColumns ∧
        h.columns.record? i values = .error (.vertexLength i values.length vertexColumns) ∨
      h.columns.record? i values = .ok (h.columns.vertex values) ∧
        ∀ p ∈ h.columns.positions, p < values.length
  triangle : ∀ first row rest,
    readTriangles h.corners h.cornerCount first (row :: rest) = .error (.triangleNotIndices first) ∨
      ∃ indices, readRow Value.nat? row = some indices ∧ ∀ p ∈ h.corners.toList, p < indices.length
  vertexRows : ∀ pre row rest values, (∀ r ∈ pre, ∃ v, ReadsVertex h.columns r v) →
    readRow Value.float? row = some values → values.length ≠ vertexColumns →
    readVertices h.columns 0 (pre ++ row :: rest) =
      .error (.vertexLength pre.length values.length vertexColumns)
  triangleRows : ∀ pre row rest indices,
    (∀ r ∈ pre, ∃ c, ReadsCorners h.corners h.cornerCount r c) →
    readRow Value.nat? row = some indices → indices.length ≠ cornerColumns →
    readTriangles h.corners h.cornerCount 0 (pre ++ row :: rest) =
      .error (.triangleNotIndices pre.length)

theorem indexSafe {heading : Heading} {vertexNames cornerNames : List Value}
    (hcolumns : vertexColumns vertexNames = .ok heading.columns)
    (hcorners : cornerColumns cornerNames = .ok heading.corners)
    (hcount : heading.cornerCount = cornerNames.length) :
    heading.IndexSafe vertexNames.length cornerNames.length := by
  have hlength : vertexNames.length = heading.columns.length :=
    (vertexColumns_eq_ok.mp hcolumns).2.2.2.2.2
  refine ⟨fun i values => ?_, fun first row rest => ?_, fun pre row rest values hpre hvalues hne => ?_,
    fun pre row rest indices hpre hindices hne => ?_⟩
  · rw [hlength, VertexColumns.record?_eq]
    by_cases heq : values.length = heading.columns.length
    · refine Or.inr ⟨if_neg (not_not_intro heq), fun p hp => ?_⟩
      rw [heq, ← hlength]
      exact vertexColumns_within hcolumns p hp
    · exact Or.inl ⟨heq, if_pos heq⟩
  · by_cases hrow : ∃ c, ReadsCorners heading.corners heading.cornerCount row c
    · obtain ⟨_, indices, hindices, heq, -⟩ := hrow
      refine Or.inr ⟨indices, readRow_eq_some.mpr hindices, fun p hp => ?_⟩
      rw [heq, hcount]
      exact cornerColumns_within hcorners p hp
    · exact Or.inl (readTriangles_refused (not_exists.mp hrow) first)
  · rw [hlength] at hne ⊢
    refine (readVertices_rowByRow _).error_append hpre ?_
    rw [Nat.zero_add, readVertices_length (readRow_eq_some.mp hvalues) hne]
  · have hrefused : ∀ t, ¬ ReadsCorners heading.corners heading.cornerCount row t := by
      rintro t ⟨indices', hindices', heq, -⟩
      rw [← readRow_eq_some, hindices] at hindices'
      cases hindices'
      exact hne (heq.trans hcount)
    refine (readTriangles_rowByRow _ _).error_append hpre ?_
    rw [Nat.zero_add, readTriangles_refused hrefused]

/-- The fields of an accepted document have tables. -/
theorem exists_tables {d : MeshDraft} {heading : Heading} (h : d.ReadFrom j heading) :
    ∃ t : Tables, t.Of j := by
  have hdeclared := heading?_eq_ok h.declared
  obtain ⟨vertexNames, hvertexNames, -⟩ := hdeclared.columns
  obtain ⟨cornerNames, hcornerNames, -⟩ := hdeclared.corners
  obtain ⟨vertexRows, hvertexRows, -⟩ := h.vertices
  obtain ⟨triangleRows, htriangleRows, -⟩ := h.triangles
  exact ⟨⟨vertexNames, vertexRows, cornerNames, triangleRows⟩, items_eq_ok.mp hvertexNames,
    items_eq_ok.mp hvertexRows, items_eq_ok.mp hcornerNames, items_eq_ok.mp htriangleRows⟩

/-- What the tables of an accepted document have to do with its draft. -/
structure Tables.Read (t : Tables) (d : MeshDraft) : Prop where
  vertices : List.Forall₂ (fun row v => ∃ cells, row = .array cells ∧
    cells.length = t.vertexNames.length ∧ (t.NoneTwice → VertexByName t.vertexNames cells v))
    t.vertexRows d.vertices
  triangles : List.Forall₂ (fun row c => ∃ cells, row = .array cells ∧
    cells.length = t.cornerNames.length ∧ (t.NoneTwice → CornersByName t.cornerNames cells c))
    t.triangleRows d.triangles

theorem read_of_readFrom {d : MeshDraft} {heading : Heading} {t : Tables} (h : d.ReadFrom j heading)
    (ht : t.Of j) : t.Read d := by
  obtain ⟨hcolumns, hcorners, -⟩ := (heading?_eq_ok h.declared).finds ht
  obtain ⟨hvertices, htriangles⟩ := readFrom_rows h ht
  refine ⟨hvertices.imp fun row v hread => ?_, htriangles.imp fun row c hread => ?_⟩
  · have hcells := hread
    obtain ⟨values, ⟨cells, rfl, hmap⟩, hlength, -⟩ := hcells
    refine ⟨cells, rfl, ?_, fun honce => ?_⟩
    · rw [← length_of_map hmap, hlength, (vertexColumns_eq_ok.mp hcolumns).2.2.2.2.2]
    · obtain ⟨cells', heq, hbyName⟩ := hread.byName hcolumns honce.1
      cases heq
      exact hbyName
  · have hcells := hread
    obtain ⟨indices, ⟨cells, rfl, hmap⟩, hlength, -⟩ := hcells
    refine ⟨cells, rfl, ?_, fun honce => ?_⟩
    · rw [← length_of_map hmap, hlength]
    · obtain ⟨cells', heq, hbyName⟩ := hread.byName hcorners honce.2
      cases heq
      exact hbyName

/-! ## A document with other tables -/

/-- The fields with the columns and the rows of tables. -/
def Tables.into (t : Tables) (j : Fields) : Fields :=
  (((j.set "vertices_columns" (.array t.vertexNames)).set "vertices" (.array t.vertexRows)).set
    "triangles_columns" (.array t.cornerNames)).set "triangles" (.array t.triangleRows)

theorem Tables.get?_into (t : Tables) (j : Fields) {key : String} (h : key ∉ tableKeys) :
    Fields.get? (t.into j) key = Fields.get? j key := by
  simp only [tableKeys, List.mem_cons, List.not_mem_nil, or_false, not_or] at h
  obtain ⟨hvertexNames, hvertexRows, hcornerNames, htriangleRows⟩ := h
  rw [into, Fields.get?_set, Fields.get?_set, Fields.get?_set, Fields.get?_set,
    if_neg (Ne.symm htriangleRows), if_neg (Ne.symm hcornerNames), if_neg (Ne.symm hvertexRows),
    if_neg (Ne.symm hvertexNames)]

theorem Tables.into_of (t : Tables) (j : Fields) : t.Of (t.into j) := by
  constructor <;> simp [into, Fields.get?_set]

/-- The columns and the rows of fields are determined. -/
theorem Tables.Of.unique {t t' : Tables} (h : t.Of j) (h' : t'.Of j) : t = t' := by
  cases t
  cases t'
  cases h.vertexNames.symm.trans h'.vertexNames
  cases h.vertexRows.symm.trans h'.vertexRows
  cases h.cornerNames.symm.trans h'.cornerNames
  cases h.triangleRows.symm.trans h'.triangleRows
  rfl

theorem placed_of_texts {known texts texts' : List String} {σ : ℕ → ℕ}
    (hstands : ∀ i < texts.length, texts'[σ i]? = texts[i]?)
    (hknown : ∀ k < texts'.length, ∀ name ∈ known, texts'[k]? = some name → ∃ i < texts.length, σ i = k) :
    Placed known σ (texts.map Value.string) (texts'.map Value.string) := by
  constructor
  · intro i v hv
    rw [List.getElem?_map, Option.map_eq_some_iff] at hv ⊢
    obtain ⟨text, htext, rfl⟩ := hv
    exact ⟨text, (hstands i (List.getElem?_eq_some_iff.mp htext).1).trans htext, rfl⟩
  · intro k name hname hk
    rw [List.getElem?_map, Option.map_eq_some_iff] at hk
    obtain ⟨text, htext, ⟨⟩⟩ := hk
    rw [List.length_map]
    exact hknown k (List.getElem?_eq_some_iff.mp htext).1 _ hname htext

theorem rowPlaced_wholes {kind : Value → Prop} (hkind : ∀ n : ℕ, kind (.number (.whole n))) {σ : ℕ → ℕ}
    {names names' : List Value} {row row' : List ℕ} (hlength : row'.length = names'.length)
    (hstands : ∀ i < row.length, row'[σ i]? = row[i]?) :
    RowPlaced kind σ names names' (wholes row) (wholes row') := by
  rintro _ ⟨⟩
  refine ⟨_, rfl, by rw [List.length_map, hlength], fun i v hv => ?_, fun k v hv => Or.inr ?_⟩
  · rw [List.getElem?_map, Option.map_eq_some_iff] at hv ⊢
    obtain ⟨n, hn, rfl⟩ := hv
    exact ⟨n, (hstands i (List.getElem?_eq_some_iff.mp hn).1).trans hn, rfl⟩
  · obtain ⟨n, -, rfl⟩ := List.mem_map.mp (List.mem_of_getElem? hv)
    exact hkind n

/-- The tables of the document with free names. -/
def raisedTables : Tables where
  vertexNames := ["source_x", "source_y", "target_x", "target_y", "offset_z"].map .string
  vertexRows := [[0, 0, 1, 0, 5], [1, 0, 3, 0, 5], [0, 1, 1, 1, 6]].map wholes
  cornerNames := ["idx_vertex1", "idx_vertex2", "idx_vertex3"].map .string
  triangleRows := [[0, 1, 2]].map wholes

/-- Their columns at other places, among a number for each vertex and one for each triangle. -/
def scatteredTables : Tables where
  vertexNames := ["offset_z", "point", "target_x", "target_y", "source_x", "source_y"].map .string
  vertexRows := [[5, 1, 1, 0, 0, 0], [5, 2, 3, 0, 1, 0], [6, 3, 1, 1, 0, 1]].map wholes
  cornerNames := ["idx_vertex3", "zone", "idx_vertex1", "idx_vertex2"].map .string
  triangleRows := [[2, 5, 0, 1]].map wholes

theorem raisedTables_of (fallback input : String) (output : Option String) :
    raisedTables.Of (raisedFields fallback input output) := by
  cases output <;> exact ⟨rfl, rfl, rfl, rfl⟩

theorem raisedTables_noneTwice : raisedTables.NoneTwice :=
  ⟨noneTwice_of_nodup (by decide), noneTwice_of_nodup (by decide)⟩

theorem raisedTables_placedIn : raisedTables.PlacedIn scatteredTables := by
  have hnumber : ∀ n : ℕ, ∃ m, Value.number (.whole n) = .number m := fun n => ⟨_, rfl⟩
  have hwhole : ∀ n : ℕ, ∃ m : ℕ, Value.number (.whole n) = .number (.whole m) := fun n => ⟨n, rfl⟩
  refine ⟨⟨fun i => [4, 5, 2, 3, 0].getD i 0, placed_of_texts (by decide) (by decide), ?_⟩,
    ⟨fun i => [2, 3, 0].getD i 0, placed_of_texts (by decide) (by decide), ?_⟩⟩
  · exact .cons (rowPlaced_wholes hnumber rfl (by decide)) (.cons (rowPlaced_wholes hnumber rfl (by decide))
      (.cons (rowPlaced_wholes hnumber rfl (by decide)) .nil))
  · exact .cons (rowPlaced_wholes hwhole rfl (by decide)) .nil

/-- The text of the document with these tables instead. -/
def scatteredText : String :=
  Json.print (.object (scatteredTables.into (raisedFields "nearest_side" "EPSG:2393" none)))

theorem into_writable {t : Tables} {j : Fields} (hkeys : j.Ascending) (hj : ∀ f ∈ j, Json.Writable 126 f.2)
    (ht : ∀ items ∈ [t.vertexNames, t.vertexRows, t.cornerNames, t.triangleRows],
      Json.Writable 126 (.array items)) : Json.Writable Json.maxDepth (.object (t.into j)) := by
  simp only [List.forall_mem_cons, List.not_mem_nil, false_implies, implies_true, and_true] at ht
  obtain ⟨hvertexNames, hvertexRows, hcornerNames, htriangleRows⟩ := ht
  refine .object ((((hkeys.set _ _).set _ _).set _ _).set _ _) fun f hf => ?_
  rcases Fields.mem_set hf with rfl | hf
  · exact htriangleRows
  rcases Fields.mem_set hf with rfl | hf
  · exact hcornerNames
  rcases Fields.mem_set hf with rfl | hf
  · exact hvertexRows
  rcases Fields.mem_set hf with rfl | hf
  · exact hvertexNames
  · exact hj f hf

theorem parse_scatteredText : ∃ j, Json.parse scatteredText = .ok (.object j) ∧ scatteredTables.Of j ∧
    ∀ key, key ∉ tableKeys →
      Fields.get? j key = Fields.get? (raisedFields "nearest_side" "EPSG:2393" none) key := by
  have hvertices : ∀ row ∈ [[5, 1, 1, 0, 0, 0], [5, 2, 3, 0, 1, 0], [6, 3, 1, 1, 0, 1]], ∀ n ∈ row,
      Number.InRange ((n : ℕ) : ℤ) := inRange_rows (by decide)
  have htriangles : ∀ row ∈ [[2, 5, 0, 1]], ∀ n ∈ row, Number.InRange ((n : ℕ) : ℤ) :=
    inRange_rows (by decide)
  have hwritable : Json.Writable Json.maxDepth
      (.object (scatteredTables.into (raisedFields "nearest_side" "EPSG:2393" none))) := into_writable
    (ascending_raisedFields "nearest_side" "EPSG:2393" none)
    (writable_raisedFields "nearest_side" "EPSG:2393" none) (by
      simp only [List.forall_mem_cons, List.not_mem_nil, false_implies, implies_true, and_true]
      exact ⟨.strings _ _, writable_rows hvertices _, .strings _ _, writable_rows htriangles _⟩)
  have hstrings : ∀ names : List String,
      (Value.array (names.map .string)).readBack = .array (names.map .string) := fun names => by
    rw [Value.readBack, MeshDraft.readBackItems_strings]
  have hof := scatteredTables.into_of (raisedFields "nearest_side" "EPSG:2393" none)
  refine ⟨_, hwritable.parse_print, ⟨?_, ?_, ?_, ?_⟩, fun key hkey => ?_⟩
  · rw [Json.get?_readBackFields, hof.vertexNames]
    exact congrArg some (hstrings _)
  · rw [Json.get?_readBackFields, hof.vertexRows]
    exact congrArg some (readBack_rows hvertices)
  · rw [Json.get?_readBackFields, hof.cornerNames]
    exact congrArg some (hstrings _)
  · rw [Json.get?_readBackFields, hof.triangleRows]
    exact congrArg some (readBack_rows htriangles)
  · rw [Json.get?_readBackFields, Tables.get?_into _ _ hkey, ← Json.get?_readBackFields,
      readBackFields_raisedFields]

end Exchange

open Exchange in
/-- **Rows are read by the names of their columns.**  An accepted document has tables, and the vertices and
the triangles of its draft are those of their rows in order: each row has a value for each column, and if
no known name stands twice, the values of the row under the known names are those of the vertex or the
triangle.  Then any document with the same other keys in whose tables the columns stand elsewhere, and
among further ones, has the same draft.  No document at all has a row read beyond its end. -/
theorem rows_read_by_name {s : String} {d : MeshDraft} (hs : MeshDraft.ofExchange? s = .ok d) :
    (∃ (j : Fields) (t : Tables), Json.parse s = .ok (.object j) ∧ t.Of j ∧ t.Read d ∧
      ∀ (s' : String) (j' : Fields) (t' : Tables), t.NoneTwice → Json.parse s' = .ok (.object j') →
        t'.Of j' → t.PlacedIn t' → (∀ key, key ∉ tableKeys → j'.get? key = j.get? key) →
        MeshDraft.ofExchange? s' = .ok d) ∧
    ∀ (j : Fields) (heading : Heading), heading? j = .ok heading →
      ∃ vertexNames cornerNames, j.get? "vertices_columns" = some (.array vertexNames) ∧
        j.get? "triangles_columns" = some (.array cornerNames) ∧
        heading.IndexSafe vertexNames.length cornerNames.length := by
  refine ⟨?_, fun j heading hheading => ?_⟩
  · obtain ⟨j, heading, hj, hread⟩ := MeshDraft.ofExchange?_eq_ok hs
    obtain ⟨t, ht⟩ := exists_tables hread
    refine ⟨j, t, hj, ht, read_of_readFrom hread ht, ?_⟩
    intro s' j' t' honce hj' ht' hplaced hkeys
    have hfields : MeshDraft.ofFields? j = .ok d := by
      rw [MeshDraft.ofExchange?, hj] at hs
      exact hs
    rw [MeshDraft.ofExchange?, hj']
    exact ofFields?_placed hfields ht ht' honce hplaced (Json.parse_sized hj') hkeys
  · have hdeclared := heading?_eq_ok hheading
    obtain ⟨vertexNames, hvertexNames, hcolumns⟩ := hdeclared.columns
    obtain ⟨cornerNames, hcornerNames, hcorners, hcount⟩ := hdeclared.corners
    exact ⟨vertexNames, cornerNames, items_eq_ok.mp hvertexNames, items_eq_ok.mp hcornerNames,
      indexSafe hcolumns hcorners hcount⟩

/-- The document with free names has a draft, and its tables are read by name.  The same columns at other
places and among others have the same draft. -/
theorem raised_rows_by_name :
    ∃ (j : Fields) (t : Exchange.Tables) (d : MeshDraft),
      Json.parse (raisedText "nearest_side" "EPSG:2393" none) = .ok (.object j) ∧
      MeshDraft.ofExchange? (raisedText "nearest_side" "EPSG:2393" none) = .ok d ∧ t.Of j ∧
      t.NoneTwice ∧ t.Read d ∧ t.PlacedIn Exchange.scatteredTables ∧
      MeshDraft.ofExchange? Exchange.scatteredText = .ok d := by
  have hdraft := ofExchange?_raisedText.2
  obtain ⟨⟨j, t, hj, ht, hread, hplaced⟩, -⟩ := rows_read_by_name hdraft
  obtain ⟨j', hj', ht', hkeys⟩ := Exchange.parse_scatteredText
  have hraised := hj
  rw [parse_raisedText] at hraised
  cases hraised
  obtain rfl := ht.unique (Exchange.raisedTables_of _ _ _)
  exact ⟨_, _, _, hj, hdraft, ht, Exchange.raisedTables_noneTwice, hread, Exchange.raisedTables_placedIn,
    hplaced _ j' _ Exchange.raisedTables_noneTwice hj' ht' Exchange.raisedTables_placedIn hkeys⟩

end ShiftMesh
