import Mathlib.Data.List.Forall2
import ShiftMesh.Container.Store
import ShiftMesh.Proofs.Checks

/-!
# ShiftMesh.Proofs.Container.Cells — a result row has the cells that its reader takes

* `Takes`: a reader of result rows that takes so many cells and leaves the others; `Takes.bind` adds up the
  cells of readers one after the other.
* `takes_readRow`: a row is read from three cells and three for each requested column.
* `mapM_eq_ok_iff`: a list is read item by item.
* `length_resultRow`, `length_prepare`: a query gives rows of as many cells.
-/

namespace ShiftMesh.Container

/-! ## Readers -/

section Taking

variable {τ υ : Type} {m n : ℕ}

/-- The reader takes `n` cells of a row.  It fails on fewer; what it makes of `n` cells it makes of every
row that begins with them, and it leaves the others. -/
structure Takes (n : ℕ) (read : List Cell → Except StorageFault (τ × List Cell)) : Prop where
  few : ∀ cells, cells.length < n → ∃ fault, read cells = .error fault
  enough : ∀ cells others, cells.length = n →
    read (cells ++ others) = (read cells).map fun found => (found.1, others)

theorem takes_pure (x : τ) : Takes 0 fun cells => .ok (x, cells) where
  few _ h := absurd h (Nat.not_lt_zero _)
  enough cells others h := by
    rw [List.length_eq_zero_iff.mp h]
    rfl

variable {read : List Cell → Except StorageFault (τ × List Cell)}
  {next : τ → List Cell → Except StorageFault (υ × List Cell)}

theorem Takes.map (f : τ → υ) (h : Takes n read) :
    Takes n fun cells => (read cells).map fun found => (f found.1, found.2) where
  few cells hfew := by
    obtain ⟨fault, hfault⟩ := h.few cells hfew
    exact ⟨fault, by rw [hfault]; rfl⟩
  enough cells others hlength := by
    rw [h.enough cells others hlength]
    cases read cells <;> rfl

/-- Readers one after the other. -/
theorem Takes.bind (h : Takes m read) (hnext : ∀ x, Takes n (next x)) :
    Takes (m + n) fun cells => read cells >>= fun found => next found.1 found.2 where
  few cells hfew := by
    rcases Nat.lt_or_ge cells.length m with hlt | hge
    · obtain ⟨fault, hfault⟩ := h.few cells hlt
      exact ⟨fault, by rw [hfault]; rfl⟩
    · have hfirst := h.enough (cells.take m) (cells.drop m) (List.length_take_of_le hge)
      rw [List.take_append_drop] at hfirst
      rw [hfirst]
      cases read (cells.take m) with
      | error fault => exact ⟨fault, rfl⟩
      | ok found =>
        refine (hnext found.1).few (cells.drop m) ?_
        rw [List.length_drop]
        omega
  enough cells others hlength := by
    have htake : (cells.take m).length = m := List.length_take_of_le (by omega)
    have hdrop : (cells.drop m).length = n := by
      rw [List.length_drop]
      omega
    have hfirst := h.enough (cells.take m) (cells.drop m) htake
    have hfirst' := h.enough (cells.take m) (cells.drop m ++ others) htake
    rw [List.take_append_drop] at hfirst
    rw [← List.append_assoc, List.take_append_drop] at hfirst'
    rw [hfirst, hfirst']
    cases read (cells.take m) with
    | error fault => rfl
    | ok found => exact (hnext found.1).enough (cells.drop m) others hdrop

theorem takes_readThree (f : Cell → Except StorageFault τ) : Takes 3 (readThree f) where
  few cells h := by
    match cells, h with
    | [], _ => exact ⟨_, rfl⟩
    | [_], _ => exact ⟨_, rfl⟩
    | [_, _], _ => exact ⟨_, rfl⟩
  enough cells others h := by
    match cells, h with
    | [a, b, c], _ =>
      change readThree f (a :: b :: c :: others) = (readThree f [a, b, c]).map _
      rw [readThree, readThree]
      cases f a with
      | error fault => rfl
      | ok x => cases f b with
        | error fault => rfl
        | ok y => cases f c <;> rfl

theorem takes_readTarget : Takes 6 readTarget :=
  .bind (m := 3) (n := 3) (takes_readThree _) fun xs =>
    .bind (m := 3) (n := 0) (takes_readThree _) fun ys =>
      takes_pure (⟨⟨xs.first, ys.first⟩, ⟨xs.second, ys.second⟩, ⟨xs.third, ys.third⟩⟩ : Triangle Float)

/-- The height corrections of an encoding are three values for each of its columns. -/
theorem takes_readHeights (encoding : VerticalEncoding) :
    Takes (3 * (valueColumns false (some encoding)).length) (readHeights encoding) := by
  cases encoding with
  | paired => exact (takes_readThree _).bind fun _ => (takes_readThree _).bind fun _ => takes_pure _
  | offset => exact (takes_readThree _).bind fun _ => takes_pure _

/-- A part that is there only if it is wanted. -/
theorem takes_readIf {κ : Type} (part : κ → List Cell → Except StorageFault (τ × List Cell))
    (size : Option κ → ℕ) (hnone : size none = 0) (h : ∀ k, Takes (size (some k)) (part k)) :
    ∀ wanted, Takes (size wanted) (readIf part wanted)
  | none => by
    rw [hnone]
    exact takes_pure none
  | some k => (h k).map some

theorem length_valueColumns (horizontal : Bool) (vertical : Option VerticalEncoding) :
    (valueColumns horizontal vertical).length =
      (valueColumns horizontal none).length + (valueColumns false vertical).length := by
  cases horizontal <;> rcases vertical with _ | (_ | _) <;> rfl

/-- A result row is three positions and three values for each requested column. -/
theorem takes_readRow (metadata : MeshMetadata Float) :
    Takes (3 + 3 * (requestedColumns metadata).length) (readRow metadata) := by
  have htarget := takes_readIf (fun _ : Unit => readTarget)
    (fun wanted => 3 * (valueColumns wanted.isSome none).length) rfl fun _ => takes_readTarget
  have hheights := takes_readIf readHeights
    (fun wanted => 3 * (valueColumns false wanted).length) rfl takes_readHeights
  have hsize : 3 + 3 * (requestedColumns metadata).length =
      3 + (3 * (valueColumns metadata.horizontal none).length +
        3 * (valueColumns false metadata.vertical).length) := by
    rw [requestedColumns, length_valueColumns]
    omega
  have hwanted : (if metadata.horizontal then some () else none).isSome = metadata.horizontal := by
    cases metadata.horizontal <;> rfl
  rw [hsize, ← hwanted]
  exact (takes_readThree _).bind fun _ => (htarget _).bind fun _ => (hheights _).bind fun _ => takes_pure _

end Taking

/-! ## Result rows -/

theorem mapM_eq_ok_iff {ε α β : Type} {f : α → Except ε β} :
    ∀ {as : List α} {bs : List β}, as.mapM f = .ok bs ↔ List.Forall₂ (fun a b => f a = .ok b) as bs
  | [], bs => by
    rw [List.mapM_nil, List.forall₂_nil_left_iff]
    exact ⟨fun h => (Except.ok.inj h).symm, fun h => by rw [h]; rfl⟩
  | a :: as, bs => by
    rw [List.mapM_cons, List.forall₂_cons_left_iff]
    refine ⟨fun h => ?_, ?_⟩
    · obtain ⟨b, hb, h⟩ := bind_eq_ok h
      obtain ⟨rest, hrest, h⟩ := bind_eq_ok h
      exact ⟨b, rest, hb, mapM_eq_ok_iff.mp hrest, (Except.ok.inj h).symm⟩
    · rintro ⟨b, rest, hb, hrest, rfl⟩
      rw [hb, mapM_eq_ok_iff.mpr hrest]
      rfl

theorem exists_mapM_iff {ε α β : Type} {f : α → Except ε β} {as : List α} :
    (∃ bs, as.mapM f = .ok bs) ↔ ∀ a ∈ as, ∃ b, f a = .ok b := by
  simp only [mapM_eq_ok_iff]
  induction as with
  | nil => exact ⟨fun _ => nofun, fun _ => ⟨[], .nil⟩⟩
  | cons a as ih =>
    rw [List.forall_mem_cons, ← ih]
    constructor
    · rintro ⟨bs, h⟩
      obtain ⟨b, rest, hb, hrest, -⟩ := List.forall₂_cons_left_iff.mp h
      exact ⟨⟨b, hb⟩, rest, hrest⟩
    · rintro ⟨⟨b, hb⟩, rest, hrest⟩
      exact ⟨b :: rest, .cons hb hrest⟩

/-- The query fetches as many columns as are asked for. -/
theorem length_prepare {t : VertexTable} {columns : List String} {q : CandidateQuery}
    (h : t.prepare columns = .ok q) :
    q.values.length = columns.length := by
  obtain ⟨geometry, -, h⟩ := bind_eq_ok h
  obtain ⟨values, hvalues, h⟩ := bind_eq_ok h
  cases hambiguous : t.ambiguous? with
  | some c =>
    rw [hambiguous] at h
    cases h
  | none =>
    rw [hambiguous] at h
    cases h
    exact (mapM_eq_ok_iff.mp hvalues).length_eq.symm

/-- A result row has three positions and three values for each column. -/
theorem length_resultRow (q : CandidateQuery) (t : VertexTable) (entry : TriangleEntry) :
    (q.resultRow t entry).length = 3 + 3 * q.values.length := by
  simp only [CandidateQuery.resultRow, List.length_flatMap, Corners.toList, List.length_cons,
    List.length_nil, List.map_const', List.sum_replicate_nat]
  omega

end ShiftMesh.Container
