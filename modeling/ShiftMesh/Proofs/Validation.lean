import ShiftMesh.Container.Disk
import ShiftMesh.Proofs.Container.Stream
import ShiftMesh.Proofs.Double.Span

/-!
# ShiftMesh.Proofs.Validation — which drafts are refused, and for what

* `Check`: what the validation asks of a draft, in order; `Check.Met` says what each check asks, and
  `Check.Reports` which fault it reports: that of the first triangle or vertex that offends.
* `extent_iff`: the extent is not flat exactly if two positions differ along each axis.
* `validate_error`: a refused draft is refused by the first check that is not met.
* `validation_exact`: hence which drafts are accepted, what happens to the disk if one is not, and that
  the corners of an accepted one are found among its vertices and among the stored ones.
-/

namespace ShiftMesh

open Container

namespace VertexRecord

/-- The vertex has the values that the components of a draft need. -/
structure Complete (v : VertexRecord) (d : MeshDraft) : Prop where
  target : d.horizontal = true → ∃ p, v.target = some p
  paired : d.vertical = some .paired → (∃ s, v.sourceZ = some s) ∧ ∃ t, v.targetZ = some t
  offset : d.vertical = some .offset → ∃ o, v.offsetZ = some o

theorem complete_iff {v : VertexRecord} {d : MeshDraft} : v.Complete d ↔
    (d.horizontal = true → v.target.isSome = true) ∧ v.hasHeights d.vertical = true := by
  simp only [Option.isSome_iff_exists]
  refine ⟨fun h => ⟨h.target, ?_⟩, fun ⟨htarget, hheights⟩ => ⟨htarget, fun hv => ?_, fun hv => ?_⟩⟩
  · rcases hv : d.vertical with _ | (_ | _)
    · rfl
    · obtain ⟨⟨s, hs⟩, t, ht⟩ := h.paired hv
      rw [hasHeights, hs, ht]
      rfl
    · obtain ⟨o, ho⟩ := h.offset hv
      rw [hasHeights, ho]
      rfl
  · rw [hv, hasHeights, Bool.and_eq_true, Option.isSome_iff_exists, Option.isSome_iff_exists] at hheights
    exact hheights
  · rw [hv, hasHeights, Option.isSome_iff_exists] at hheights
    exact hheights

end VertexRecord

namespace MeshDraft

/-! ## Checks -/

/-- What the validation asks of a draft. -/
inductive Check where
  | populated
  | corners
  | values
  | count
  | extent

namespace Check

/-- The checks as they are made. -/
def order : List Check := [populated, corners, values, count, extent]

/-- What a check asks of a draft. -/
def Met (d : MeshDraft) : Check → Prop
  | populated => d.vertices ≠ [] ∧ d.triangles ≠ []
  | corners => ∀ t ∈ d.triangles, ∀ c ∈ t.toList, c < d.vertices.length
  | values => ∀ v ∈ d.vertices, v.Complete d
  | count => d.vertexCount ≠ some 0
  | extent => (∃ v ∈ d.vertices, ∃ w ∈ d.vertices, (v.source.x == w.source.x) = false) ∧
      ∃ v ∈ d.vertices, ∃ w ∈ d.vertices, (v.source.y == w.source.y) = false

/-- The triangle has a corner that refers to no vertex. -/
def Dangling (d : MeshDraft) (t : Corners Nat) : Prop := ∃ c ∈ t.toList, d.vertices.length ≤ c

/-- The fault that a check reports: the first triangle with a corner that refers to no vertex and the
first such corner, or the first vertex that lacks a value. -/
def Reports (d : MeshDraft) : Check → MeshFault → Prop
  | populated, e => e = .empty
  | corners, e => ∃ i t k c, FirstAt (Dangling d) d.triangles i t ∧
      FirstAt (d.vertices.length ≤ ·) t.toList k c ∧ e = .danglingCorner i c d.vertices.length
  | values, e => ∃ i v, FirstAt (fun v => ¬ v.Complete d) d.vertices i v ∧
      ((d.horizontal = true ∧ v.target = none) ∧ e = .noTarget i ∨
        ¬ (d.horizontal = true ∧ v.target = none) ∧ e = .noHeights i)
  | count, e => e = .zeroVertexCount
  | extent, e => e = .emptyExtent

end Check

variable {d : MeshDraft} {e : MeshFault}

theorem Check.reports_unique {c : Check} {e' : MeshFault} (h : c.Reports d e) (h' : c.Reports d e') :
    e = e' := by
  cases c with
  | populated => exact h.trans h'.symm
  | count => exact h.trans h'.symm
  | extent => exact h.trans h'.symm
  | corners =>
    obtain ⟨i, t, k, c, hfirst, hcorner, rfl⟩ := h
    obtain ⟨i', t', k', c', hfirst', hcorner', rfl⟩ := h'
    obtain ⟨rfl, rfl⟩ := hfirst.unique hfirst'
    obtain ⟨-, rfl⟩ := hcorner.unique hcorner'
    rfl
  | values =>
    obtain ⟨i, v, hfirst, hfault⟩ := h
    obtain ⟨i', v', hfirst', hfault'⟩ := h'
    obtain ⟨rfl, rfl⟩ := hfirst.unique hfirst'
    rcases hfault with ⟨htarget, rfl⟩ | ⟨htarget, rfl⟩ <;>
      rcases hfault' with ⟨htarget', rfl⟩ | ⟨htarget', rfl⟩
    · rfl
    · exact absurd htarget htarget'
    · exact absurd htarget' htarget
    · rfl

/-! ## Triangles -/

theorem danglingCorner?_eq_some {count c : ℕ} {t : Corners ℕ} (h : danglingCorner? count t = some c) :
    ∃ k, FirstAt (count ≤ ·) t.toList k c := by
  obtain ⟨hbad, k, hk, heq, hbefore⟩ := List.find?_eq_some_iff_getElem.mp h
  refine ⟨k, by rw [List.getElem?_eq_getElem hk, heq], of_decide_eq_true hbad, fun i hi q hq => ?_⟩
  obtain ⟨hlt, rfl⟩ := List.getElem?_eq_some_iff.mp hq
  simpa using hbefore i hi

theorem checkTriangles_error {ts : List (Corners ℕ)} {first : ℕ}
    (h : checkTriangles d.vertices.length first ts = .error e) :
    ∃ i t k c, FirstAt (Check.Dangling d) ts i t ∧ FirstAt (d.vertices.length ≤ ·) t.toList k c ∧
      e = .danglingCorner (first + i) c d.vertices.length := by
  induction ts generalizing first with
  | nil => cases h
  | cons t rest ih =>
    rw [checkTriangles] at h
    cases hdangling : danglingCorner? d.vertices.length t with
    | some c =>
      rw [hdangling] at h
      cases h
      obtain ⟨k, hk⟩ := danglingCorner?_eq_some hdangling
      exact ⟨0, t, k, c, .zero ⟨c, List.mem_of_getElem? hk.here, hk.kind⟩, hk, rfl⟩
    | none =>
      rw [hdangling] at h
      have hfine : ¬ Check.Dangling d t := by
        rintro ⟨c, hc, hle⟩
        exact absurd (danglingCorner?_eq_none.mp hdangling c hc) (Nat.not_lt.mpr hle)
      obtain ⟨i, t', k, c, hfirst, hcorner, rfl⟩ := ih h
      exact ⟨i + 1, t', k, c, .succ hfine hfirst, hcorner, by rw [Nat.add_assoc, Nat.add_comm 1 i]⟩

/-! ## Vertices -/

theorem checkVertices_error {vs : List VertexRecord} {first : ℕ}
    (h : checkVertices d.horizontal d.vertical first vs = .error e) :
    ∃ i v, FirstAt (fun v => ¬ v.Complete d) vs i v ∧
      ((d.horizontal = true ∧ v.target = none) ∧ e = .noTarget (first + i) ∨
        ¬ (d.horizontal = true ∧ v.target = none) ∧ e = .noHeights (first + i)) := by
  induction vs generalizing first with
  | nil => cases h
  | cons v rest ih =>
    have htarget : (d.horizontal && v.target.isNone) = true ↔ d.horizontal = true ∧ v.target = none := by
      rw [Bool.and_eq_true, Option.isNone_iff_eq_none]
    rw [checkVertices] at h
    split_ifs at h with hmissing hheights
    · cases h
      rw [htarget] at hmissing
      refine ⟨0, v, .zero fun hcomplete => ?_, Or.inl ⟨hmissing, rfl⟩⟩
      obtain ⟨p, hp⟩ := hcomplete.target hmissing.1
      rw [hmissing.2] at hp
      cases hp
    · cases h
      rw [htarget] at hmissing
      refine ⟨0, v, .zero fun hcomplete => ?_, Or.inr ⟨hmissing, rfl⟩⟩
      rw [(VertexRecord.complete_iff.mp hcomplete).2] at hheights
      cases hheights
    · have hcomplete : v.Complete d := by
        refine VertexRecord.complete_iff.mpr ⟨fun hh => ?_, by simpa using hheights⟩
        rw [hh, Bool.true_and, Option.isNone_iff_eq_none] at hmissing
        exact Option.isSome_iff_ne_none.mpr hmissing
      obtain ⟨i, v', hfirst, hfault⟩ := ih h
      rw [Nat.add_assoc, Nat.add_comm 1 i] at hfault
      exact ⟨i + 1, v', .succ (not_not_intro hcomplete) hfirst, hfault⟩

/-! ## The extent -/

/-- The extent is found axis by axis. -/
theorem extent_eq (d : MeshDraft) :
    (d.extent.min.x, d.extent.max.x) =
        Double.spanFrom (infinity, -infinity) (d.vertices.map (·.source.x)) ∧
      (d.extent.min.y, d.extent.max.y) =
        Double.spanFrom (infinity, -infinity) (d.vertices.map (·.source.y)) :=
  ⟨Double.foldl_span (fun e : Extent Float => (e.min.x, e.max.x)) (fun _ _ => rfl) d.vertices _,
    Double.foldl_span (fun e : Extent Float => (e.min.y, e.max.y)) (fun _ _ => rfl) d.vertices _⟩

/-- The positions are numbers. -/
def NumberPositions (d : MeshDraft) : Prop :=
  ∀ v ∈ d.vertices, v.source.x.isNaN = false ∧ v.source.y.isNaN = false

/-- The extent is not flat exactly if two positions differ along each axis. -/
theorem extent_iff (hnumber : d.NumberPositions) : isFlat d.extent = false ↔ Check.Met d .extent := by
  have haxis : ∀ axis : VertexRecord → Float, (∀ v ∈ d.vertices, (axis v).isNaN = false) →
      (¬ (Double.spanFrom (infinity, -infinity) (d.vertices.map axis)).2 ≤
          (Double.spanFrom (infinity, -infinity) (d.vertices.map axis)).1 ↔
        ∃ v ∈ d.vertices, ∃ w ∈ d.vertices, (axis v == axis w) = false) := by
    intro axis haxis
    have hxs : ∀ x ∈ d.vertices.map axis, x.isNaN = false := by
      intro x hx
      obtain ⟨v, hv, rfl⟩ := List.mem_map.mp hx
      exact haxis v hv
    have hspans := Double.spanFrom_spans (p := (infinity, -infinity))
      ⟨Double.value_infinity.1, Double.value_neg_infinity.1⟩ hxs
    have hlow := (Double.isNaN_of_le hspans.low_start).1
    have hhigh := (Double.isNaN_of_le hspans.high_start).2
    rw [Double.le_iff hhigh hlow, not_le, ← Double.lt_iff hlow hhigh, Double.spanFrom_infinity_lt hxs]
    simp only [List.mem_map, exists_exists_and_eq_and]
  have hx := haxis (·.source.x) fun v hv => (hnumber v hv).1
  have hy := haxis (·.source.y) fun v hv => (hnumber v hv).2
  rw [← d.extent_eq.1] at hx
  rw [← d.extent_eq.2] at hy
  rw [isFlat, Bool.or_eq_false_iff, decide_eq_false_iff_not, decide_eq_false_iff_not]
  exact and_congr hx hy

/-! ## Validation -/

theorem Accepted.met (hnumber : d.NumberPositions) (h : d.Accepted) :
    ∀ c ∈ Check.order, c.Met d := by
  simp only [Check.order, List.forall_mem_cons, List.not_mem_nil, false_implies, implies_true, and_true]
  exact ⟨⟨h.vertices_ne_nil, h.triangles_ne_nil⟩, h.corners,
    fun v hv => VertexRecord.complete_iff.mpr ⟨fun hh => h.targets hh v hv, h.heights v hv⟩, h.count,
    (extent_iff hnumber).mp h.extent⟩

/-- A refused draft is refused by the first check that is not met. -/
theorem validate_error (hnumber : d.NumberPositions) (h : d.validate = .error e) :
    FirstUnmet (Check.Met d) (Check.Reports d) Check.order e := by
  unfold validate at h
  rcases unless_eq_error h with ⟨hempty, rfl⟩ | ⟨hpopulated, h⟩
  · refine .here (fun hmet => ?_) rfl
    rw [isEmpty_or_eq_false.mpr hmet] at hempty
    cases hempty
  refine .later (isEmpty_or_eq_false.mp (Bool.eq_false_iff.mpr hpopulated)) ?_
  rcases bind_eq_error h with h | ⟨⟨⟩, hcorners, h⟩
  · obtain ⟨i, t, k, c, hfirst, hcorner, rfl⟩ := checkTriangles_error h
    refine .here (fun hmet => ?_) ⟨i, t, k, c, hfirst, hcorner, by rw [Nat.zero_add]⟩
    have hlt := hmet t (List.mem_of_getElem? hfirst.here) c (List.mem_of_getElem? hcorner.here)
    exact absurd hlt (Nat.not_lt.mpr hcorner.kind)
  refine .later ((checkTriangles_eq_ok 0).mp hcorners) ?_
  rcases bind_eq_error h with h | ⟨⟨⟩, hvalues, h⟩
  · obtain ⟨i, v, hfirst, hfault⟩ := checkVertices_error h
    rw [Nat.zero_add] at hfault
    exact .here (fun hmet => hfirst.kind (hmet v (List.mem_of_getElem? hfirst.here)))
      ⟨i, v, hfirst, hfault⟩
  refine .later (fun v hv => VertexRecord.complete_iff.mpr ((checkVertices_eq_ok 0).mp hvalues v hv)) ?_
  rcases unless_eq_error h with ⟨hzero, rfl⟩ | ⟨hcount, h⟩
  · exact .here (not_not_intro hzero) rfl
  refine .later hcount ?_
  by_cases hflat : isFlat d.extent = true
  · simp only [if_pos hflat] at h
    cases h
    refine .here (fun hmet => ?_) rfl
    rw [(extent_iff hnumber).mpr hmet] at hflat
    cases hflat
  · simp only [if_neg hflat] at h
    cases h

/-! ## Stored corners -/

theorem length_triangleEntries (fid : ℕ) (ts : List (Corners ℕ)) :
    (triangleEntries fid ts).length = ts.length := by
  induction ts generalizing fid with
  | nil => rfl
  | cons t rest ih => rw [triangleEntries, List.length_cons, List.length_cons, ih]

/-- The keys of the stored triangles are those of stored vertices. -/
theorem key_stored (h : Check.Met d .corners) {entry : TriangleEntry}
    (hentry : entry ∈ triangleEntries 1 d.triangles) {key : ℤ} (hkey : key ∈ entry.vertices.toList) :
    ∃ row ∈ d.vertexTable.rows, row.fid = key := by
  have hentries : ∀ (ts : List (Corners ℕ)) (fid : ℕ), entry ∈ triangleEntries fid ts →
      ∃ t ∈ ts, entry.vertices = t.map fun i : ℕ => (i : ℤ) + 1 := by
    intro ts
    induction ts with
    | nil => exact fun _ h => nomatch h
    | cons t rest ih =>
      intro fid h
      rcases List.mem_cons.mp h with rfl | h
      · exact ⟨t, List.mem_cons_self, rfl⟩
      · obtain ⟨t', ht', heq⟩ := ih (fid + 1) h
        exact ⟨t', List.mem_cons_of_mem _ ht', heq⟩
  obtain ⟨t, ht, hvertices⟩ := hentries d.triangles 1 hentry
  rw [hvertices] at hkey
  obtain ⟨i, hi, rfl⟩ : ∃ i ∈ t.toList, (i : ℤ) + 1 = key := List.mem_map.mp hkey
  have hrow := d.row?_vertexTable i
  rw [List.getElem?_eq_getElem (h t ht i hi)] at hrow
  exact ⟨_, List.mem_of_find?_eq_some hrow, rfl⟩

end MeshDraft

/-- **Validation is exact and comes before anything is removed.**  If its positions are numbers, a draft
is accepted exactly if every check is met, and it is refused with what the first check that is not met
reports.  Writing a refused draft leaves the disk as it was.  In an accepted draft the corners of each
triangle are found among the vertices, and the keys of the stored triangles are those of stored
vertices. -/
theorem validation_exact {d : MeshDraft} (hnumber : d.NumberPositions) :
    (d.validate = .ok () ↔ ∀ c ∈ MeshDraft.Check.order, c.Met d) ∧
    (∀ e, d.validate = .error e ↔
      FirstUnmet (MeshDraft.Check.Met d) (MeshDraft.Check.Reports d) MeshDraft.Check.order e) ∧
    (∀ (disk : Disk) (path : String) (e : MeshFault), d.validate = .error e →
      disk.write path d = (.error (.invalidMesh e), disk)) ∧
    (d.validate = .ok () →
      (∀ t ∈ d.triangles, (MeshDraft.sourceTriangle? d.vertices.toArray t).isSome = true) ∧
      ∃ db vertices triangles, d.author = .ok db ∧ db.vertices = some vertices ∧
        db.triangles = some triangles ∧ triangles.length = d.triangles.length ∧
        ∀ entry ∈ triangles, ∀ key ∈ entry.vertices.toList, ∃ row ∈ vertices.rows, row.fid = key) := by
  have hunique : ∀ c e e', MeshDraft.Check.Reports d c e → MeshDraft.Check.Reports d c e' → e = e' :=
    fun _ _ _ => MeshDraft.Check.reports_unique
  obtain ⟨hok, herror⟩ := exact_of_firstUnmet (x := d.validate) hunique
    (fun _ h => (MeshDraft.validate_eq_ok.mp h).met hnumber)
    fun e => MeshDraft.validate_error hnumber
  refine ⟨⟨fun h => hok.mp ⟨(), h⟩, fun h => (hok.mpr h).choose_spec⟩, herror, ?_, fun h => ?_⟩
  · intro disk path e he
    rw [Disk.write, MeshDraft.author, he]
  · have haccepted := MeshDraft.validate_eq_ok.mp h
    refine ⟨fun t ht => ?_, d.database, _, _, by rw [MeshDraft.author, h], rfl, rfl, ?_, ?_⟩
    · rw [MeshDraft.sourceTriangle?_eq (haccepted.corners t ht)]
      rfl
    · exact MeshDraft.length_triangleEntries 1 d.triangles
    · exact fun entry hentry key hkey => MeshDraft.key_stored haccepted.corners hentry hkey

/-- The draft with both components, with a triangle that refers to a fourth vertex. -/
def danglingDraft : MeshDraft := { quotedDraft with triangles := [⟨0, 1, 2⟩, ⟨0, 3, 7⟩] }

/-- One draft meets every check; the other one is refused for its second triangle, and nothing is
written. -/
theorem quoted_validation_exact :
    quotedDraft.NumberPositions ∧ (∀ c ∈ MeshDraft.Check.order, c.Met quotedDraft) ∧
      danglingDraft.NumberPositions ∧
      FirstUnmet (MeshDraft.Check.Met danglingDraft) (MeshDraft.Check.Reports danglingDraft)
        MeshDraft.Check.order (.danglingCorner 1 3 3) ∧
      ∀ (disk : Disk) (path : String),
        disk.write path danglingDraft = (.error (.invalidMesh (.danglingCorner 1 3 3)), disk) := by
  have hnumber : quotedDraft.NumberPositions := by
    unfold MeshDraft.NumberPositions
    decide +kernel
  have hvalid : quotedDraft.validate = .ok () := by decide +kernel
  have hdangling : danglingDraft.validate = .error (.danglingCorner 1 3 3) := by decide +kernel
  obtain ⟨-, herror, hwrite, -⟩ := validation_exact (d := danglingDraft) hnumber
  exact ⟨hnumber, (validation_exact hnumber).1.mp hvalid, hnumber, (herror _).mp hdangling,
    fun disk path => hwrite disk path _ hdangling⟩

end ShiftMesh
