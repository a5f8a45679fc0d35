import ShiftMesh.Mesh.Draft
import ShiftMesh.Proofs.Checks

/-!
# ShiftMesh.Proofs.Draft — what the validation of a draft checks

* `MeshDraft.Accepted`: the conditions that a draft without inconsistency meets.
* `validate_eq_ok`: the validation accepts exactly the drafts that meet them.
-/

namespace ShiftMesh

/-! ## Drafts -/

namespace MeshDraft

/-- A draft without inconsistency. -/
structure Accepted (d : MeshDraft) : Prop where
  vertices_ne_nil : d.vertices ≠ []
  triangles_ne_nil : d.triangles ≠ []
  corners : ∀ t ∈ d.triangles, ∀ c ∈ t.toList, c < d.vertices.length
  targets : d.horizontal = true → ∀ v ∈ d.vertices, v.target.isSome = true
  heights : ∀ v ∈ d.vertices, v.hasHeights d.vertical = true
  count : d.vertexCount ≠ some 0
  extent : isFlat d.extent = false

variable {d : MeshDraft}

theorem danglingCorner?_eq_none {count : Nat} {t : Corners Nat} :
    danglingCorner? count t = none ↔ ∀ c ∈ t.toList, c < count := by
  rw [danglingCorner?, List.find?_eq_none]
  simp only [decide_eq_true_iff, Nat.not_le]

theorem checkTriangles_eq_ok {count : Nat} {triangles : List (Corners Nat)} (first : Nat) :
    checkTriangles count first triangles = .ok () ↔
      ∀ t ∈ triangles, ∀ c ∈ t.toList, c < count := by
  induction triangles generalizing first with
  | nil => simp [checkTriangles]
  | cons t rest ih =>
    rw [checkTriangles, List.forall_mem_cons, ← danglingCorner?_eq_none]
    cases h : danglingCorner? count t with
    | some c => simp
    | none =>
      simp only [true_and]
      exact ih (first + 1)

theorem checkVertices_eq_ok {horizontal : Bool} {vertical : Option VerticalEncoding}
    {vertices : List VertexRecord} (first : Nat) :
    checkVertices horizontal vertical first vertices = .ok () ↔
      ∀ v ∈ vertices, (horizontal = true → v.target.isSome = true) ∧
        v.hasHeights vertical = true := by
  induction vertices generalizing first with
  | nil => simp [checkVertices]
  | cons v rest ih =>
    rw [checkVertices, List.forall_mem_cons, ← ih (first + 1)]
    by_cases htarget : (horizontal && v.target.isNone) = true
    · rw [if_pos htarget]
      obtain ⟨hh, hnone⟩ := (Bool.and_eq_true _ _).mp htarget
      refine Iff.intro (fun h => nomatch h) fun h => ?_
      have hsome := h.1.1 hh
      rw [Option.isNone_iff_eq_none.mp hnone] at hsome
      cases hsome
    · rw [if_neg htarget]
      have hpart : horizontal = true → v.target.isSome = true := by
        intro hh
        rw [hh, Bool.true_and] at htarget
        cases hv : v.target with
        | some t => rfl
        | none => exact absurd (congrArg Option.isNone hv) htarget
      cases hheights : v.hasHeights vertical with
      | true => exact ⟨fun h => ⟨⟨hpart, rfl⟩, h⟩, fun h => h.2⟩
      | false => exact Iff.intro (fun h => nomatch h) fun h => nomatch h.1.2

theorem isEmpty_or_eq_false {α β : Type} {as : List α} {bs : List β} :
    (as.isEmpty || bs.isEmpty) = false ↔ as ≠ [] ∧ bs ≠ [] := by
  cases as <;> cases bs <;> simp

/-- The checks in their order. -/
theorem validate_eq (d : MeshDraft) : d.validate =
    if (d.vertices.isEmpty || d.triangles.isEmpty) = true then .error .empty
    else (checkTriangles d.vertices.length 0 d.triangles).bind fun _ =>
      (checkVertices d.horizontal d.vertical 0 d.vertices).bind fun _ =>
        if d.vertexCount = some 0 then .error .zeroVertexCount
        else if isFlat d.extent = true then .error .emptyExtent else .ok () := by
  rfl

/-- The validation accepts the drafts without inconsistency, and no others. -/
theorem validate_eq_ok : d.validate = .ok () ↔ d.Accepted := by
  refine ⟨fun h => ?_, fun h => ?_⟩
  · unfold validate at h
    obtain ⟨hempty, h⟩ := unless_eq_ok h
    obtain ⟨_, hcorners, h⟩ := bind_eq_ok h
    obtain ⟨_, hcomplete, h⟩ := bind_eq_ok h
    obtain ⟨hcount, h⟩ := unless_eq_ok h
    have hflat : ¬ isFlat d.extent = true := fun heq => by
      simp only [if_pos heq] at h
      cases h
    obtain ⟨hvertices, htriangles⟩ := isEmpty_or_eq_false.mp (Bool.eq_false_iff.mpr hempty)
    have hvertex := (checkVertices_eq_ok 0).mp hcomplete
    exact ⟨hvertices, htriangles, (checkTriangles_eq_ok 0).mp hcorners,
      fun hh v hv => (hvertex v hv).1 hh, fun v hv => (hvertex v hv).2, hcount,
      Bool.eq_false_iff.mpr hflat⟩
  · have hempty := isEmpty_or_eq_false.mpr ⟨h.vertices_ne_nil, h.triangles_ne_nil⟩
    have hcomplete : checkVertices d.horizontal d.vertical 0 d.vertices = .ok () :=
      (checkVertices_eq_ok 0).mpr fun v hv => ⟨fun hh => h.targets hh v hv, h.heights v hv⟩
    rw [validate_eq, hempty, if_neg Bool.false_ne_true, (checkTriangles_eq_ok 0).mpr h.corners,
      hcomplete]
    change (if d.vertexCount = some 0 then Except.error MeshFault.zeroVertexCount
      else if isFlat d.extent = true then Except.error MeshFault.emptyExtent else Except.ok ()) =
        Except.ok ()
    rw [if_neg h.count, h.extent, if_neg Bool.false_ne_true]

end MeshDraft

end ShiftMesh
