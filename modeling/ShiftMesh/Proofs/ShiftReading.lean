import ShiftMesh.Proofs.Container.Serving
import ShiftMesh.Proofs.Double.Span
import ShiftMesh.Proofs.Json.Reread

/-!
# ShiftMesh.Proofs.ShiftReading — the shift range of a header that was written and read

The range of a draft's shifts is exact.  Its four bounds are written with the shortest digits, and a
bound with more digits than a double holds is rounded twice when it is read.  It can come back one
double inward, so that the range that is read no longer holds the shift that the bound was.

* `ShiftRange.extremes_ofShifts`: each bound of the range is one of the shifts.
* `ReadAlong`: the bounds of some doubles, and what they are read as.
* `readAlong`: a bound comes back at most one part in `2^49` and five least doubles away, which the
  tolerance of a search outweighs for small shifts, and it comes back as it was if its text has few
  digits; the range that is read holds the doubles exactly if no bound came back inward.
* `shift_range_reread`: hence for the range that is read from the header of an accepted draft;
  `shift_range_narrowed`: one that came back too narrow.
-/

namespace ShiftMesh

open Double (value leastDouble scaled Extremes)
open Json (FewDigits)

/-! ## The range of the shifts -/

namespace ShiftRange

/-- Along an axis, the bounds of the range of some shifts are the least and the greatest of them. -/
theorem extremes_ofShifts (range : ShiftRange Float → Float × Float) {axis : Point Float → Float}
    (hstart : ∀ s, range ⟨s, s⟩ = (axis s, axis s))
    (hwiden : ∀ r s, range (widen r s) =
      (Scalar.pickLess (range r).1 (axis s), Scalar.pickGreater (range r).2 (axis s)))
    {shifts : List (Point Float)} (hne : shifts ≠ [])
    (hnumber : ∀ x ∈ shifts.map axis, x.isNaN = false) :
    Extremes (range (ofShifts shifts)) (shifts.map axis) := by
  cases shifts with
  | nil => exact absurd rfl hne
  | cons s rest =>
    rw [ofShifts, Double.foldl_span range hwiden, hstart]
    exact Double.spanFrom_extremes hnumber

end ShiftRange

/-! ## Bounds that are read -/

/-- How far from a double its reading can be. -/
def readingError (x : Float) : ℚ := |value x| / 2 ^ 49 + 5 * leastDouble

/-- A double that was written, and what it is read as: it comes back as it was if its text has few
digits. -/
structure ReadClose (x y : Float) : Prop where
  close : |value y - value x| ≤ readingError x
  exact : FewDigits x → value y = value x

/-- The bounds of some doubles as they were written, and as they are read. -/
structure ReadAlong (xs : List Float) (written read : Float × Float) : Prop where
  extremes : Extremes written xs
  low : ReadClose written.1 read.1
  high : ReadClose written.2 read.2
  /-- Widened by the error, what is read holds the doubles. -/
  holds_widened : ∀ x ∈ xs, value read.1 - readingError written.1 ≤ value x ∧
    value x ≤ value read.2 + readingError written.2
  /-- So it does for small doubles if it is widened by the tolerance of a search. -/
  holds_small : (∀ x ∈ xs, |value x| ≤ 2 ^ 15) → ∀ x ∈ xs,
    value read.1 - value Scalar.tolerance ≤ value x ∧
      value x ≤ value read.2 + value Scalar.tolerance
  /-- As it is, it holds them if the bounds have few digits, -/
  holds_few : FewDigits written.1 → FewDigits written.2 → ∀ x ∈ xs, read.1 ≤ x ∧ x ≤ read.2
  /-- and exactly if no bound came back inward. -/
  holds_iff : (∀ x ∈ xs, read.1 ≤ x ∧ x ≤ read.2) ↔ read.1 ≤ written.1 ∧ written.2 ≤ read.2

theorem value_tolerance : value Scalar.tolerance = scaled 7737125245533627 (-86) := by
  have hpacked : (Scalar.tolerance : Float) =
      Double.packed (.finite .positive 7737125245533627 (-86) (by decide)) := by decide +kernel
  have hfits : Double.Fits 7737125245533627 (-86) :=
    ⟨by decide, by decide, by decide, by decide, by decide⟩
  rw [hpacked, value, Double.unpacked_packed_finite _ hfits, Double.valueOf_finite]
  rfl

/-- The tolerance of a search outweighs the error of small doubles. -/
theorem readingError_le_tolerance {x : Float} (h : |value x| ≤ 2 ^ 15) :
    readingError x ≤ value Scalar.tolerance := by
  have hleast : leastDouble ≤ 2 ^ (-86 : ℤ) := by
    rw [leastDouble, Double.scaled_eq, Int.cast_one, one_mul]
    exact zpow_le_zpow_right₀ one_le_two (by norm_num)
  rw [value_tolerance, readingError, Double.scaled_eq]
  norm_num at hleast ⊢
  linarith

variable {xs : List Float} {low high x : Float}

/-- A finite double comes back within the error. -/
theorem readBackDouble_close (hx : x.isFinite = true) :
    (MeshDraft.readBackDouble x).isFinite = true ∧ ReadClose x (MeshDraft.readBackDouble x) := by
  obtain ⟨y, hread, hfinite, hclose, hexact⟩ := Json.readBack_close hx
  have hback : MeshDraft.readBackDouble x = y := by
    rw [MeshDraft.readBackDouble, hread]
    rfl
  rw [hback]
  exact ⟨hfinite, hclose, hexact⟩

/-- The least and the greatest of some doubles, read back. -/
theorem readAlong (h : Extremes (low, high) xs) (hlow : low.isFinite = true)
    (hhigh : high.isFinite = true) :
    ReadAlong xs (low, high) (MeshDraft.readBackDouble low, MeshDraft.readBackDouble high) := by
  obtain ⟨hlo, hlowread⟩ := readBackDouble_close hlow
  obtain ⟨hhi, hhighread⟩ := readBackDouble_close hhigh
  generalize MeshDraft.readBackDouble low = lo at hlo hlowread ⊢
  generalize MeshDraft.readBackDouble high = hi at hhi hhighread ⊢
  have hlow' := Double.isNaN_of_isFinite hlow
  have hhigh' := Double.isNaN_of_isFinite hhigh
  have hbounds : ∀ x ∈ xs, value low ≤ value x ∧ value x ≤ value high := fun x hx => by
    have hnumber := (Double.isNaN_of_le (h.low x hx)).2
    exact ⟨(Double.le_iff hlow' hnumber).mp (h.low x hx), (Double.le_iff hnumber hhigh').mp (h.high x hx)⟩
  have hwidened : ∀ x ∈ xs, value lo - readingError low ≤ value x ∧
      value x ≤ value hi + readingError high := fun x hx => by
    obtain ⟨hlowx, hxhigh⟩ := hbounds x hx
    obtain ⟨-, hlowup⟩ := abs_le.mp hlowread.close
    obtain ⟨hhighdown, -⟩ := abs_le.mp hhighread.close
    constructor <;> linarith
  have hholds : lo ≤ low ∧ high ≤ hi → ∀ x ∈ xs, lo ≤ x ∧ x ≤ hi := fun hout x hx =>
    ⟨Double.le_trans' hout.1 (h.low x hx), Double.le_trans' (h.high x hx) hout.2⟩
  refine ⟨h, hlowread, hhighread, hwidened, fun hsmall x hx => ?_, fun hfewlow hfewhigh => ?_,
    fun hall => ⟨(hall low h.low_mem).1, (hall high h.high_mem).2⟩, hholds⟩
  · obtain ⟨hdown, hup⟩ := hwidened x hx
    have hlowerror := readingError_le_tolerance (hsmall low h.low_mem)
    have hhigherror := readingError_le_tolerance (hsmall high h.high_mem)
    constructor <;> linarith
  · refine hholds ⟨(Double.le_iff (Double.isNaN_of_isFinite hlo) hlow').mpr ?_,
      (Double.le_iff hhigh' (Double.isNaN_of_isFinite hhi)).mpr ?_⟩
    · exact (hlowread.exact hfewlow).le
    · exact (hhighread.exact hfewhigh).ge

namespace MeshDraft

variable {d : MeshDraft}

/-- The shifts of the vertices. -/
def shifts (d : MeshDraft) : List (Point Float) := d.vertices.filterMap VertexRecord.shift?

/-- The shifts are finite. -/
def FiniteShifts (d : MeshDraft) : Prop := ∀ s ∈ d.shifts, s.Each fun x => x.isFinite = true

theorem FiniteShifts.finiteShift (h : d.FiniteShifts) : d.FiniteShift :=
  ShiftRange.each_ofShifts (P := fun x : Float => x.isFinite = true) (by decide +kernel) _ h

theorem FiniteShifts.isNaN (h : d.FiniteShifts) :
    (∀ x ∈ d.shifts.map Point.x, x.isNaN = false) ∧ ∀ y ∈ d.shifts.map Point.y, y.isNaN = false :=
  ⟨List.forall_mem_map.mpr fun s hs => Double.isNaN_of_isFinite (h s hs).1,
    List.forall_mem_map.mpr fun s hs => Double.isNaN_of_isFinite (h s hs).2⟩

/-- Each vertex of an accepted draft has a shift, which is the target less the source. -/
theorem Accepted.exists_shift (h : d.Accepted) (hh : d.horizontal = true) :
    ∀ v ∈ d.vertices, ∃ t, v.target = some t ∧ t - v.source ∈ d.shifts := by
  intro v hv
  obtain ⟨t, ht⟩ := Option.isSome_iff_exists.mp (h.targets hh v hv)
  refine ⟨t, ht, List.mem_filterMap.mpr ⟨v, hv, ?_⟩⟩
  rw [VertexRecord.shift?, ht]
  rfl

theorem Accepted.shifts_ne_nil (h : d.Accepted) (hh : d.horizontal = true) : d.shifts ≠ [] := by
  obtain ⟨v, hv⟩ := List.exists_mem_of_ne_nil _ h.vertices_ne_nil
  obtain ⟨t, -, hshift⟩ := h.exists_shift hh v hv
  exact List.ne_nil_of_mem hshift

end MeshDraft

/-! ## The range of a header -/

/-- **The shift range of a header is read back up to a rounding error.**  In an accepted draft with
finite shifts every vertex has one.  The header of the draft is read, and along each axis its bounds are
those of the shifts, at most the error of one reading away.  The range that is read holds all shifts if
the texts of the bounds have few digits, and exactly if no bound came back inward. -/
theorem shift_range_reread {d : MeshDraft} (hvalid : d.validate = .ok ()) (hh : d.horizontal = true)
    (hfinite : d.FiniteShifts) :
    (∀ v ∈ d.vertices, ∃ t, v.target = some t ∧ t - v.source ∈ d.shifts) ∧
      ∃ h, Header.parse d.headerText = .ok h ∧
        ReadAlong (d.shifts.map Point.x) (d.shiftRange.min.x, d.shiftRange.max.x)
          (h.shift.min.x, h.shift.max.x) ∧
        ReadAlong (d.shifts.map Point.y) (d.shiftRange.min.y, d.shiftRange.max.y)
          (h.shift.min.y, h.shift.max.y) := by
  have haccepted := MeshDraft.validate_eq_ok.mp hvalid
  have hne := haccepted.shifts_ne_nil hh
  obtain ⟨hx, hy⟩ := hfinite.isNaN
  have hbounds := hfinite.finiteShift
  have hparse := haccepted.parse_headerText
  rw [MeshDraft.readShift_of_finite hh hbounds] at hparse
  obtain ⟨⟨hminx, hminy⟩, hmaxx, hmaxy⟩ := hbounds
  refine ⟨haccepted.exists_shift hh, _, hparse, readAlong ?_ hminx hmaxx, readAlong ?_ hminy hmaxy⟩
  · exact ShiftRange.extremes_ofShifts (fun r => (r.min.x, r.max.x)) (fun _ => rfl) (fun _ _ => rfl)
      hne hx
  · exact ShiftRange.extremes_ofShifts (fun r => (r.min.y, r.max.y)) (fun _ => rfl) (fun _ _ => rfl)
      hne hy

/-- A text with one digit on each side of the point. -/
theorem fewDigits_of_tenths {x : Float} {c d : Char} (hc : c.isDigit = true) (hd : d.isDigit = true)
    (htext : (Json.Number.double x).print = [c, '.', d]) : FewDigits x := by
  have hdigits : ∀ c' ∈ [c, d], c'.isDigit = true :=
    List.forall_mem_cons.mpr ⟨hc, List.forall_mem_singleton.mpr hd⟩
  refine ⟨⟨false, [c], some [d], none⟩, ⟨List.cons_ne_nil _ _, List.forall_mem_singleton.mpr hc,
    fun _ h => (List.cons.inj h).2.symm, nofun, fun _ h => ?_⟩, htext, ?_, ?_⟩
  · cases h
    exact List.forall_mem_singleton.mpr hd
  · exact (Json.ofDigitChars_lt hdigits).le.trans (by norm_num)
  · have hscale : Json.Numeral.scale ⟨false, [c], some [d], none⟩ = -1 := rfl
    rw [hscale]
    decide

/-- The range from 1 to 1.5, whose bounds have few digits, holds the shifts. -/
theorem quoted_shift_range_reread :
    quotedDraft.validate = .ok () ∧ quotedDraft.horizontal = true ∧ quotedDraft.FiniteShifts ∧
      FewDigits 1 ∧ FewDigits 1.5 ∧
      ∃ h, Header.parse quotedDraft.headerText = .ok h ∧
        ReadAlong [1, 1.5, 1.125] (1, 1.5) (h.shift.min.x, h.shift.max.x) ∧
        ∀ x ∈ [1, 1.5, 1.125], h.shift.min.x ≤ x ∧ x ≤ h.shift.max.x := by
  have hvalid : quotedDraft.validate = .ok () := by decide +kernel
  have hfinite : quotedDraft.FiniteShifts := by
    unfold MeshDraft.FiniteShifts
    decide +kernel
  have hshifts : quotedDraft.shifts.map Point.x = [1, 1.5, 1.125] := by decide +kernel
  have hrange : (quotedDraft.shiftRange.min.x, quotedDraft.shiftRange.max.x) = (1, 1.5) := by
    decide +kernel
  have hone : FewDigits 1 := fewDigits_of_tenths rfl rfl (by decide +kernel : _ = ['1', '.', '0'])
  have hhalf : FewDigits 1.5 := fewDigits_of_tenths rfl rfl (by decide +kernel : _ = ['1', '.', '5'])
  obtain ⟨-, h, hparse, hx, -⟩ := shift_range_reread hvalid rfl hfinite
  rw [hshifts, hrange] at hx
  exact ⟨hvalid, rfl, hfinite, hone, hhalf, h, hparse, hx, hx.holds_few hone hhalf⟩

/-- A mesh whose greatest shift, of 1.6 less 0.2, is the double after that of 1.4. -/
def narrowedDraft : MeshDraft where
  vertices :=
    [{ sourceWords := ⟨0x3FC999999999999A, 0⟩, target := some ⟨1.6, 0⟩ },
      { sourceWords := ⟨0, 0⟩, target := some ⟨1.4, 0⟩ },
      { sourceWords := ⟨0, 0x3FF0000000000000⟩, target := some ⟨1.4, 1⟩ }]
  triangles := [⟨0, 1, 2⟩]
  horizontal := true

/-- Its 17 digits are more than a double holds, and it is read as 1.4: the range that is read does not
hold the shift of the first vertex. -/
theorem shift_range_narrowed :
    narrowedDraft.validate = .ok () ∧ narrowedDraft.horizontal = true ∧ narrowedDraft.FiniteShifts ∧
      (∀ v ∈ narrowedDraft.vertices, v.source.Each (·.isFinite = true) ∧
        ∀ t, v.target = some t → t.Each (·.isFinite = true)) ∧
      ∃ h, Header.parse narrowedDraft.headerText = .ok h ∧
        ∃ v ∈ narrowedDraft.vertices, ∃ t, v.target = some t ∧ h.shift.max.x < (t - v.source).x := by
  have hvalid : narrowedDraft.validate = .ok () := by decide +kernel
  have hfinite : narrowedDraft.FiniteShifts := by
    unfold MeshDraft.FiniteShifts
    decide +kernel
  have hparse := (MeshDraft.validate_eq_ok.mp hvalid).parse_headerText
  rw [MeshDraft.readShift_of_finite rfl hfinite.finiteShift] at hparse
  refine ⟨hvalid, rfl, hfinite, by decide +kernel, _, hparse, _, List.mem_cons_self, _, rfl, ?_⟩
  change MeshDraft.readBackDouble narrowedDraft.shiftRange.max.x < _
  decide +kernel

end ShiftMesh
