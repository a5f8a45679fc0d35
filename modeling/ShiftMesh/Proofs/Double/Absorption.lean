import ShiftMesh.Scalar
import ShiftMesh.Proofs.Double.Arithmetic

/-!
# ShiftMesh.Proofs.Double.Absorption — what arithmetic makes of NaN and of the infinities

* `not_finite_sub`, `not_finite_add`, `not_finite_mul`, `not_finite_div`: an operand that is not finite
  leaves a result that is not finite; only a divisor may be absorbed.
* `isFinite_of_between`: what compares with two finite doubles from both sides is finite.
* `sub_pos_of_lt`: a difference of ordered doubles is positive, also with infinities.
* `AtTop`: the doubles that are not below infinity; `AtTop.mul_self`, `AtTop.add`: sums of squares with
  an operand that is not finite are among them.
-/

namespace ShiftMesh.Double

open Float.Model (UnpackedFloat Format)

variable {x y : Float}

theorem infinity_eq : infinity = packed (.infinity .positive) := by decide +kernel

theorem value_infinity : infinity.isNaN = false ∧ value infinity = top := by
  rw [infinity_eq, isNaN_eq, value, unpacked_packed, unpack_pack_infinity]
  exact ⟨rfl, rfl⟩

/-! ## Operands that are not finite -/

theorem not_finite_cases (h : x.isFinite = false) :
    unpacked x = .notANumber ∨ ∃ s, unpacked x = .infinity s := by
  change (unpacked x).isFinite = false at h
  generalize unpacked x = u at h
  cases u with
  | notANumber => exact Or.inl rfl
  | infinity s => exact Or.inr ⟨s, rfl⟩
  | zero s => cases h
  | finite s m e hm => cases h

/-- Packing keeps NaN and the infinities. -/
theorem not_finite_packed {u : UnpackedFloat} (h : u.isFinite = false) :
    (packed u).isFinite = false := by
  show (unpacked (packed u)).isFinite = false
  cases u with
  | notANumber => rfl
  | infinity s =>
    rw [unpacked_packed, unpack_pack_infinity]
    rfl
  | zero s => cases h
  | finite s m e hm => cases h

/-- A double less another one. -/
theorem not_finite_sub (hx : x.isFinite = false) (y : Float) : (x - y).isFinite = false := by
  rw [sub_unpacked]
  apply not_finite_packed
  rcases not_finite_cases hx with h | ⟨s, h⟩ <;> rw [h]
  · rfl
  · cases unpacked y with
    | infinity t => cases s <;> cases t <;> rfl
    | _ => rfl

/-- A sum with such an operand on either side. -/
theorem not_finite_add (h : x.isFinite = false ∨ y.isFinite = false) : (x + y).isFinite = false := by
  rw [add_unpacked]
  apply not_finite_packed
  rcases h with hx | hy
  · rcases not_finite_cases hx with h | ⟨s, h⟩ <;> rw [h]
    · rfl
    · cases unpacked y with
      | infinity t => cases s <;> cases t <;> rfl
      | _ => rfl
  · rcases not_finite_cases hy with h | ⟨t, h⟩ <;> rw [h]
    · cases unpacked x <;> rfl
    · cases unpacked x with
      | infinity s => cases s <;> cases t <;> rfl
      | _ => rfl

/-- A product; zero times an infinity is no number. -/
theorem not_finite_mul (x : Float) (hy : y.isFinite = false) : (x * y).isFinite = false := by
  rw [mul_unpacked]
  apply not_finite_packed
  rcases not_finite_cases hy with h | ⟨t, h⟩ <;> rw [h] <;> cases unpacked x <;> rfl

/-- A quotient, whatever the divisor. -/
theorem not_finite_div (hx : x.isFinite = false) (y : Float) : (x / y).isFinite = false := by
  rw [div_unpacked]
  apply not_finite_packed
  rcases not_finite_cases hx with h | ⟨s, h⟩ <;> rw [h] <;> cases unpacked y <;> rfl

theorem isFinite_of_between {a b : Float} (ha : a.isFinite = true) (hb : b.isFinite = true)
    (hax : a ≤ x) (hxb : x ≤ b) : x.isFinite = true := by
  obtain ⟨hnumber, hbelow⟩ := isFinite_iff.mp ha
  obtain ⟨hnumber', habove⟩ := isFinite_iff.mp hb
  have hx := (isNaN_of_le hax).2
  have hlow := (le_iff hnumber hx).mp hax
  have hhigh := (le_iff hx hnumber').mp hxb
  exact isFinite_iff.mpr ⟨hx, abs_lt.mpr ⟨(abs_lt.mp hbelow).1.trans_le hlow,
    hhigh.trans_lt (abs_lt.mp habove).2⟩⟩

/-! ## Differences of ordered doubles -/

/-- A comparison that holds is one of numbers. -/
theorem isNaN_of_lt (h : x < y) : x.isNaN = false ∧ y.isNaN = false := by
  refine isNaN_of_le ((le_iff_compare x y).mpr ?_)
  rw [lt_iff_compare, beq_iff_eq] at h
  rw [h]
  rfl

/-- A finite double is a multiple of the least positive one. -/
theorem exists_multiple (h : x.isFinite = true) : ∃ k : ℤ, value x = scaled k (-1074) := by
  rcases finite_cases h with ⟨s, hu⟩ | ⟨s, m, e, hm, -, hfits, hvalue⟩
  · refine ⟨0, ?_⟩
    rw [value_of_zero hu, scaled_eq, Int.cast_zero, zero_mul]
  · exact ⟨_, hvalue.trans (signed_scaled s m hfits.least)⟩

/-- The difference of ordered values that are not both finite is positive infinity. -/
theorem sub_of_compare {u v : UnpackedFloat} (h : u.compare v = some .lt)
    (hinfinite : ¬ (u.isFinite = true ∧ v.isFinite = true)) :
    UnpackedFloat.sub Format.binary64 v u = .infinity .positive := by
  cases u with
  | notANumber => cases h
  | infinity s =>
    cases s with
    | positive => cases v with
      | infinity t => cases t <;> cases h
      | _ => cases h
    | negative => cases v with
      | notANumber => cases h
      | infinity t => cases t with
        | negative => cases h
        | positive => rfl
      | _ => rfl
  | _ => cases v with
    | notANumber => cases h
    | infinity t => cases t with
      | negative => cases h
      | positive => rfl
    | _ => exact absurd ⟨rfl, rfl⟩ hinfinite

/-- A difference of ordered doubles is positive: it does not round to zero. -/
theorem sub_pos_of_lt (h : x < y) : 0.0 < y - x := by
  obtain ⟨hx, hy⟩ := isNaN_of_lt h
  by_cases hfinite : x.isFinite = true ∧ y.isFinite = true
  · obtain ⟨j, hj⟩ := exists_multiple hfinite.1
    obtain ⟨k, hk⟩ := exists_multiple hfinite.2
    have hrounds := rounds_sub hfinite.2 hfinite.1
    have hleast : Representable (scaled 1 (-1074)) :=
      representable_scaled (by norm_num) (by norm_num) (by norm_num)
    rw [lt_iff hx hy, hj, hk, scaled_lt_scaled] at h
    rw [hj, hk, scaled_sub] at hrounds
    rw [lt_iff zero_number.1 hrounds.isNumber, zero_number.2]
    refine (scaled_pos one_pos).trans_le (hrounds.le_value _ hleast ?_)
    rw [scaled_le_scaled]
    omega
  · rw [lt_iff_compare, beq_iff_eq] at h
    rw [sub_unpacked, sub_of_compare h hfinite, ← infinity_eq]
    decide +kernel

/-! ## Sums of squares -/

/-- A double that is no number, or positive infinity. -/
def AtTop (x : Float) : Prop := unpacked x = .notANumber ∨ unpacked x = .infinity .positive

theorem AtTop.not_lt (h : AtTop x) : ¬ x < infinity := by
  rw [lt_iff_compare, infinity_eq, unpacked_packed, unpack_pack_infinity]
  rcases h with h | h <;> rw [h] <;> decide

theorem AtTop.of_unpacked {u : UnpackedFloat} (h : u = .notANumber ∨ u = .infinity .positive) :
    AtTop (packed u) := by
  rcases h with rfl | rfl
  · exact Or.inl rfl
  · exact Or.inr (unpack_pack_infinity .positive)

/-- The square of a double that is not finite. -/
theorem AtTop.mul_self (h : x.isFinite = false) : AtTop (x * x) := by
  rw [mul_unpacked]
  apply AtTop.of_unpacked
  rcases not_finite_cases h with h | ⟨s, h⟩ <;> rw [h]
  · exact Or.inl rfl
  · cases s <;> exact Or.inr rfl

/-- No square is negative infinity. -/
theorem mul_self_ne (x : Float) : unpacked (x * x) ≠ .infinity .negative := by
  cases hx : x.isFinite with
  | false =>
    rcases AtTop.mul_self hx with h | h <;> rw [h] <;> simp
  | true =>
    have hzero : Representable 0 := by
      have := representable_count (n := 0) (by norm_num)
      rwa [Nat.cast_zero] at this
    have hnonneg := (rounds_mul hx hx).le_value 0 hzero (mul_self_nonneg _)
    intro h
    have hvalue : value (x * x) = -top := by rw [value, h]; rfl
    rw [hvalue] at hnonneg
    linarith [top_pos]

/-- The other operand of a sum makes no difference, unless it is negative infinity. -/
theorem AtTop.add (h : AtTop x ∨ AtTop y) (hx : unpacked x ≠ .infinity .negative)
    (hy : unpacked y ≠ .infinity .negative) : AtTop (x + y) := by
  rw [add_unpacked]
  apply AtTop.of_unpacked
  rcases h with (h | h) | (h | h) <;> rw [h]
  · exact Or.inl rfl
  · cases hv : unpacked y with
    | notANumber => exact Or.inl rfl
    | infinity t =>
      cases t with
      | negative => exact absurd hv hy
      | positive => exact Or.inr rfl
    | zero t => exact Or.inr rfl
    | finite t n c hn => exact Or.inr rfl
  · cases unpacked x <;> exact Or.inl rfl
  · cases hu : unpacked x with
    | notANumber => exact Or.inl rfl
    | infinity s =>
      cases s with
      | negative => exact absurd hu hx
      | positive => exact Or.inr rfl
    | zero s => exact Or.inr rfl
    | finite s m e hm => exact Or.inr rfl

/-- A sum of squares, one of them of a double that is not finite. -/
theorem AtTop.add_squares (h : x.isFinite = false ∨ y.isFinite = false) :
    AtTop (x * x + y * y) :=
  .add (h.imp AtTop.mul_self AtTop.mul_self) (mul_self_ne x) (mul_self_ne y)

end ShiftMesh.Double
