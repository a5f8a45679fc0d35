import ShiftMesh.Container.Single
import ShiftMesh.Proofs.Double.Absorption

/-!
# ShiftMesh.Proofs.Container.Single — single-precision bounds lie outside the doubles that they bound

* `InSingleRange`: a number within the range of singles; differences of such are finite.
* `SingleValue`: the values of singles; `RoundsSingle`: a double on the same side of each of them as a
  value.
* `roundsSingle_nearest`: the nearest single is such, an infinite one included.
* `singleBelow_le`, `le_singleAbove`: a bound lies on its side of the double, unless the double is too
  small for all bits of a single.
-/

namespace ShiftMesh

open Container Double
open Decimal (Binary bitLength roundQuotient)
open Float.Model (UnpackedFloat Format)
open Float.Model.UnpackedFloat (Sign)

/-! ## Values -/

/-- The greatest value of a single. -/
def largestSingle : ℚ := scaled (2 ^ 24 - 1) 104

/-- The values of singles: 24 bits at some exponent from the least one on. -/
def SingleValue (g : ℚ) : Prop :=
  |g| ≤ largestSingle ∧ ∃ n c : ℤ, -149 ≤ c ∧ |n| ≤ 2 ^ 24 ∧ g = scaled n c

/-- A double on the same side of every value of a single as `v`. -/
structure RoundsSingle (x : Float) (v : ℚ) : Prop where
  isNumber : x.isNaN = false
  value_le : ∀ g, SingleValue g → v ≤ g → value x ≤ g
  le_value : ∀ g, SingleValue g → g ≤ v → g ≤ value x

theorem largestSingle_lt_top : largestSingle < top := scaled_lt_top (by norm_num) (by norm_num)

theorem SingleValue.neg {g : ℚ} (h : SingleValue g) : SingleValue (-g) := by
  obtain ⟨hle, n, c, hc, hn, rfl⟩ := h
  exact ⟨by rwa [abs_neg], -n, c, hc, by rwa [abs_neg], (scaled_neg n c).symm⟩

/-- Every value of a single is one of a double. -/
theorem SingleValue.representable {g : ℚ} (h : SingleValue g) : Representable g := by
  obtain ⟨hle, n, c, hc, hn, rfl⟩ := h
  exact ⟨hle.trans largestSingle_lt_top.le, n, c, by omega, hn.trans (by norm_num), rfl⟩

/-! ## Powers of two -/

/-- The fields of bits that hold an exponent alone. -/
theorem fields_of_exponent {k : ℕ} (hk : k < 2 ^ 11) :
    Binary.exponentField (k * 2 ^ 52) = k ∧ Binary.fractionField (k * 2 ^ 52) = 0 ∧
      Binary.signBit (k * 2 ^ 52) = false := by
  have hexponent : ∀ n, Binary.exponentField n = n / 2 ^ 52 % 2 ^ 11 := fun _ => rfl
  have hfraction : ∀ n, Binary.fractionField n = n % 2 ^ 52 := fun _ => rfl
  have hsign : ∀ n, Binary.signBit n = decide (n / 2 ^ 63 % 2 = 1) := fun _ => rfl
  rw [hexponent, hfraction, hsign, Nat.mul_div_cancel _ (by positivity), Nat.mul_mod_left]
  exact ⟨Nat.mod_eq_of_lt hk, rfl, decide_eq_false (by omega)⟩

theorem value_twoPower {e : ℤ} (he : -1022 ≤ e) (he' : e ≤ 1023) :
    (twoPower e).isFinite = true ∧ value (twoPower e) = scaled 1 e := by
  obtain ⟨k, hk⟩ : ∃ k : ℕ, (e + 1023).toNat = k := ⟨_, rfl⟩
  obtain ⟨hexponent, hfraction, hsign⟩ := fields_of_exponent (k := k) (by omega)
  have hbits : (UInt64.ofNat (k * 2 ^ 52)).toBitVec.toNat = k * 2 ^ 52 := by
    have hlt : k * 2 ^ 52 < 2 ^ 64 := by omega
    rw [UInt64.toNat_toBitVec, UInt64.toNat_ofNat', Nat.mod_eq_of_lt hlt]
  have hreading := reading (UInt64.ofNat (k * 2 ^ 52)).toBitVec
  have htwo : ∀ n, Float.ofBits n = packed (UnpackedFloat.unpack Format.binary64 n.toBitVec) :=
    fun _ => rfl
  have hpow : Nat.pow 2 52 = 2 ^ 52 := rfl
  rw [twoPower, hk, hpow, htwo]
  rw [hbits] at hreading
  generalize UnpackedFloat.unpack Format.binary64 (UInt64.ofNat (k * 2 ^ 52)).toBitVec = u at hreading ⊢
  generalize k * 2 ^ 52 = bits at hreading hexponent hfraction hsign
  cases hreading with
  | infinity h _ => omega
  | notANumber h _ => omega
  | zero h _ => omega
  | subnormal h _ => omega
  | @normal m _ _ hm hpos =>
    rw [hfraction, add_zero] at hm
    have hfits : Fits m (k - 1075) := ⟨hpos, by omega, by omega, by omega, Or.inl (by omega)⟩
    have hvalue : scaled m (k - 1075) = scaled 1 e := by
      have hexp : e = (k - 1075 : ℤ) + (52 : ℕ) := by omega
      rw [hexp, scaled_shift, one_mul, hm]
      norm_num
    rw [hsign, hexponent, value, unpacked_packed_finite hpos hfits]
    have hfinite : (packed (.finite (signOf false) m (k - 1075) hpos)).isFinite =
        (unpacked (packed (.finite (signOf false) m (k - 1075) hpos))).isFinite := rfl
    rw [hfinite, unpacked_packed_finite hpos hfits]
    exact ⟨rfl, hvalue⟩

/-! ## The range of singles -/

/-- The greatest single, as a double. -/
def maxSingle : Float := Float.ofBits 0x47EFFFFFE0000000

/-- A number within the range of singles. -/
def InSingleRange (x : Float) : Prop := -maxSingle ≤ x ∧ x ≤ maxSingle

instance (x : Float) : Decidable (InSingleRange x) := inferInstanceAs (Decidable (_ ∧ _))

theorem value_maxSingle : maxSingle.isFinite = true ∧ value maxSingle = largestSingle := by
  obtain ⟨hfinite, hvalue⟩ := value_of_ofFloat (x := maxSingle) (m := (2 ^ 24 - 1) * 2 ^ 29) (e := 75)
    (by norm_num) (by decide +kernel)
  refine ⟨hfinite, hvalue.trans ?_⟩
  rw [largestSingle, scaled_eq, scaled_eq]
  norm_num

theorem InSingleRange.abs_value_le {x : Float} (h : InSingleRange x) :
    x.isNaN = false ∧ |value x| ≤ largestSingle := by
  obtain ⟨hfinite, hvalue⟩ := value_maxSingle
  have hmax := isNaN_of_isFinite hfinite
  obtain ⟨hneg, hnegvalue⟩ := value_neg hmax
  have hnumber := (isNaN_of_le h.1).2
  refine ⟨hnumber, abs_le.mpr ⟨?_, ?_⟩⟩
  · rw [← hvalue, ← hnegvalue]
    exact (le_iff hneg hnumber).mp h.1
  · rw [← hvalue]
    exact (le_iff hnumber hmax).mp h.2

theorem InSingleRange.isFinite {x : Float} (h : InSingleRange x) : x.isFinite = true :=
  isFinite_iff.mpr ⟨h.abs_value_le.1, h.abs_value_le.2.trans_lt largestSingle_lt_top⟩

theorem two_mul_largestSingle : scaled (2 ^ 24 - 1) 105 = largestSingle * 2 := by
  rw [largestSingle, scaled_eq, scaled_eq]
  norm_num

/-- A neighbour of a value of at most twice the greatest single is finite. -/
theorem isFinite_of_rounds {x : Float} {v : ℚ} (h : Rounds x v) (hv : |v| ≤ largestSingle * 2) :
    x.isFinite = true := by
  rw [← two_mul_largestSingle] at hv
  exact h.isFinite (representable_scaled (by norm_num) (by norm_num) (by norm_num))
    (scaled_lt_top (by norm_num) (by norm_num)) hv

/-- A difference of numbers within the range of singles is finite. -/
theorem InSingleRange.isFinite_sub {x y : Float} (hx : InSingleRange x) (hy : InSingleRange y) :
    (x - y).isFinite = true := by
  refine isFinite_of_rounds (rounds_sub hx.isFinite hy.isFinite) ((abs_sub _ _).trans ?_)
  rw [mul_two]
  exact add_le_add hx.abs_value_le.2 hy.abs_value_le.2

/-! ## The nearest single -/

theorem roundQuotient_le {m k n : ℕ} (h : m ≤ n * 2 ^ k) : roundQuotient m k ≤ n := by
  have hpow : 0 < 2 ^ k := by positivity
  have hdiv : 2 ^ k * (m / 2 ^ k) + m % 2 ^ k = m := Nat.div_add_mod m (2 ^ k)
  have hmod : m % 2 ^ k < 2 ^ k := Nat.mod_lt _ hpow
  have hle : m / 2 ^ k ≤ n := Nat.div_le_of_le_mul (by rwa [mul_comm])
  -- only a quotient that leaves something over is rounded up, and then it is below `n`
  have hlt : 0 < m % 2 ^ k → m / 2 ^ k < n := by
    intro hover
    by_contra hge
    have hmul : 2 ^ k * n ≤ 2 ^ k * (m / 2 ^ k) := Nat.mul_le_mul_left _ (not_lt.mp hge)
    rw [mul_comm] at h
    omega
  change (if 2 * (m % 2 ^ k) < 2 ^ k then m / 2 ^ k
    else if 2 ^ k < 2 * (m % 2 ^ k) then m / 2 ^ k + 1
    else m / 2 ^ k + m / 2 ^ k % 2) ≤ n
  split_ifs with hlow hhigh
  · exact hle
  · have := hlt (by omega)
    omega
  · have := hlt (by omega)
    omega

theorem le_roundQuotient {m k n : ℕ} (h : n * 2 ^ k ≤ m) : n ≤ roundQuotient m k := by
  have hle : n ≤ m / 2 ^ k := (Nat.le_div_iff_mul_le (by positivity)).mpr h
  change n ≤ if 2 * (m % 2 ^ k) < 2 ^ k then m / 2 ^ k
    else if 2 ^ k < 2 * (m % 2 ^ k) then m / 2 ^ k + 1
    else m / 2 ^ k + m / 2 ^ k % 2
  split_ifs <;> omega

theorem bitLength_bounds {m : ℕ} (hm : 0 < m) :
    m < 2 ^ bitLength m ∧ ∃ k, bitLength m = k + 1 ∧ 2 ^ k ≤ m := by
  rw [bitLength, if_neg hm.ne']
  exact ⟨Nat.lt_log2_self, m.log2, rfl, Nat.log2_self_le hm.ne'⟩

/-- The significand and the exponent that a magnitude is rounded to. -/
theorem exists_rounded_magnitude {m : ℕ} (hm : 0 < m) (q : ℤ) :
    ∃ (n : ℕ) (e : ℤ), nearestMagnitude m q =
        (if 128 < e + bitLength n then infinity else Float.ofNat n * twoPower e) ∧
      n ≤ 2 ^ 24 ∧ -149 ≤ e ∧ (0 < n ∨ e = -149) ∧ ∀ g, SingleValue g →
        (scaled m q ≤ g → scaled n e ≤ g) ∧ (g ≤ scaled m q → g ≤ scaled n e) := by
  obtain ⟨hlt, l, hl, hle⟩ := bitLength_bounds hm
  obtain ⟨unit, hunit⟩ : ∃ unit, max (q + bitLength m - 24) (-149) = unit := ⟨_, rfl⟩
  have hleast : -149 ≤ unit := hunit ▸ le_max_right _ _
  have hbits : q + bitLength m - 24 ≤ unit := hunit ▸ le_max_left _ _
  rw [nearestMagnitude, hunit]
  by_cases hexact : unit ≤ q
  · refine ⟨m, q, by simp only [if_pos hexact], ?_, by omega, Or.inl hm, fun g _ => ⟨id, id⟩⟩
    exact hlt.le.trans (Nat.pow_le_pow_right two_pos (by omega))
  · obtain ⟨k, hk⟩ : ∃ k : ℕ, unit = q + k := ⟨(unit - q).toNat, by omega⟩
    have hshift : (unit - q).toNat = k := by omega
    -- unless the unit is the least one, the magnitude has 24 bits in it
    have hfull : 2 ^ 23 * 2 ^ k ≤ m ∨ q + k = -149 := by
      rcases max_choice (q + (bitLength m : ℤ) - 24) (-149) with h | h
      · left
        have hlog : 23 + k = l := by omega
        rw [← pow_add, hlog]
        exact hle
      · right
        omega
    refine ⟨roundQuotient m k, unit, by simp only [if_neg hexact, hshift], ?_, hleast, ?_, ?_⟩
    · refine roundQuotient_le (hlt.le.trans ?_)
      rw [← pow_add]
      exact Nat.pow_le_pow_right two_pos (by omega)
    · rw [hk]
      exact hfull.imp_left fun h => (by norm_num : 0 < 2 ^ 23).trans_le (le_roundQuotient h)
    · rintro g ⟨-, n, c, hc, hn, rfl⟩
      rw [hk]
      exact neighbour_of_quotient hm (fun _ => roundQuotient_le) (fun _ => le_roundQuotient) hfull hc hn

/-- A magnitude that needs more bits than the greatest single is beyond it. -/
theorem largestSingle_lt_of_overflow {n : ℕ} {e : ℤ} (hn : 0 < n) (h : 128 < e + bitLength n) :
    largestSingle < scaled n e := by
  obtain ⟨-, l, hl, hle⟩ := bitLength_bounds hn
  obtain ⟨j, hj⟩ : ∃ j : ℕ, e = 104 - l + (24 + j : ℕ) := ⟨(e + l - 128).toNat, by omega⟩
  have hunit : largestSingle = scaled ((2 ^ 24 - 1) * 2 ^ l) (104 - l) := by
    rw [← scaled_shift, sub_add_cancel]
    rfl
  have hgreat : (2 : ℤ) ^ l * 2 ^ 24 ≤ n * 2 ^ (24 + j) :=
    mul_le_mul (by exact_mod_cast hle) (pow_le_pow_right₀ (by norm_num) (by omega))
      (by positivity) (by positivity)
  have hpow : (0 : ℤ) < 2 ^ l := by positivity
  rw [hunit, hj, scaled_shift, scaled_lt_scaled]
  linarith

theorem roundsSingle_magnitude {m : ℕ} (hm : 0 < m) (q : ℤ) :
    RoundsSingle (nearestMagnitude m q) (scaled m q) := by
  obtain ⟨n, e, hnearest, hn, he, hpositive, hside⟩ := exists_rounded_magnitude hm q
  have hlength : 0 < n ∨ e = -149 ∧ bitLength n = 0 := by
    rcases Nat.eq_zero_or_pos n with rfl | hpos
    · exact Or.inr ⟨hpositive.resolve_left (lt_irrefl 0), rfl⟩
    · exact Or.inl hpos
  rw [hnearest]
  by_cases hover : 128 < e + bitLength n
  · -- beyond the greatest single
    rw [if_pos hover]
    obtain ⟨hnumber, hvalue⟩ := value_infinity
    have hbeyond := largestSingle_lt_of_overflow (hlength.resolve_right (by omega)) hover
    refine ⟨hnumber, fun g hg h => ?_, fun g hg h => ?_⟩
    · have hle := (hside g hg).1 h
      exact absurd (hle.trans ((le_abs_self g).trans hg.1)) (not_le.mpr hbeyond)
    · rw [hvalue]
      exact (le_abs_self g).trans (hg.1.trans largestSingle_lt_top.le)
  · rw [if_neg hover]
    have he' : e ≤ 128 := by omega
    have hcount : n ≤ 2 ^ 53 := hn.trans (by norm_num)
    have hnat : Representable n := representable_count hcount
    have hfinite := (rounds_ofNat n).isFinite hnat (count_lt_top hcount) (by simp)
    obtain ⟨hfinite', hvalue'⟩ := value_twoPower (e := e) (by omega) (by omega)
    have hproduct := rounds_mul hfinite hfinite'
    have hexact : value (Float.ofNat n) * value (twoPower e) = scaled n e := by
      rw [(rounds_ofNat n).eq_of_representable hnat, hvalue', scaled_eq, scaled_eq, Int.cast_one,
        one_mul, Int.cast_natCast]
    have hrep : Representable (scaled n e) :=
      representable_scaled (by rw [Nat.abs_cast]; exact_mod_cast hcount) (by omega) (by omega)
    rw [hexact] at hproduct
    have hvalue := hproduct.eq_of_representable hrep
    exact ⟨hproduct.isNumber, fun g hg h => hvalue ▸ (hside g hg).1 h,
      fun g hg h => hvalue ▸ (hside g hg).2 h⟩

theorem RoundsSingle.neg {x : Float} {v : ℚ} (h : RoundsSingle x v) : RoundsSingle (-x) (-v) := by
  obtain ⟨hnumber, hvalue⟩ := value_neg h.isNumber
  refine ⟨hnumber, fun g hg hle => ?_, fun g hg hle => ?_⟩
  · rw [hvalue]
    exact neg_le.mp (h.le_value _ hg.neg (neg_le.mp hle))
  · rw [hvalue]
    exact le_neg.mp (h.value_le _ hg.neg (le_neg.mp hle))

/-- The nearest single is on the same side of every value of a single as the double. -/
theorem roundsSingle_nearest {x : Float} (h : x.isFinite = true) :
    RoundsSingle (nearestSingle x) (value x) := by
  have hnumber := isNaN_of_isFinite h
  rw [nearestSingle, ofFloat_eq]
  rcases finite_cases h with ⟨s, hu⟩ | ⟨s, m, e, hm, hu, -, hvalue⟩
  · rw [hu]
    simp only [if_true]
    exact ⟨hnumber, fun _ _ hle => hle, fun _ _ hle => hle⟩
  · rw [hu, hvalue]
    simp only [if_neg hm.ne']
    cases s with
    | negative => exact (roundsSingle_magnitude hm e).neg
    | positive => exact roundsSingle_magnitude hm e

/-! ## Bounds -/

/-- The unit of the last place of a magnitude within the range of full singles. -/
theorem exists_unit {v : ℚ} (h : v ≤ largestSingle) (hfull : scaled 1 (-126) ≤ v) :
    ∃ c : ℤ, -149 ≤ c ∧ c ≤ 104 ∧ 2 ^ 23 * 2 ^ c ≤ v ∧ v < 2 ^ 24 * 2 ^ c := by
  have hleast : scaled 1 (-126) = 2 ^ (-126 : ℤ) := by rw [scaled_eq, Int.cast_one, one_mul]
  have hpos : 0 < v := (scaled_pos one_pos).trans_le hfull
  obtain ⟨a, hlow, hhigh⟩ := exists_mem_Ico_zpow hpos one_lt_two
  have ha : -126 < a + 1 := by
    have hlt : (2 : ℚ) ^ (-126 : ℤ) < 2 ^ (a + 1) := (hleast ▸ hfull).trans_lt hhigh
    exact (zpow_lt_zpow_iff_right₀ one_lt_two).mp hlt
  have ha' : a < 128 := by
    have hlt : (2 : ℚ) ^ a < 2 ^ (128 : ℤ) := by
      refine (hlow.trans h).trans_lt ?_
      rw [largestSingle, scaled_eq]
      norm_num
    exact (zpow_lt_zpow_iff_right₀ one_lt_two).mp hlt
  obtain ⟨c, rfl⟩ : ∃ c, a = c + (23 : ℕ) := ⟨a - 23, by omega⟩
  have hsplit : (2 : ℚ) ^ (c + (23 : ℕ)) = 2 ^ 23 * 2 ^ c := by
    rw [zpow_add₀ two_ne_zero, zpow_natCast, mul_comm]
  rw [zpow_add_one₀ two_ne_zero, hsplit] at hhigh
  rw [hsplit] at hlow
  exact ⟨c, by omega, by omega, hlow, by linarith⟩

/-- Below a value is that of a single, and it is no less than the value less one part in `2^23`. -/
theorem exists_single_below {v : ℚ} (h : |v| ≤ largestSingle) (hfull : scaled 1 (-126) ≤ |v|) :
    ∃ g, SingleValue g ∧ g ≤ v ∧ v + |v| * -(1 / 2 ^ 23) ≤ g := by
  obtain ⟨c, hc, hc', hlow, hhigh⟩ := exists_unit h hfull
  have hunit : (0 : ℚ) < 2 ^ c := by positivity
  obtain ⟨hneg, hpos⟩ := abs_le.mp h
  obtain ⟨hneg', hpos'⟩ := abs_lt.mp hhigh
  have hfloor : scaled ⌊v / 2 ^ c⌋ c ≤ v := by
    rw [scaled_eq]
    exact (le_div_iff₀ hunit).mp (Int.floor_le _)
  have hnear : v < (⌊v / 2 ^ c⌋ + 1) * 2 ^ c := (div_lt_iff₀ hunit).mp (Int.lt_floor_add_one _)
  -- a multiple of the unit that is at most the value is at most its floor
  have hmultiple : ∀ n : ℤ, scaled n c ≤ v → n ≤ ⌊v / 2 ^ c⌋ := fun n hn =>
    Int.le_floor.mpr ((le_div_iff₀ hunit).mpr hn)
  refine ⟨scaled ⌊v / 2 ^ c⌋ c, ⟨abs_le.mpr ⟨?_, hfloor.trans hpos⟩, _, c, hc, ?_, rfl⟩, hfloor, ?_⟩
  · obtain ⟨j, hj⟩ : ∃ j : ℕ, (104 : ℤ) = c + j := ⟨(104 - c).toNat, by omega⟩
    have hlargest : -largestSingle = scaled (-((2 ^ 24 - 1) * 2 ^ j)) c := by
      rw [largestSingle, hj, scaled_shift, scaled_neg]
    rw [hlargest] at hneg ⊢
    exact scaled_le_scaled.mpr (hmultiple _ hneg)
  · refine abs_le.mpr ⟨hmultiple _ ?_, ?_⟩
    · rw [scaled_neg, scaled_eq]
      push_cast
      linarith
    · have hlt : scaled ⌊v / 2 ^ c⌋ c < scaled (2 ^ 24) c := by
        refine hfloor.trans_lt ?_
        rw [scaled_eq]
        push_cast
        linarith
      exact (scaled_lt_scaled.mp hlt).le
  · rw [scaled_eq]
    linarith

theorem exists_single_above {v : ℚ} (h : |v| ≤ largestSingle) (hfull : scaled 1 (-126) ≤ |v|) :
    ∃ g, SingleValue g ∧ v ≤ g ∧ g ≤ v + |v| * (1 / 2 ^ 23) := by
  rw [← abs_neg] at h hfull
  obtain ⟨g, hg, hle, hnear⟩ := exists_single_below h hfull
  rw [abs_neg] at hnear
  exact ⟨-g, hg.neg, le_neg.mp hle, by linarith⟩

/-- The factors by which a double is moved. -/
theorem value_factors :
    ((1.0 + singleUnit).isFinite = true ∧ value (1.0 + singleUnit) = 1 + 1 / 2 ^ 23) ∧
      (1.0 - singleUnit).isFinite = true ∧ value (1.0 - singleUnit) = 1 - 1 / 2 ^ 23 := by
  obtain ⟨hfinite, hvalue⟩ := value_of_ofFloat (x := 1.0 + singleUnit) (m := 2 ^ 52 + 2 ^ 29)
    (e := -52) (by norm_num) (by decide +kernel)
  obtain ⟨hfinite', hvalue'⟩ := value_of_ofFloat (x := 1.0 - singleUnit) (m := 2 ^ 53 - 2 ^ 30)
    (e := -53) (by norm_num) (by decide +kernel)
  refine ⟨⟨hfinite, hvalue.trans ?_⟩, hfinite', hvalue'.trans ?_⟩ <;> rw [scaled_eq] <;> norm_num

section Bounds

variable {x c : Float}

/-- Moving a double by a factor keeps it finite. -/
theorem rounds_moved (hx : x.isFinite = true) (h : |value x| ≤ largestSingle)
    (hc : c.isFinite = true) (hle : |value c| ≤ 2) :
    (x * c).isFinite = true ∧ Rounds (x * c) (value x * value c) := by
  have hrounds := rounds_mul hx hc
  refine ⟨isFinite_of_rounds hrounds ?_, hrounds⟩
  rw [abs_mul]
  exact mul_le_mul h hle (abs_nonneg _) ((abs_nonneg _).trans h)

theorem lt_zero_iff (hx : x.isNaN = false) : x < 0.0 ↔ value x < 0 := by
  rw [lt_iff hx zero_number.1, zero_number.2]

/-- With a factor for each sign, a double is moved in one direction whatever its sign. -/
theorem rounds_movedBy {a b : Float} {r : ℚ} (ha : a.isFinite = true ∧ value a = 1 - r)
    (hb : b.isFinite = true ∧ value b = 1 + r) (hr : |r| ≤ 1) (hx : x.isFinite = true)
    (h : |value x| ≤ largestSingle) : (x * if x < 0.0 then a else b).isFinite = true ∧
      Rounds (x * if x < 0.0 then a else b) (value x + |value x| * r) := by
  have hsign := lt_zero_iff (isNaN_of_isFinite hx)
  obtain ⟨hlow, hhigh⟩ := abs_le.mp hr
  by_cases hneg : x < 0.0
  · have hvalue : value x + |value x| * r = value x * value a := by
      rw [ha.2, abs_of_neg (hsign.mp hneg)]
      ring
    rw [if_pos hneg, hvalue]
    exact rounds_moved hx h ha.1 (by rw [ha.2, abs_le]; constructor <;> linarith)
  · have hvalue : value x + |value x| * r = value x * value b := by
      rw [hb.2, abs_of_nonneg (not_lt.mp (hsign.not.mp hneg))]
      ring
    rw [if_neg hneg, hvalue]
    exact rounds_moved hx h hb.1 (by rw [hb.2, abs_le]; constructor <;> linarith)

/-- The least single with all bits, as a double. -/
def leastFullSingle : Float := Float.ofBits 0x3810000000000000

/-- A number within the range of singles that is zero or has all bits of a single. -/
def InFullRange (x : Float) : Prop :=
  InSingleRange x ∧ (x == 0.0 ∨ leastFullSingle ≤ x ∨ x ≤ -leastFullSingle)

instance (x : Float) : Decidable (InFullRange x) := inferInstanceAs (Decidable (_ ∧ _))

theorem value_leastFullSingle :
    leastFullSingle.isFinite = true ∧ value leastFullSingle = scaled 1 (-126) := by
  obtain ⟨hfinite, hvalue⟩ := value_of_ofFloat (x := leastFullSingle) (m := 2 ^ 52) (e := -178)
    (by norm_num) (by decide +kernel)
  refine ⟨hfinite, hvalue.trans ?_⟩
  rw [scaled_eq, scaled_eq]
  norm_num

theorem singleValue_zero : SingleValue 0 := by
  refine ⟨?_, 0, 0, by norm_num, by norm_num, by rw [scaled_eq]; norm_num⟩
  rw [abs_zero, largestSingle]
  exact (scaled_pos (by norm_num)).le

/-- A double that is not its nearest single is not zero. -/
theorem InFullRange.least_le (h : InFullRange x) (hne : value (nearestSingle x) ≠ value x) :
    scaled 1 (-126) ≤ |value x| := by
  obtain ⟨hfinite, hvalue⟩ := value_leastFullSingle
  have hleast := isNaN_of_isFinite hfinite
  obtain ⟨hneg, hnegvalue⟩ := value_neg hleast
  have hnumber := h.1.abs_value_le.1
  rw [← hvalue]
  rcases h.2 with hzero | hpos | hlow
  · have hvalue : value x = 0 := ((beq_iff hnumber zero_number.1).mp hzero).trans zero_number.2
    have hnearest := roundsSingle_nearest h.1.isFinite
    rw [hvalue] at hnearest hne
    exact absurd (le_antisymm (hnearest.value_le 0 singleValue_zero le_rfl)
      (hnearest.le_value 0 singleValue_zero le_rfl)) hne
  · exact ((le_iff hleast hnumber).mp hpos).trans (le_abs_self _)
  · have hle := (le_iff hnumber hneg).mp hlow
    rw [hnegvalue] at hle
    exact (le_neg.mp hle).trans (neg_le_abs _)

/-- A lower bound is at most the double. -/
theorem singleBelow_le (h : InFullRange x) : singleBelow x ≤ x := by
  have hx := h.1.isFinite
  obtain ⟨hnumber, hrange⟩ := h.1.abs_value_le
  have hnearest := roundsSingle_nearest hx
  rw [singleBelow]
  by_cases hlt : x < nearestSingle x
  · simp only [if_pos hlt]
    rw [lt_iff hnumber hnearest.isNumber] at hlt
    obtain ⟨g, hg, hle, hnear⟩ := exists_single_below hrange (h.least_le hlt.ne')
    obtain ⟨hup, hdown⟩ := value_factors
    obtain ⟨hfinite, hrounds⟩ := rounds_movedBy (r := -(1 / 2 ^ 23)) (by rwa [sub_neg_eq_add])
      (by rwa [← sub_eq_add_neg]) (by norm_num) hx hrange
    have hsingle := roundsSingle_nearest hfinite
    rw [le_iff hsingle.isNumber hnumber]
    exact (hsingle.value_le g hg (hrounds.value_le g hg.representable hnear)).trans hle
  · simp only [if_neg hlt]
    rw [lt_iff hnumber hnearest.isNumber, not_lt] at hlt
    exact (le_iff hnearest.isNumber hnumber).mpr hlt

/-- An upper bound is at least the double. -/
theorem le_singleAbove (h : InFullRange x) : x ≤ singleAbove x := by
  have hx := h.1.isFinite
  obtain ⟨hnumber, hrange⟩ := h.1.abs_value_le
  have hnearest := roundsSingle_nearest hx
  rw [singleAbove]
  by_cases hlt : nearestSingle x < x
  · simp only [if_pos hlt]
    rw [lt_iff hnearest.isNumber hnumber] at hlt
    obtain ⟨g, hg, hle, hnear⟩ := exists_single_above hrange (h.least_le hlt.ne)
    obtain ⟨hup, hdown⟩ := value_factors
    obtain ⟨hfinite, hrounds⟩ := rounds_movedBy hdown hup (by norm_num) hx hrange
    have hsingle := roundsSingle_nearest hfinite
    rw [le_iff hnumber hsingle.isNumber]
    exact hle.trans (hsingle.le_value g hg (hrounds.le_value g hg.representable hnear))
  · simp only [if_neg hlt]
    rw [lt_iff hnearest.isNumber hnumber, not_lt] at hlt
    exact (le_iff hnumber hnearest.isNumber).mpr hlt

/-- Of three quarters of the least single the nearest single is the least one, and moving down by one
part in `2^23` does not change that: here the lower bound lies above the double. -/
example : ¬ singleBelow (Float.ofBits 0x3698000000000000) ≤ Float.ofBits 0x3698000000000000 := by
  decide +kernel

end Bounds

end ShiftMesh
