import ShiftMesh.Proofs.Double.Order

/-!
# ShiftMesh.Proofs.Double.Rounding — what rounding does to a value

* `rounded`: the significand after dropping bits; it goes to the nearest number, and to the even one at
  a half (`rounded_le_of_half`, `lt_rounded_of_half`).
* `Representable`: the values of doubles, the tops included; `Nearest`: the values that round to a
  double.
* `Rounds`: a double is one of the two neighbours of a value: it is on the same side of every
  representable one, and it is the nearest one.
* `rounds_of_round`: the rounding of the model is such.
-/

namespace ShiftMesh.Double

open Float.Model (UnpackedFloat Format totalExponent)
open Float.Model.UnpackedFloat (Sign ExtendedMantissa shiftToTargetExponent shiftToExponent
  roundWithAccuracy)

/-! ## Dropping bits -/

theorem shift_succ (em : ExtendedMantissa) (k : ℕ) : em >>> (k + 1) = (em >>> k).shiftRightOne := rfl

/-- The two bits that are left of those that are dropped. -/
theorem shift_bits (m : ℕ) : ∀ k, (⟨m, false, false⟩ : ExtendedMantissa) >>> (k + 1) =
    ⟨m / 2 ^ k / 2, m / 2 ^ k % 2 != 0, m % 2 ^ k != 0⟩
  | 0 => by
    rw [pow_zero, Nat.div_one, Nat.mod_one]
    rfl
  | k + 1 => by
    rw [shift_succ, shift_bits m k, ExtendedMantissa.shiftRightOne, Nat.mod_pow_succ, pow_succ,
      ← Nat.div_div_eq_div_mul]
    have hpow : 0 < 2 ^ k := by positivity
    rcases Nat.mod_two_eq_zero_or_one (m / 2 ^ k) with h | h <;> simp [h]

/-- A significand is rounded up beyond a half, and at a half if it is odd. -/
theorem roundedMantissa_eq (m : ℕ) (round rest : Bool) :
    (⟨m, round, rest⟩ : ExtendedMantissa).roundedMantissa =
      if round = true ∧ (rest = true ∨ m % 2 = 1) then m + 1 else m := by
  cases round <;> cases rest
  case true.false =>
    rcases Nat.mod_two_eq_zero_or_one m with h | h <;>
      simp [ExtendedMantissa.roundedMantissa, ExtendedMantissa.accuracy,
        Float.Model.UnpackedFloat.Accuracy.roundToNearestEven, h]
  all_goals simp [ExtendedMantissa.roundedMantissa, ExtendedMantissa.accuracy,
    Float.Model.UnpackedFloat.Accuracy.roundToNearestEven]

/-- The significand that is left after dropping `k` bits. -/
def rounded (m k : ℕ) : ℕ := ((⟨m, false, false⟩ : ExtendedMantissa) >>> k).roundedMantissa

theorem rounded_zero (m : ℕ) : rounded m 0 = m := rfl

theorem rounded_succ (m k : ℕ) : rounded m (k + 1) =
    if m / 2 ^ k % 2 = 1 ∧ (m % 2 ^ k ≠ 0 ∨ m / 2 ^ k / 2 % 2 = 1) then m / 2 ^ k / 2 + 1
    else m / 2 ^ k / 2 := by
  rw [rounded, shift_bits, roundedMantissa_eq]
  simp only [bne_iff_ne, Nat.mod_two_ne_zero]

/-- Up to half a unit above a number, rounding goes no further than that number; at the half if it is
even. -/
theorem rounded_le_of_half {m k a : ℕ} (h : 2 * m ≤ (2 * a + 1) * 2 ^ k)
    (hodd : a % 2 = 1 → 2 * m < (2 * a + 1) * 2 ^ k) : rounded m k ≤ a := by
  cases k with
  | zero =>
    rw [rounded_zero]
    omega
  | succ k =>
    have hpow : 0 < 2 ^ k := by positivity
    have hdouble : (2 * a + 1) * 2 ^ (k + 1) = 2 * ((2 * a + 1) * 2 ^ k) := by ring
    rw [hdouble] at h hodd
    have hcases : m / 2 ^ k < 2 * a + 1 ∨ m / 2 ^ k = 2 * a + 1 ∧ m % 2 ^ k = 0 ∧ a % 2 = 0 := by
      rcases (show m ≤ (2 * a + 1) * 2 ^ k by omega).lt_or_eq with hlt | rfl
      · exact Or.inl ((Nat.div_lt_iff_lt_mul hpow).mpr hlt)
      · exact Or.inr ⟨Nat.mul_div_cancel _ hpow, Nat.mul_mod_left _ _, by omega⟩
    rw [rounded_succ]
    split_ifs <;> omega

/-- From half a unit above a number on, rounding goes beyond that number; at the half if it is odd. -/
theorem lt_rounded_of_half {m k a : ℕ} (h : (2 * a + 1) * 2 ^ k ≤ 2 * m)
    (heven : a % 2 = 0 → (2 * a + 1) * 2 ^ k < 2 * m) : a < rounded m k := by
  cases k with
  | zero =>
    rw [rounded_zero]
    omega
  | succ k =>
    have hpow : 0 < 2 ^ k := by positivity
    have hdouble : (2 * a + 1) * 2 ^ (k + 1) = 2 * ((2 * a + 1) * 2 ^ k) := by ring
    rw [hdouble] at h heven
    have hle : 2 * a + 1 ≤ m / 2 ^ k := (Nat.le_div_iff_mul_le hpow).mpr (by omega)
    have hrest : m / 2 ^ k = 2 * a + 1 → m % 2 ^ k = 0 → a % 2 = 1 := fun hdiv hmod => by
      have hm := Nat.div_add_mod m (2 ^ k)
      rw [hdiv, hmod, add_zero, mul_comm] at hm
      omega
    rw [rounded_succ]
    split_ifs <;> omega

theorem rounded_le {m k n : ℕ} (h : m ≤ n * 2 ^ k) : rounded m k ≤ n := by
  have hpow : 0 < 2 ^ k := by positivity
  have hhalf : (2 * n + 1) * 2 ^ k = 2 * (n * 2 ^ k) + 2 ^ k := by ring
  exact rounded_le_of_half (by omega) fun _ => by omega

theorem le_rounded {m k n : ℕ} (h : n * 2 ^ k ≤ m) : n ≤ rounded m k := by
  rcases n with _ | a
  · exact Nat.zero_le _
  · have hpow : 0 < 2 ^ k := by positivity
    have hhalf : (2 * a + 1) * 2 ^ k + 2 ^ k = 2 * ((a + 1) * 2 ^ k) := by ring
    exact lt_rounded_of_half (by omega) fun _ => by omega

/-! ## The exponent after rounding -/

/-- The exponent at which `m · 2^e` has 53 bits, but no less than the least one. -/
def target (m : ℕ) (e : ℤ) : ℤ := max (m.log2 + e - 52) (-1074)

theorem targetExponent_eq (m : ℕ) (e : ℤ) :
    Format.binary64.targetExponent (totalExponent m e) = target m e := by
  have hmin : Format.binary64.minExponent = -1074 := by decide
  have hbits : (Format.binary64.mantissaBits : ℤ) = 53 := by decide
  rw [Format.targetExponent, totalExponent, hmin, hbits, target]
  congr 1
  ring

theorem shiftToTargetExponent_exact (m : ℕ) (e : ℤ) :
    shiftToTargetExponent Format.binary64 m e .exact =
      ((⟨m, false, false⟩ : ExtendedMantissa) >>> (target m e - e).toNat,
        e + (target m e - e).toNat) := by
  rw [shiftToTargetExponent, targetExponent_eq]
  rfl

/-- A significand of at most 53 bits is not shifted. -/
theorem target_le {m : ℕ} {e : ℤ} (hm : m < 2 ^ 53) (he : -1074 ≤ e) : target m e ≤ e := by
  have hlog : m.log2 < 53 := by
    rcases Nat.eq_zero_or_pos m with rfl | hpos
    · decide
    · exact (Nat.log2_lt hpos.ne').mpr hm
  unfold target
  omega

theorem target_two_pow {e : ℤ} (he : -1074 ≤ e) : target (2 ^ 53) e = e + 1 := by
  rw [target, Nat.log2_two_pow]
  omega

/-- What rounding makes of a sign, a significand and an exponent: after the first shift the
significand has at most 53 bits, or it is the least one of 54. -/
theorem roundWithAccuracy_eq {s : Sign} {m k : ℕ} {e : ℤ} (hk : target m e = e + k)
    (hr : rounded m k ≤ 2 ^ 53) :
    roundWithAccuracy Format.binary64 s m e .exact =
      if h : rounded m k = 0 then .zero s
      else if rounded m k < 2 ^ 53 then .finite s (rounded m k) (e + k) (Nat.pos_of_ne_zero h)
      else .finite s (2 ^ 52) (e + k + 1) (by decide) := by
  have hleast : -1074 ≤ e + k := hk ▸ le_max_right _ _
  have hshift : (target m e - e).toNat = k := by omega
  have hfold : ((⟨m, false, false⟩ : ExtendedMantissa) >>> k).roundedMantissa = rounded m k := rfl
  rw [roundWithAccuracy, shiftToTargetExponent_exact, hshift]
  simp only [hfold, shiftToTargetExponent_exact]
  by_cases hlt : rounded m k < 2 ^ 53
  · have hnone : (target (rounded m k) (e + k) - (e + k)).toNat = 0 := by
      have := target_le hlt hleast
      omega
    have hsame : ∀ r, (⟨r, false, false⟩ : ExtendedMantissa) >>> 0 = ⟨r, false, false⟩ :=
      fun _ => rfl
    simp only [hnone, hsame, if_pos hlt, Nat.cast_zero, add_zero]
  · have hr53 : rounded m k = 2 ^ 53 := by omega
    have hone : (target (2 ^ 53) (e + k) - (e + k)).toNat = 1 := by
      have := target_two_pow hleast
      omega
    have hhalf : (⟨2 ^ 53, false, false⟩ : ExtendedMantissa) >>> 1 = ⟨2 ^ 52, false, false⟩ := rfl
    simp only [hr53, hone, hhalf, Nat.cast_one]
    rw [dif_neg (by decide), dif_neg (by decide), if_neg (by decide)]

/-! ## Representable values -/

/-- The values of doubles, and the tops: 53 bits, or the least number of 54, at some exponent from the
least one on. -/
def Representable (g : ℚ) : Prop :=
  |g| ≤ top ∧ ∃ n c : ℤ, -1074 ≤ c ∧ |n| ≤ 2 ^ 53 ∧ g = scaled n c

/-- The upper end of the values that round to `m · 2^q`, half a unit above. -/
def highEnd (m : ℕ) (q : ℤ) : ℚ := scaled (2 * m + 1) (q - 1)

/-- The lower end: half a unit below, or a quarter of one below a power of two, where the doubles lie
twice as dense. -/
def lowEnd (m : ℕ) (q : ℤ) : ℚ :=
  if m = 2 ^ 52 ∧ -1074 < q then scaled (4 * m - 1) (q - 2) else scaled (2 * m - 1) (q - 1)

/-- The values that round to `m · 2^q`; the two ends do if `m` is even. -/
structure Nearest (m : ℕ) (q : ℤ) (v : ℚ) : Prop where
  low : lowEnd m q ≤ v
  high : v ≤ highEnd m q
  inner : m % 2 = 1 → lowEnd m q < v ∧ v < highEnd m q

/-- A double is a neighbour of a value: it is a number, and on the same side of every representable
one.  It is the neighbour that the value is nearest to. -/
structure Rounds (x : Float) (v : ℚ) : Prop where
  isNumber : x.isNaN = false
  value_le : ∀ g, Representable g → v ≤ g → value x ≤ g
  le_value : ∀ g, Representable g → g ≤ v → g ≤ value x
  nearest : ∀ m q, Fits m q → Nearest m q |v| → |value x| = scaled m q

namespace Representable

theorem neg {g : ℚ} (h : Representable g) : Representable (-g) := by
  obtain ⟨htop, n, c, hc, hn, rfl⟩ := h
  refine ⟨by rwa [abs_neg], -n, c, hc, by rwa [abs_neg], (scaled_neg n c).symm⟩

end Representable

theorem Rounds.eq_of_representable {x : Float} {v : ℚ} (h : Rounds x v) (hv : Representable v) :
    value x = v :=
  le_antisymm (h.value_le v hv le_rfl) (h.le_value v hv le_rfl)

/-- What is on the same side of every multiple of a unit is on the same side of every value of `p + 1`
bits, if the unit is the least one or the value has as many bits in it. -/
theorem neighbour_of_multiples {v w : ℚ} {p : ℕ} {t least : ℤ}
    (hmultiple : ∀ n : ℤ, (v ≤ scaled n t → w ≤ scaled n t) ∧ (scaled n t ≤ v → scaled n t ≤ w))
    (hfull : scaled (2 ^ p) t ≤ v ∨ t ≤ least) {n c : ℤ} (hc : least ≤ c) (hn : |n| ≤ 2 ^ (p + 1)) :
    (v ≤ scaled n c → w ≤ scaled n c) ∧ (scaled n c ≤ v → scaled n c ≤ w) := by
  rcases le_or_gt t c with hct | hct
  · obtain ⟨j, rfl⟩ : ∃ j : ℕ, c = t + j := ⟨(c - t).toNat, by omega⟩
    rw [scaled_shift n t j]
    exact hmultiple _
  · -- a value of a finer unit is at most the least one with all bits in the unit
    have hlow : scaled (2 ^ p) t ≤ v := hfull.resolve_right (by omega)
    have hfine : scaled n c ≤ scaled (2 ^ p) t := by
      obtain ⟨j, hj⟩ : ∃ j : ℕ, t = c + (j + 1 : ℕ) := ⟨(t - c - 1).toNat, by omega⟩
      rw [hj, scaled_shift, scaled_le_scaled]
      calc n ≤ 2 ^ p * 2 ^ 1 := (abs_le.mp hn).2.trans_eq (pow_succ 2 p)
        _ ≤ 2 ^ p * 2 ^ (j + 1) := by gcongr <;> omega
    obtain ⟨hup, hdown⟩ := hmultiple (2 ^ p)
    refine ⟨fun h => ?_, fun _ => hfine.trans (hdown hlow)⟩
    exact (hup (h.trans hfine)).trans (hlow.trans h)

/-- Rounding a significand to `p + 1` bits, or to a multiple of the least unit, stays on the same side
of every value that has as many bits. -/
theorem neighbour_of_quotient {m r k p : ℕ} {e least : ℤ} (hm : 0 < m)
    (hup : ∀ n, m ≤ n * 2 ^ k → r ≤ n) (hdown : ∀ n, n * 2 ^ k ≤ m → n ≤ r)
    (hfull : 2 ^ p * 2 ^ k ≤ m ∨ e + k = least) {n c : ℤ} (hc : least ≤ c)
    (hn : |n| ≤ 2 ^ (p + 1)) :
    (scaled m e ≤ scaled n c → scaled r (e + k) ≤ scaled n c) ∧
      (scaled n c ≤ scaled m e → scaled n c ≤ scaled r (e + k)) := by
  refine neighbour_of_multiples (fun n => ?_) (hfull.imp (fun h => ?_) le_of_eq) hc hn
  · rw [scaled_le_scaled, scaled_le_scaled, scaled_shift, scaled_le_scaled, scaled_le_scaled]
    have hpow : (0 : ℤ) < 2 ^ k := by positivity
    rcases lt_or_ge 0 n with hn | hn
    · obtain ⟨n, rfl⟩ := Int.eq_ofNat_of_zero_le hn.le
      refine ⟨fun h => ?_, fun h => ?_⟩
      · exact_mod_cast hup n (by exact_mod_cast h)
      · exact_mod_cast hdown n (by exact_mod_cast h)
    · have hnonpos : n * 2 ^ k ≤ 0 := mul_nonpos_of_nonpos_of_nonneg hn hpow.le
      refine ⟨fun h => ?_, fun _ => ?_⟩ <;> omega
  · rw [scaled_shift, scaled_le_scaled]
    exact_mod_cast h

/-- Unless the unit is the least one, the value has 53 bits in it. -/
theorem full_of_target {m k : ℕ} {e : ℤ} (hm : 0 < m) (hk : target m e = e + k) :
    2 ^ 52 * 2 ^ k ≤ m ∨ e + k = -1074 := by
  unfold target at hk
  rcases max_choice ((m.log2 : ℤ) + e - 52) (-1074) with h | h
  · left
    have hlog : m.log2 = 52 + k := by omega
    rw [← pow_add, ← hlog]
    exact Nat.log2_self_le hm.ne'
  · right
    omega

/-- Rounding stays on the same side of every representable value. -/
theorem rounded_neighbour {m k : ℕ} {e : ℤ} (hm : 0 < m) (hk : target m e = e + k) {g : ℚ}
    (hg : Representable g) :
    (scaled m e ≤ g → scaled (rounded m k) (e + k) ≤ g) ∧
      (g ≤ scaled m e → g ≤ scaled (rounded m k) (e + k)) := by
  obtain ⟨-, n, c, hc, hn, rfl⟩ := hg
  exact neighbour_of_quotient hm (fun _ => rounded_le) (fun _ => le_rounded) (full_of_target hm hk) hc
    hn

/-! ## Rounding to nearest -/

section

variable {M m k : ℕ} {e q : ℤ}

theorem half_below_le_lowEnd (m : ℕ) (q : ℤ) : scaled (2 * m - 1) (q - 1) ≤ lowEnd m q := by
  unfold lowEnd
  split_ifs
  · have hexponent : q - 1 - 1 = q - 2 := by ring
    rw [scaled_double, hexponent, scaled_le_scaled]
    omega
  · exact le_rfl

/-- What rounds to a positive double is positive. -/
theorem Nearest.pos {v : ℚ} (h : Nearest m q v) (hm : 0 < m) : 0 < v :=
  (scaled_pos (by omega)).trans_le ((half_below_le_lowEnd m q).trans h.low)

/-- A number of half units against a significand before bits are dropped. -/
theorem scaled_half_compare (c M k : ℕ) (e : ℤ) :
    (scaled c (e + k - 1) ≤ scaled M e ↔ c * 2 ^ k ≤ 2 * M) ∧
      (scaled M e ≤ scaled c (e + k - 1) ↔ 2 * M ≤ c * 2 ^ k) := by
  have hexponent : e + k - 1 = e - 1 + k := by ring
  rw [hexponent, scaled_shift, scaled_double M e, scaled_le_scaled, scaled_le_scaled]
  exact ⟨by exact_mod_cast Iff.rfl, by exact_mod_cast Iff.rfl⟩

/-- The significand after rounding, if the unit is that of the double. -/
theorem rounded_eq_of_nearest (hm : 0 < m) (h : Nearest m (e + k) (scaled M e)) : rounded M k = m := by
  refine le_antisymm ?_ ?_
  · obtain ⟨-, hup⟩ := scaled_half_compare (2 * m + 1) M k e
    obtain ⟨hdown, -⟩ := scaled_half_compare (2 * m + 1) M k e
    refine rounded_le_of_half (hup.mp ?_) fun hodd => not_le.mp (mt hdown.mpr (not_le.mpr ?_))
    · exact_mod_cast h.high
    · exact_mod_cast (h.inner hodd).2
  · obtain ⟨a, rfl⟩ : ∃ a, m = a + 1 := ⟨m - 1, by omega⟩
    have hend := half_below_le_lowEnd (a + 1) (e + k)
    have hcast : (2 * ((a + 1 : ℕ) : ℤ) - 1) = (2 * a + 1 : ℕ) := by push_cast; ring
    rw [hcast] at hend
    obtain ⟨hdown, hup⟩ := scaled_half_compare (2 * a + 1) M k e
    refine lt_rounded_of_half (hdown.mp (hend.trans h.low)) fun heven =>
      not_le.mp (mt hup.mpr (not_le.mpr ?_))
    exact hend.trans_lt (h.inner (by omega)).1

/-- Before bits are dropped a significand has no more than 53 of those that are kept. -/
theorem lt_of_target (hk : target M e = e + k) : M < 2 ^ 53 * 2 ^ k := by
  have hlog : M.log2 ≤ 52 + k := by unfold target at hk; omega
  calc M < 2 ^ (M.log2 + 1) := Nat.lt_log2_self
    _ ≤ 2 ^ (53 + k) := Nat.pow_le_pow_right two_pos (by omega)
    _ = 2 ^ 53 * 2 ^ k := pow_add _ _ _

/-- Below a power of two, values in its interval are rounded in half its unit. -/
theorem unit_of_nearest_below (hlt : scaled M e < scaled (2 ^ 53) (q - 1)) (hq : -1074 < q)
    (hfits : Fits m q) (h : Nearest m q (scaled M e)) :
    m = 2 ^ 52 ∧ scaled (2 ^ 54 - 1) (q - 2) ≤ scaled M e := by
  have hm : m = 2 ^ 52 := by
    have hhalf := ((half_below_le_lowEnd m q).trans h.low).trans_lt hlt
    rw [scaled_lt_scaled] at hhalf
    have := hfits.full.resolve_right hq.ne'
    omega
  refine ⟨hm, ?_⟩
  have hlow := h.low
  rw [lowEnd, if_pos ⟨hm, hq⟩, hm] at hlow
  exact_mod_cast hlow

theorem scaled_lt_of_target (hk : target M e = e + k) : scaled M e < scaled (2 ^ 53) (e + k) := by
  have hbits := lt_of_target hk
  rw [scaled_shift, scaled_lt_scaled]
  exact_mod_cast hbits

/-- The unit that a value is rounded in is not above that of the double it is nearest to. -/
theorem unit_le_of_nearest (hM : 0 < M) (hk : target M e = e + k) (hfits : Fits m q)
    (h : Nearest m q (scaled M e)) : e + k ≤ q := by
  by_contra hgt
  have hlt := hfits.lt
  have hfull : 2 ^ 52 * 2 ^ k ≤ M :=
    (full_of_target hM hk).resolve_right (by have := hfits.least; omega)
  have hlow : scaled (2 ^ 52) (e + k) ≤ scaled M e := by
    rw [scaled_shift, scaled_le_scaled]
    exact_mod_cast hfull
  have hend : highEnd m q < scaled (2 ^ 52) (e + k) := by
    calc highEnd m q < scaled (2 ^ (53 + 1)) (q - 1) := by
          rw [highEnd, scaled_lt_scaled]
          omega
      _ = scaled (2 ^ 52) (q + 1) := by
          rw [scaled_two_pow, sub_add_cancel]
          exact scaled_two_pow 52 q
      _ ≤ scaled (2 ^ 52) (e + k) := scaled_mono (by norm_num) (by omega)
  exact absurd (h.high.trans_lt hend) (not_lt.mpr hlow)

/-- In a lower unit the value rounds up to a power of two, whose unit is twice as large. -/
theorem scaled_rounded_below (hk : target M e = e + k) (hlt : e + k < q) (hfits : Fits m q)
    (h : Nearest m q (scaled M e)) : scaled (rounded M k) (e + k) = scaled m q := by
  have hleast : -1074 ≤ e + k := hk ▸ le_max_right _ _
  have hvalue := scaled_lt_of_target hk
  have hbelow : scaled M e < scaled (2 ^ 53) (q - 1) :=
    hvalue.trans_le (scaled_mono (by norm_num) (by omega))
  obtain ⟨rfl, hlow⟩ := unit_of_nearest_below hbelow (by omega) hfits h
  obtain rfl : q = e + k + 1 := by
    by_contra hne
    have hle : scaled (2 ^ 53) (e + k) ≤ scaled (2 ^ 54 - 1) (q - 2) :=
      (scaled_mono (by norm_num) (by omega)).trans (scaled_le_scaled.mpr (by norm_num))
    exact absurd (hvalue.trans_le (hle.trans hlow)) (lt_irrefl _)
  have hexponent : e + k + 1 - 2 = e + k - 1 := by ring
  rw [hexponent] at hlow
  have hge : 2 ^ 53 - 1 < rounded M k := by
    refine lt_rounded_of_half ((scaled_half_compare _ M k e).1.mp ?_) fun heven => ?_
    · exact_mod_cast hlow
    · exact absurd heven (by decide)
  have hrounded : rounded M k = 2 ^ 53 := by
    have := rounded_le (lt_of_target hk).le
    omega
  have hcast : ((2 ^ 53 : ℕ) : ℤ) = 2 ^ (52 + 1) := rfl
  rw [hrounded, hcast, scaled_two_pow]
  rfl

/-- Rounding gives the double that a value is nearest to. -/
theorem scaled_rounded_of_nearest (hM : 0 < M) (hk : target M e = e + k) (hfits : Fits m q)
    (h : Nearest m q (scaled M e)) : scaled (rounded M k) (e + k) = scaled m q := by
  rcases (unit_le_of_nearest hM hk hfits h).lt_or_eq with hlt | rfl
  · exact scaled_rounded_below hk hlt hfits h
  · rw [rounded_eq_of_nearest hfits.pos h]

end

/-! ## Packing a rounded value -/

/-- A value with a sign. -/
def signed (s : Sign) (v : ℚ) : ℚ :=
  match s with
  | .negative => -v
  | .positive => v

theorem valueOf_finite {s : Sign} {m : ℕ} {e : ℤ} (hm : 0 < m) :
    valueOf (.finite s m e hm) = signed s (scaled m e) := by
  cases s
  · exact scaled_neg m e
  · rfl

theorem abs_signed (s : Sign) {v : ℚ} (hv : 0 ≤ v) : |signed s v| = v := by
  cases s
  · exact (abs_neg v).trans (abs_of_nonneg hv)
  · exact abs_of_nonneg hv

theorem valueOf_infinity (s : Sign) : valueOf (.infinity s) = signed s top := by
  cases s <;> rfl

/-- The double that an unpacked one packs to. -/
def packed (u : UnpackedFloat) : Float := .ofModel (.pack u)

theorem unpacked_packed (u : UnpackedFloat) : unpacked (packed u) = (Float.Model.pack u).unpack := rfl

theorem isNaN_eq (x : Float) : x.isNaN = (unpacked x).isNaN := rfl

/-- The double that a significand and an exponent pack to, be the exponent too great or not. -/
theorem pack_finite {s : Sign} {m : ℕ} {e : ℤ} (hm : 0 < m) (hlt : m < 2 ^ 53) (he : -1074 ≤ e)
    (hfull : 2 ^ 52 ≤ m ∨ e = -1074) :
    (packed (.finite s m e hm)).isNaN = false ∧
      value (packed (.finite s m e hm)) = signed s (min (scaled m e) top) := by
  rw [isNaN_eq, value, unpacked_packed]
  rcases le_or_gt e 971 with hmost | hmost
  · have hfits : Fits m e := ⟨hm, hlt, he, hmost, hfull⟩
    rw [unpack_pack_finite hm hfits, valueOf_finite, min_eq_left hfits.scaled_lt_top.le]
    exact ⟨rfl, rfl⟩
  · have hnormal : 2 ^ 52 ≤ m := hfull.resolve_right (by omega)
    have htop : top ≤ scaled m e := by
      obtain ⟨j, rfl⟩ : ∃ j : ℕ, e = 971 + (j + 1 : ℕ) := ⟨(e - 972).toNat, by omega⟩
      rw [top_eq_scaled, scaled_shift, scaled_le_scaled]
      have hle : 2 ^ 52 * 2 ^ 1 ≤ m * 2 ^ (j + 1) :=
        Nat.mul_le_mul hnormal (Nat.pow_le_pow_right two_pos (by omega))
      exact_mod_cast hle
    rw [unpack_pack_overflow hm hmost, valueOf_infinity, min_eq_right htop]
    exact ⟨rfl, rfl⟩

/-- The value after rounding and packing. -/
theorem pack_round {s : Sign} {m k : ℕ} {e : ℤ} (hm : 0 < m) (hk : target m e = e + k) :
    (packed (roundWithAccuracy Format.binary64 s m e .exact)).isNaN = false ∧
      value (packed (roundWithAccuracy Format.binary64 s m e .exact)) =
        signed s (min (scaled (rounded m k) (e + k)) top) := by
  have hleast : -1074 ≤ e + k := hk ▸ le_max_right _ _
  have hbound : rounded m k ≤ 2 ^ 53 := rounded_le (lt_of_target hk).le
  have hfull : 2 ^ 52 ≤ rounded m k ∨ e + k = -1074 := (full_of_target hm hk).imp_left le_rounded
  rw [roundWithAccuracy_eq hk hbound]
  by_cases hzero : rounded m k = 0
  · rw [dif_pos hzero, isNaN_eq, value, unpacked_packed, unpack_pack_zero, hzero]
    have hmin : min (scaled (0 : ℕ) (e + k)) top = 0 := by
      rw [scaled_eq]
      simp [top_pos.le]
    rw [hmin]
    refine ⟨rfl, ?_⟩
    cases s <;> simp [valueOf, signed]
  · rw [dif_neg hzero]
    by_cases hlt : rounded m k < 2 ^ 53
    · rw [if_pos hlt]
      exact pack_finite _ hlt hleast hfull
    · have h53 : rounded m k = 2 ^ 53 := le_antisymm hbound (not_lt.mp hlt)
      rw [if_neg hlt, h53]
      have hshift := scaled_shift ((2 ^ 52 : ℕ) : ℤ) (e + k) 1
      have hsame : scaled ((2 ^ 53 : ℕ) : ℤ) (e + k) = scaled ((2 ^ 52 : ℕ) : ℤ) (e + k + 1) := by
        rw [Nat.cast_one] at hshift
        rw [hshift]
        norm_num
      rw [hsame]
      exact pack_finite _ (by norm_num) (by omega) (Or.inl le_rfl)

/-- The rounding of the model is rounding to a neighbour. -/
theorem rounds_of_round {s : Sign} {m : ℕ} {e : ℤ} (hm : 0 < m) (he : e ≤ target m e) :
    Rounds (packed (roundWithAccuracy Format.binary64 s m e .exact)) (signed s (scaled m e)) := by
  obtain ⟨k, hk⟩ : ∃ k : ℕ, target m e = e + k := ⟨(target m e - e).toNat, by omega⟩
  obtain ⟨hnumber, hvalue⟩ := pack_round (s := s) hm hk
  have hneighbour : ∀ g, Representable g →
      (scaled m e ≤ g → min (scaled (rounded m k) (e + k)) top ≤ g) ∧
        (g ≤ scaled m e → g ≤ min (scaled (rounded m k) (e + k)) top) := by
    intro g hg
    obtain ⟨hup, hdown⟩ := rounded_neighbour hm hk hg
    exact ⟨fun h => (min_le_left _ _).trans (hup h),
      fun h => le_min (hdown h) ((le_abs_self g).trans hg.1)⟩
  refine ⟨hnumber, fun g hg h => ?_, fun g hg h => ?_, fun m' q hfits h => ?_⟩
  · rw [hvalue]
    cases s
    · exact neg_le.mp ((hneighbour (-g) hg.neg).2 (neg_le.mp h))
    · exact (hneighbour g hg).1 h
  · rw [hvalue]
    cases s
    · exact le_neg.mp ((hneighbour (-g) hg.neg).1 (le_neg.mp h))
    · exact (hneighbour g hg).2 h
  · rw [abs_signed s (scaled_pos (by exact_mod_cast hm)).le] at h
    rw [hvalue, scaled_rounded_of_nearest hm hk hfits h, min_eq_left hfits.scaled_lt_top.le,
      abs_signed s hfits.value_pos.le]

end ShiftMesh.Double
