import ShiftMesh.Proofs.Double.Arithmetic

/-!
# ShiftMesh.Proofs.Double.Quotient — a quotient rounds the exact one once

Significands are divided with a remainder, and rounding is told where the remainder lies.

* `sticky`: the quotient with two bits that say the same; `roundWithAccuracy_sticky`: rounding the
  quotient with the remainder is rounding this number.
* `sticky_neighbour`: the number is on the same side of every double, and of every half between two, as
  the fraction.
* `rounds_div`: quotients of finite doubles are neighbours of the exact ones; `rounds_ofScientific_neg`:
  so are the doubles of counts by a power of ten.
-/

namespace ShiftMesh.Double

open Float.Model (UnpackedFloat Format totalExponent)
open Float.Model.UnpackedFloat (Sign Accuracy ExtendedMantissa shiftToTargetExponent shiftToExponent
  roundWithAccuracy accuracyOfFraction)

variable {x y : Float}

/-! ## The remainder as two bits -/

/-- A significand with two more bits for what was left over. -/
def sticky (m : ℕ) : Accuracy → ℕ
  | .exact => 4 * m
  | .inexact .lt => 4 * m + 1
  | .inexact .eq => 4 * m + 2
  | .inexact .gt => 4 * m + 3

theorem sticky_bounds (m : ℕ) (a : Accuracy) : 4 * m ≤ sticky m a ∧ sticky m a ≤ 4 * m + 3 := by
  rcases a with _ | o
  · exact ⟨le_rfl, by rw [sticky]; omega⟩
  · cases o <;> simp only [sticky] <;> omega

/-- What two bits that are dropped leave. -/
theorem shift_two {m r : ℕ} (hr : r < 4) :
    (⟨4 * m + r, false, false⟩ : ExtendedMantissa) >>> 2 = ⟨m, r / 2 != 0, r % 2 != 0⟩ := by
  have hquarter : (4 * m + r) / 2 / 2 = m := by omega
  have hround : (4 * m + r) / 2 % 2 = r / 2 := by omega
  have hrest : (4 * m + r) % 2 = r % 2 := by omega
  change (⟨(4 * m + r) / 2 / 2, (4 * m + r) / 2 % 2 != 0, ((4 * m + r) % 2 != 0) || (false || false)⟩ :
    ExtendedMantissa) = _
  rw [hquarter, hround, hrest, Bool.or_false, Bool.or_false]

/-- Dropping the two bits leaves what they say. -/
theorem shift_sticky (m : ℕ) (a : Accuracy) : ∀ k,
    (⟨sticky m a, false, false⟩ : ExtendedMantissa) >>> (k + 2) =
      ExtendedMantissa.ofMantissaAndAccuracy m a >>> k
  | 0 => by
    cases a with
    | exact => exact shift_two (r := 0) (by norm_num)
    | inexact o =>
      cases o with
      | lt => exact shift_two (r := 1) (by norm_num)
      | eq => exact shift_two (r := 2) (by norm_num)
      | gt => exact shift_two (r := 3) (by norm_num)
  | k + 1 => congrArg ExtendedMantissa.shiftRightOne (shift_sticky m a k)

/-- The two bits do not change the exponent after rounding. -/
theorem target_sticky {m : ℕ} {a : Accuracy} {e : ℤ} (h : 0 < m ∨ e ≤ -1074) :
    target (sticky m a) (e - 2) = target m e := by
  obtain ⟨hlow, hhigh⟩ := sticky_bounds m a
  rcases Nat.eq_zero_or_pos m with rfl | hm
  · -- three at most is below the least double
    have he := h.resolve_left (lt_irrefl 0)
    have hlog : (sticky 0 a).log2 ≤ 1 := by
      have hmono : (sticky 0 a).log2 ≤ Nat.log2 3 := by
        rw [Nat.log2_eq_log_two, Nat.log2_eq_log_two]
        exact Nat.log_mono_right hhigh
      exact hmono
    have hzero : Nat.log2 0 = 0 := rfl
    rw [target, target, hzero]
    omega
  · obtain ⟨hm1, hm2⟩ := (Nat.log2_eq_iff hm.ne').mp rfl
    have hlog : (sticky m a).log2 = m.log2 + 2 := by
      refine (Nat.log2_eq_iff (by omega)).mpr ⟨?_, ?_⟩
      · rw [pow_add]
        omega
      · rw [show m.log2 + 2 + 1 = m.log2 + 1 + 2 by ring, pow_add]
        omega
    rw [target, target, hlog]
    push_cast
    congr 1
    ring

theorem shiftToTargetExponent_sticky {m : ℕ} {a : Accuracy} {e : ℤ} (h : 0 < m ∨ e ≤ -1074)
    (he : e ≤ target m e) :
    shiftToTargetExponent Format.binary64 m e a =
      shiftToTargetExponent Format.binary64 (sticky m a) (e - 2) .exact := by
  obtain ⟨k, hk⟩ : ∃ k : ℕ, target m e = e + k := ⟨(target m e - e).toNat, by omega⟩
  have hshift : (target m e - e).toNat = k := by omega
  have hshift' : (target m e - (e - 2)).toNat = k + 2 := by omega
  rw [shiftToTargetExponent_exact, target_sticky h, hshift', shift_sticky, shiftToTargetExponent,
    targetExponent_eq, shiftToExponent, hshift]
  refine Prod.ext rfl ?_
  push_cast
  ring

theorem roundWithAccuracy_sticky (s : Sign) {m : ℕ} {a : Accuracy} {e : ℤ}
    (h : 0 < m ∨ e ≤ -1074) (he : e ≤ target m e) :
    roundWithAccuracy Format.binary64 s m e a =
      roundWithAccuracy Format.binary64 s (sticky m a) (e - 2) .exact := by
  rw [roundWithAccuracy, shiftToTargetExponent_sticky h he]
  rfl

/-! ## Fractions -/

/-- What the two bits say about a remainder. -/
theorem sticky_cases (z r d : ℕ) :
    (r = 0 ∧ sticky z (accuracyOfFraction r d) = 4 * z) ∨
      (0 < r ∧ 2 * r < d ∧ sticky z (accuracyOfFraction r d) = 4 * z + 1) ∨
      (0 < r ∧ 2 * r = d ∧ sticky z (accuracyOfFraction r d) = 4 * z + 2) ∨
      (d < 2 * r ∧ sticky z (accuracyOfFraction r d) = 4 * z + 3) := by
  rcases Nat.eq_zero_or_pos r with rfl | hr
  · exact Or.inl ⟨rfl, rfl⟩
  · rw [accuracyOfFraction, if_neg hr.ne']
    rcases lt_trichotomy (2 * r) d with h | h | h
    · rw [compare_lt_iff_lt.mpr h]
      exact Or.inr (Or.inl ⟨hr, h, rfl⟩)
    · rw [compare_eq_iff_eq.mpr h]
      exact Or.inr (Or.inr (Or.inl ⟨hr, h, rfl⟩))
    · rw [compare_gt_iff_gt.mpr h]
      exact Or.inr (Or.inr (Or.inr ⟨h, rfl⟩))

/-- The two bits tell on which side of each half a fraction lies. -/
theorem sticky_fraction {n d : ℕ} (hd : 0 < d) (k : ℤ) :
    (2 * n ≤ k * d ↔ (sticky (n / d) (accuracyOfFraction (n % d) d) : ℤ) ≤ 2 * k) ∧
      (k * d ≤ 2 * n ↔ 2 * k ≤ sticky (n / d) (accuracyOfFraction (n % d) d)) := by
  have hlt := Nat.mod_lt n hd
  have hn := Nat.div_add_mod n d
  have hcases := sticky_cases (n / d) (n % d) d
  generalize n / d = z at *
  generalize n % d = r at *
  generalize sticky z (accuracyOfFraction r d) = w at *
  obtain ⟨j, rfl⟩ : ∃ j : ℤ, k = 2 * z + j := ⟨k - 2 * z, by ring⟩
  have hproduct : (2 * z + j) * d = 2 * (d * z : ℕ) + j * d := by
    push_cast
    ring
  rw [hproduct, ← hn]
  have hd' : (0 : ℤ) < d := by exact_mod_cast hd
  -- the product is needed at a half below, at the number, at the half above and beyond
  rcases lt_or_ge j 0 with hj | hj
  · have hless : j * d ≤ -d := by nlinarith
    omega
  rcases hj.eq_or_lt with rfl | hj
  · omega
  rcases (Int.add_one_le_of_lt hj).eq_or_lt with rfl | hj
  · omega
  · have hmore : 2 * d ≤ j * d := mul_le_mul_of_nonneg_right (by omega) hd'.le
    omega

/-- The values of 54 bits: those halfway between two doubles among them. -/
def Halfway (g : ℚ) : Prop := ∃ i c : ℤ, -1075 ≤ c ∧ |i| ≤ 2 ^ 54 ∧ g = scaled i c

theorem Representable.halfway {g : ℚ} (h : Representable g) : Halfway g := by
  obtain ⟨-, n, c, hc, hn, rfl⟩ := h
  exact ⟨n, c, by omega, hn.trans (by norm_num), rfl⟩

/-- The number with the two bits is on the same side of every double, and of every half between two, as
the fraction. -/
theorem sticky_neighbour {n d : ℕ} {e : ℤ} (hd : 0 < d) (hfull : 2 ^ 52 ≤ n / d ∨ e ≤ -1074) {g : ℚ}
    (hg : Halfway g) :
    (scaled n e / d ≤ g ↔ scaled (sticky (n / d) (accuracyOfFraction (n % d) d) : ℕ) (e - 2) ≤ g) ∧
      (g ≤ scaled n e / d ↔
        g ≤ scaled (sticky (n / d) (accuracyOfFraction (n % d) d) : ℕ) (e - 2)) := by
  obtain ⟨i, c, hc, hi, rfl⟩ := hg
  have hd' : (0 : ℚ) < d := by exact_mod_cast hd
  obtain ⟨w, hw⟩ : ∃ w, sticky (n / d) (accuracyOfFraction (n % d) d) = w := ⟨_, rfl⟩
  have hmul : ∀ k : ℤ, scaled k (e - 1) * d = scaled (k * d) (e - 1) := fun k => by
    rw [scaled_eq, scaled_eq]
    push_cast
    ring
  have hmultiple : ∀ k : ℤ, (scaled n e / d ≤ scaled k (e - 1) ↔ scaled w (e - 2) ≤ scaled k (e - 1)) ∧
      (scaled k (e - 1) ≤ scaled n e / d ↔ scaled k (e - 1) ≤ scaled w (e - 2)) := by
    intro k
    have hexponent : e - 1 - 1 = e - 2 := by ring
    rw [div_le_iff₀ hd', le_div_iff₀ hd', hmul, scaled_double n, scaled_double k, hexponent,
      scaled_le_scaled, scaled_le_scaled, scaled_le_scaled, scaled_le_scaled, ← hw]
    exact sticky_fraction hd k
  -- both have 54 bits in the half unit, or it is half of the least one
  have hbits : 2 ^ 52 ≤ n / d → scaled (2 ^ 53) (e - 1) ≤ scaled n e / d := fun h => by
    have hle := (Nat.le_div_iff_mul_le hd).mp h
    rw [le_div_iff₀ hd', hmul, scaled_double n, scaled_le_scaled]
    have hcast : (2 ^ 52 : ℤ) * d ≤ n := by exact_mod_cast hle
    linarith
  have hfull' : ∀ u, (scaled (2 ^ 53) (e - 1) ≤ scaled n e / d → scaled (2 ^ 53) (e - 1) ≤ u) →
      scaled (2 ^ 53) (e - 1) ≤ u ∨ e - 1 ≤ -1075 := fun u h =>
    hfull.imp (fun h' => h (hbits h')) fun h' => by omega
  have hto := neighbour_of_multiples (fun k => ⟨(hmultiple k).1.mp, (hmultiple k).2.mp⟩)
    (hfull' _ id) hc hi
  have hfrom := neighbour_of_multiples (fun k => ⟨(hmultiple k).1.mpr, (hmultiple k).2.mpr⟩)
    (hfull' _ (hmultiple (2 ^ 53)).2.mp) hc hi
  rw [hw]
  exact ⟨⟨hto.1, hfrom.1⟩, hto.2, hfrom.2⟩

/-- The ends of the values that round to a double lie halfway. -/
theorem Fits.halfway_ends {m : ℕ} {q : ℤ} (h : Fits m q) :
    Halfway (lowEnd m q) ∧ Halfway (highEnd m q) := by
  have hlt := h.lt
  have hleast := h.least
  refine ⟨?_, 2 * m + 1, q - 1, by omega, by rw [abs_le]; omega, rfl⟩
  unfold lowEnd
  split_ifs with hpower
  · exact ⟨4 * m - 1, q - 2, by omega, by rw [abs_le]; omega, rfl⟩
  · exact ⟨2 * m - 1, q - 1, by omega, by rw [abs_le]; omega, rfl⟩

/-- What is on the same side of every half rounds to the same double. -/
theorem Nearest.of_same_side {m : ℕ} {q : ℤ} {v w : ℚ} (h : Nearest m q v) (hfits : Fits m q)
    (hside : ∀ g, Halfway g → (v ≤ g ↔ w ≤ g) ∧ (g ≤ v ↔ g ≤ w)) : Nearest m q w := by
  obtain ⟨hlow, hhigh⟩ := hfits.halfway_ends
  refine ⟨(hside _ hlow).2.mp h.low, (hside _ hhigh).1.mp h.high, fun hodd => ?_⟩
  obtain ⟨hinner, hinner'⟩ := h.inner hodd
  exact ⟨not_le.mp (mt (hside _ hlow).1.mpr (not_le.mpr hinner)),
    not_le.mp (mt (hside _ hhigh).2.mpr (not_le.mpr hinner'))⟩

/-- Rounding a fraction of significands that has 53 bits, or whose unit is the least one. -/
theorem rounds_fraction (s : Sign) {n d : ℕ} {e : ℤ} (hn : 0 < n) (hd : 0 < d)
    (hfull : 2 ^ 52 ≤ n / d ∨ e ≤ -1074) :
    Rounds (packed (roundWithAccuracy Format.binary64 s (n / d) e (accuracyOfFraction (n % d) d)))
      (signed s (scaled n e / d)) := by
  have htarget : e ≤ target (n / d) e := by
    unfold target
    rcases hfull with h | h
    · have hlog : 52 ≤ (n / d).log2 := (Nat.le_log2 (by omega)).mpr h
      omega
    · omega
  have hbits : 0 < n / d ∨ e ≤ -1074 := hfull.imp_left fun h => by omega
  have hside : ∀ g, Halfway g → (scaled n e / d ≤ g ↔ _) ∧ (g ≤ scaled n e / d ↔ _) :=
    fun g hg => sticky_neighbour hd hfull hg
  have hpos : 0 < sticky (n / d) (accuracyOfFraction (n % d) d) := by
    have hdiv := Nat.div_add_mod n d
    have hcases := sticky_cases (n / d) (n % d) d
    by_contra hzero
    have hquotient : n / d = 0 := by omega
    rw [hquotient, mul_zero] at hdiv
    omega
  have hvalue : 0 ≤ scaled n e / d := by
    have hscaled : 0 < scaled n e := scaled_pos (by exact_mod_cast hn)
    positivity
  rw [roundWithAccuracy_sticky s hbits htarget]
  have hrounds := rounds_of_round (s := s) hpos (e := e - 2) (by rw [target_sticky hbits]; omega)
  refine ⟨hrounds.isNumber, fun g hg h => hrounds.value_le g hg ?_,
    fun g hg h => hrounds.le_value g hg ?_, fun m q hfits h => hrounds.nearest m q hfits ?_⟩
  · cases s
    · exact neg_le.mp ((hside _ hg.neg.halfway).2.mp (neg_le.mp h))
    · exact (hside g hg.halfway).1.mp h
  · cases s
    · exact le_neg.mp ((hside _ hg.neg.halfway).1.mp (le_neg.mp h))
    · exact (hside g hg.halfway).2.mp h
  · rw [abs_signed s hvalue] at h
    rw [abs_signed s (scaled_pos (by exact_mod_cast hpos)).le]
    exact h.of_same_side hfits hside

/-! ## Quotients -/

theorem signed_div (s t : Sign) (a b : ℚ) : signed s a / signed t b = signed (s / t) (a / b) := by
  cases s <;> cases t
  · exact neg_div_neg_eq a b
  · exact neg_div b a
  · exact div_neg a
  · rfl

/-- The exponent that a quotient of significands is computed at. -/
def quotientExponent (m : ℕ) (e : ℤ) (n : ℕ) (c : ℤ) : ℤ :=
  min (e - c) (max (m.log2 + e - n.log2 - c - 53) (-1074))

/-- The first significand, moved to the exponent of the quotient. -/
def dividend (m : ℕ) (e : ℤ) (n : ℕ) (c : ℤ) : ℕ := m * 2 ^ (e - c - quotientExponent m e n c).toNat

theorem div_finite_eq {s t : Sign} {m n : ℕ} {e c : ℤ} (hm : 0 < m) (hn : 0 < n) :
    UnpackedFloat.div Format.binary64 (.finite s m e hm) (.finite t n c hn) =
      roundWithAccuracy Format.binary64 (s / t) (dividend m e n c / n) (quotientExponent m e n c)
        (accuracyOfFraction (dividend m e n c % n) n) := by
  have htarget : Format.binary64.targetExponent (totalExponent m e - totalExponent n c) =
      max (m.log2 + e - n.log2 - c - 53) (-1074) := by
    have hmin : Format.binary64.minExponent = -1074 := by decide
    have hbits : (Format.binary64.mantissaBits : ℤ) = 53 := by decide
    rw [Format.targetExponent, totalExponent, totalExponent, hmin, hbits]
    congr 1
    ring
  rw [dividend, quotientExponent, ← htarget, ← Nat.shiftLeft_eq]
  rfl

/-- The quotient has 53 bits, or its unit is at most the least one. -/
theorem full_quotient {m n : ℕ} {e c : ℤ} (hm : 0 < m) (hn : 0 < n) :
    2 ^ 52 ≤ dividend m e n c / n ∨ quotientExponent m e n c ≤ -1074 := by
  obtain ⟨j, hj⟩ : ∃ j : ℕ, (e - c - quotientExponent m e n c).toNat = j := ⟨_, rfl⟩
  rw [dividend, hj]
  by_cases hleast : quotientExponent m e n c ≤ -1074
  · exact Or.inr hleast
  · left
    have hbits : n.log2 + 1 + 52 ≤ m.log2 + j := by
      unfold quotientExponent at hleast hj
      omega
    refine (Nat.le_div_iff_mul_le hn).mpr ?_
    calc 2 ^ 52 * n ≤ 2 ^ 52 * 2 ^ (n.log2 + 1) := Nat.mul_le_mul_left _ Nat.lt_log2_self.le
      _ = 2 ^ (n.log2 + 1 + 52) := by rw [← pow_add, add_comm]
      _ ≤ 2 ^ (m.log2 + j) := Nat.pow_le_pow_right two_pos hbits
      _ = 2 ^ m.log2 * 2 ^ j := pow_add _ _ _
      _ ≤ m * 2 ^ j := Nat.mul_le_mul_right _ (Nat.log2_self_le hm.ne')

/-- The fraction that is rounded is the quotient. -/
theorem dividend_div {m n : ℕ} {e c : ℤ} (hn : 0 < n) :
    scaled (dividend m e n c) (quotientExponent m e n c) / n = scaled m e / scaled n c := by
  obtain ⟨t, ht⟩ : ∃ t, quotientExponent m e n c = t := ⟨_, rfl⟩
  obtain ⟨j, hj⟩ : ∃ j : ℕ, e = t + j + c :=
    ⟨(e - c - t).toNat, by rw [← ht]; unfold quotientExponent; omega⟩
  have hshift : (e - c - t).toNat = j := by omega
  have hn' : (n : ℚ) ≠ 0 := by exact_mod_cast hn.ne'
  have hc : (2 : ℚ) ^ c ≠ 0 := by positivity
  have hscaled : scaled (dividend m e n c) t * 2 ^ c = scaled m e := by
    have hcast : ((dividend m e n c : ℕ) : ℤ) = (m : ℤ) * 2 ^ j := by
      rw [dividend, ht, hshift]
      push_cast
      rfl
    rw [hcast, ← scaled_shift, hj, scaled_eq, scaled_eq, mul_assoc, ← zpow_add₀ two_ne_zero]
  rw [ht, ← hscaled, scaled_eq n c, Int.cast_natCast, mul_div_mul_right _ _ hc]

/-- Quotients of finite doubles are neighbours of the exact ones. -/
theorem rounds_div (hx : x.isFinite = true) (hy : y.isFinite = true) (hzero : value y ≠ 0) :
    Rounds (x / y) (value x / value y) := by
  rw [div_unpacked]
  rcases finite_cases hy with ⟨t, hv⟩ | ⟨t, n, c, hn, hv, -, hvalue'⟩
  · exact absurd (value_of_zero hv) hzero
  · rcases finite_cases hx with ⟨s, hu⟩ | ⟨s, m, e, hm, hu, -, hvalue⟩
    · rw [value_of_zero hu, zero_div, hu, hv]
      exact rounds_zero (s / t)
    · have hpos : 0 < dividend m e n c := Nat.mul_pos hm (by positivity)
      rw [hvalue, hvalue', signed_div, hu, hv, div_finite_eq, ← dividend_div hn]
      exact rounds_fraction (s / t) hpos hn (full_quotient hm hn)

/-- A count by a power of ten, rounded once. -/
theorem rounds_ofScientific_neg (m : ℕ) {k : ℕ} (hpos : 0 < k) (hk : k ≤ 2 ^ 11) :
    Rounds (Float.ofScientific m true k) (m / 10 ^ k) := by
  have hten : 0 < 10 ^ k := by positivity
  unfold Float.ofScientific
  by_cases hfast : m < 2 ^ 53 ∧ k ≤ 22
  · rw [dif_pos hfast]
    obtain ⟨hfinite, hvalue⟩ := value_toFloat hfast.1
    obtain ⟨hfinite', hvalue'⟩ := value_of_isCount (isCount_tenPower ⟨k, by omega⟩)
    have hrounds := rounds_div hfinite hfinite' (by rw [hvalue']; exact_mod_cast hten.ne')
    rw [hvalue, hvalue'] at hrounds
    exact_mod_cast hrounds
  · rw [dif_neg hfast]
    change Rounds (packed (UnpackedFloat.ofScientific Format.binary64 m (Int.negOfNat k))) _
    have hneg : Int.negOfNat k = -(k : ℤ) := Int.negOfNat_eq
    rw [hneg]
    rcases Nat.eq_zero_or_pos m with rfl | hm
    · rw [UnpackedFloat.ofScientific, dif_pos rfl, Nat.cast_zero, zero_div]
      exact rounds_zero .positive
    · have hhigh : ¬ -(k : ℤ) > 2 ^ 11 := by omega
      have hlow : ¬ -(k : ℤ) < -((2 ^ 11 : ℤ) + m.log2) := by omega
      have hshift : (- -(k : ℤ)).toNat = k := by omega
      have hdividend : 0 < dividend m 0 (10 ^ k) 0 := Nat.mul_pos hm (by positivity)
      have hvalue : signed (.positive / .positive)
          (scaled (dividend m 0 (10 ^ k) 0) (quotientExponent m 0 (10 ^ k) 0) / (10 ^ k : ℕ)) =
            m / 10 ^ k := by
        rw [dividend_div hten, scaled_zero, scaled_zero]
        push_cast
        rfl
      rw [UnpackedFloat.ofScientific, dif_neg hm.ne', if_neg hhigh, if_neg hlow,
        if_neg (show ¬ 0 ≤ -(k : ℤ) by omega), ← hvalue]
      simp only [hshift]
      rw [div_finite_eq]
      exact rounds_fraction (.positive / .positive) hdividend hten (full_quotient hm hten)

end ShiftMesh.Double
