import ShiftMesh.Decimal.Shortest
import ShiftMesh.Proofs.Double.Rounding

/-!
# ShiftMesh.Proofs.Decimal.Shortest — the shortest digits round to their double

* `leadingExponent_bounds`: the power of ten of the leading digit.
* `Interval.Inside`: the values of an interval; `Interval.inside_of_holds`: a number of units that it
  holds stands for one of them.
* `Interval.candidate_isSome`: an interval that is wider than a grid has a candidate on it.
* `unit_lt_width`: the values that round to a double fill more than a unit of 17 digits.
* `shortest_spec`: hence a candidate is found, and the decimal rounds to the double.
-/

namespace ShiftMesh.Decimal

open ShiftMesh.Double (Fits Nearest scaled lowEnd highEnd scaled_eq scaled_double scaled_half
  scaled_quarters)

/-! ## Powers with a sign -/

/-- The two one-sided powers make the signed one. -/
theorem pow_div_pow (b : ℕ) (hb : 0 < b) (k : ℤ) :
    ((Nat.pow b k.toNat : ℕ) : ℚ) / (Nat.pow b (-k).toNat : ℕ) = (b : ℚ) ^ k := by
  have hne : (b : ℚ) ≠ 0 := by exact_mod_cast hb.ne'
  rcases le_total 0 k with hk | hk
  · obtain ⟨n, rfl⟩ := Int.eq_ofNat_of_zero_le hk
    have hzero : (-(n : ℤ)).toNat = 0 := by omega
    rw [hzero, Int.toNat_natCast, zpow_natCast]
    simp
  · obtain ⟨n, hn⟩ := Int.eq_ofNat_of_zero_le (Int.neg_nonneg_of_nonpos hk)
    have hk' : k = -(n : ℤ) := by omega
    have hzero : (-(n : ℤ)).toNat = 0 := by omega
    rw [hk', hzero, neg_neg, Int.toNat_natCast, zpow_neg, zpow_natCast]
    simp

/-! ## The leading digit -/

theorem digitCount_bounds {n : ℕ} (hn : 0 < n) :
    1 ≤ digitCount n ∧ 10 ^ (digitCount n - 1) ≤ n ∧ n < 10 ^ digitCount n := by
  have hpos : 0 < digitCount n := Nat.length_toDigits_pos
  refine ⟨hpos, ?_, (Nat.length_toDigits_le_iff (by norm_num) hpos).mp le_rfl⟩
  rcases Nat.eq_zero_or_pos (digitCount n - 1) with h | h
  · rw [h, pow_zero]
    exact hn
  · by_contra hlt
    have := (Nat.length_toDigits_le_iff (by norm_num) h).mpr (not_le.mp hlt)
    change digitCount n ≤ digitCount n - 1 at this
    omega

/-- The number of digits alone gives the exponent of a fraction up to one. -/
theorem digitCount_sub_bounds {n d : ℕ} (hn : 0 < n) (hd : 0 < d) :
    (10 : ℚ) ^ ((digitCount n : ℤ) - digitCount d - 1) ≤ n / d ∧
      (n : ℚ) / d < 10 ^ ((digitCount n : ℤ) - digitCount d + 1) := by
  obtain ⟨hn1, hnlow, hnhigh⟩ := digitCount_bounds hn
  obtain ⟨hd1, hdlow, hdhigh⟩ := digitCount_bounds hd
  have hdpos : (0 : ℚ) < d := by exact_mod_cast hd
  constructor
  · rw [le_div_iff₀ hdpos]
    calc (10 : ℚ) ^ ((digitCount n : ℤ) - digitCount d - 1) * d
        ≤ 10 ^ ((digitCount n : ℤ) - digitCount d - 1) * 10 ^ (digitCount d : ℤ) := by
          refine mul_le_mul_of_nonneg_left ?_ (by positivity)
          rw [zpow_natCast]
          exact_mod_cast hdhigh.le
      _ = 10 ^ ((digitCount n - 1 : ℕ) : ℤ) := by
        rw [← zpow_add₀ (by norm_num)]
        congr 1
        omega
      _ ≤ n := by rw [zpow_natCast]; exact_mod_cast hnlow
  · rw [div_lt_iff₀ hdpos]
    calc (n : ℚ) < 10 ^ (digitCount n : ℤ) := by rw [zpow_natCast]; exact_mod_cast hnhigh
      _ = 10 ^ ((digitCount n : ℤ) - digitCount d + 1) * 10 ^ ((digitCount d - 1 : ℕ) : ℤ) := by
        rw [← zpow_add₀ (by norm_num)]
        congr 1
        omega
      _ ≤ 10 ^ ((digitCount n : ℤ) - digitCount d + 1) * d := by
        refine mul_le_mul_of_nonneg_left ?_ (by positivity)
        rw [zpow_natCast]
        exact_mod_cast hdlow

/-- A comparison in whole numbers of a fraction with a power of ten. -/
theorem mul_pow_le_mul_pow_iff (n : ℕ) {d : ℕ} (hd : 0 < d) (e : ℤ) :
    d * Nat.pow 10 e.toNat ≤ n * Nat.pow 10 (-e).toNat ↔ (10 : ℚ) ^ e ≤ n / d := by
  have hdpos : (0 : ℚ) < d := by exact_mod_cast hd
  have hneg : (0 : ℚ) < (Nat.pow 10 (-e).toNat : ℕ) := by
    exact_mod_cast Nat.pow_pos (by norm_num : 0 < 10)
  have hcast : ((10 : ℕ) : ℚ) = 10 := rfl
  rw [← hcast, ← pow_div_pow 10 (by norm_num) e, div_le_div_iff₀ hneg hdpos, mul_comm]
  exact_mod_cast Iff.rfl

/-- The leading digit of a fraction stands for the power of ten at or below it. -/
theorem leadingExponent_bounds {n d : ℕ} (hn : 0 < n) (hd : 0 < d) :
    (10 : ℚ) ^ leadingExponent n d ≤ n / d ∧ (n : ℚ) / d < 10 ^ (leadingExponent n d + 1) := by
  obtain ⟨hlower, hupper⟩ := digitCount_sub_bounds hn hd
  -- the comparison decides between the two exponents that are left
  have hguard := mul_pow_le_mul_pow_iff n hd ((digitCount n : ℤ) - digitCount d)
  rw [leadingExponent]
  by_cases h : d * Nat.pow 10 ((digitCount n : ℤ) - digitCount d).toNat ≤
      n * Nat.pow 10 (-((digitCount n : ℤ) - digitCount d)).toNat
  · simp only [if_pos h]
    exact ⟨hguard.mp h, hupper⟩
  · simp only [if_neg h, sub_add_cancel]
    exact ⟨hlower, not_le.mp fun hle => h (hguard.mpr hle)⟩

/-! ## Candidates -/

namespace Interval

variable {i : Interval} {tie : Tie} {k : ℕ} {g : ℤ}

/-- A value of an interval; the ends are values of it if it is closed. -/
structure Inside (i : Interval) (v : ℚ) : Prop where
  low : (i.low : ℚ) / i.denominator ≤ v
  high : v ≤ i.high / i.denominator
  inner : i.closed = false → (i.low : ℚ) / i.denominator < v ∧ v < i.high / i.denominator

theorem holds_iff : i.holds k = true ↔
    (i.low ≤ k * i.denominator ∧ k * i.denominator ≤ i.high) ∧
      (i.closed = false → i.low < k * i.denominator ∧ k * i.denominator < i.high) := by
  rw [holds]
  cases i.closed
  · simp only [Bool.false_eq_true, if_false, Bool.and_eq_true, decide_eq_true_iff, true_implies]
    exact ⟨fun h => ⟨⟨h.1.le, h.2.le⟩, h⟩, fun h => h.2⟩
  · simp only [if_true, Bool.and_eq_true, decide_eq_true_iff, Bool.true_eq_false, false_implies,
      and_true]

/-- A candidate is in the interval and next to the value. -/
theorem candidate_bounds (h : i.candidate? tie = some k) :
    i.holds k = true ∧ k ≤ i.value / i.denominator + 1 := by
  unfold candidate? at h
  generalize hk : i.value / i.denominator = n at h ⊢
  cases hlow : i.holds n <;> cases hhigh : i.holds (n + 1) <;> simp only [hlow, hhigh] at h
  · cases h
  · cases h
    exact ⟨hhigh, le_rfl⟩
  · cases h
    exact ⟨hlow, by omega⟩
  · have hchoice : k = n ∨ k = n + 1 := by
      cases tie <;> split_ifs at h <;> cases h <;> omega
    rcases hchoice with rfl | rfl
    · exact ⟨hlow, by omega⟩
    · exact ⟨hhigh, le_rfl⟩

/-- An interval around its value that is wider than the grid has a candidate. -/
theorem candidate_isSome (hden : 0 < i.denominator) (hlow : i.low < i.value) (hhigh : i.value < i.high)
    (hwidth : i.low + i.denominator < i.high) : (i.candidate? tie).isSome = true := by
  have hbelow := Nat.div_mul_le_self i.value i.denominator
  have habove := Nat.lt_mul_div_succ i.value hden
  unfold candidate?
  generalize i.value / i.denominator = n at hbelow habove ⊢
  rw [mul_comm] at habove
  have hnext : (n + 1) * i.denominator = n * i.denominator + i.denominator := by ring
  cases hdown : i.holds n <;> cases hup : i.holds (n + 1)
  · -- else the two neighbours of the value would be too far apart
    rw [← Bool.not_eq_true, holds_iff] at hdown hup
    omega
  · simp only [hdown, hup, Option.isSome_some]
  · simp only [hdown, hup, Option.isSome_some]
  · simp only [hdown, hup]
    cases tie <;> split_ifs <;> rfl

/-- Units of `10^g` divide a numerator's value by that power. -/
theorem scaled_ratio (n d : ℕ) (g : ℤ) :
    ((n * Nat.pow 10 (-g).toNat : ℕ) : ℚ) / (d * Nat.pow 10 g.toNat : ℕ) =
      n / d * ((10 : ℚ) ^ g)⁻¹ := by
  have hpow := pow_div_pow 10 (by norm_num) (-g)
  rw [neg_neg] at hpow
  rw [← zpow_neg, Nat.cast_mul, Nat.cast_mul, mul_div_mul_comm, hpow]
  rfl

theorem scaled_denominator_pos (hden : 0 < i.denominator) (g : ℤ) : 0 < (i.scaled g).denominator :=
  Nat.mul_pos hden (Nat.pow_pos (by norm_num))

/-- A multiple of a unit against an end of the interval in that unit. -/
theorem scaled_compare (hden : 0 < i.denominator) (n k : ℕ) (g : ℤ) :
    (n * Nat.pow 10 (-g).toNat ≤ k * (i.scaled g).denominator ↔
        (n : ℚ) / i.denominator ≤ k * 10 ^ g) ∧
      (k * (i.scaled g).denominator ≤ n * Nat.pow 10 (-g).toNat ↔
        (k : ℚ) * 10 ^ g ≤ n / i.denominator) := by
  have hpow : (0 : ℚ) < 10 ^ g := by positivity
  have hd : (0 : ℚ) < (i.scaled g).denominator := by exact_mod_cast scaled_denominator_pos hden g
  have hratio : ((n * Nat.pow 10 (-g).toNat : ℕ) : ℚ) / (i.scaled g).denominator =
      n / i.denominator * ((10 : ℚ) ^ g)⁻¹ := scaled_ratio n i.denominator g
  rw [← mul_inv_le_iff₀ hpow, ← le_mul_inv_iff₀ hpow, ← hratio, div_le_iff₀ hd, le_div_iff₀ hd]
  exact ⟨by exact_mod_cast Iff.rfl, by exact_mod_cast Iff.rfl⟩

/-- An interval that is wider than a unit. -/
theorem scaled_width (hden : 0 < i.denominator)
    (h : (i.low : ℚ) / i.denominator + 10 ^ g < i.high / i.denominator) :
    (i.scaled g).low + (i.scaled g).denominator < (i.scaled g).high := by
  have hpow : (0 : ℚ) < ((10 : ℚ) ^ g)⁻¹ := by positivity
  have hd : (0 : ℚ) < (i.scaled g).denominator := by exact_mod_cast scaled_denominator_pos hden g
  have hlow : ((i.scaled g).low : ℚ) / (i.scaled g).denominator =
      i.low / i.denominator * ((10 : ℚ) ^ g)⁻¹ := scaled_ratio _ _ g
  have hhigh : ((i.scaled g).high : ℚ) / (i.scaled g).denominator =
      i.high / i.denominator * ((10 : ℚ) ^ g)⁻¹ := scaled_ratio _ _ g
  have hunits := mul_lt_mul_of_pos_right h hpow
  rw [add_mul, mul_inv_cancel₀ (by positivity), ← hlow, ← hhigh, ← div_self hd.ne', ← add_div,
    div_lt_div_iff_of_pos_right hd] at hunits
  exact_mod_cast hunits

/-- A whole number of units in the interval stands for a value in it. -/
theorem inside_of_holds (hden : 0 < i.denominator) (h : (i.scaled g).holds k = true) :
    i.Inside (k * 10 ^ g) := by
  obtain ⟨⟨hlow, hhigh⟩, hinner⟩ := holds_iff.mp h
  obtain ⟨hlow_iff, hlow_iff'⟩ := scaled_compare hden i.low k g
  obtain ⟨hhigh_iff, hhigh_iff'⟩ := scaled_compare hden i.high k g
  refine ⟨hlow_iff.mp hlow, hhigh_iff'.mp hhigh, fun hopen => ?_⟩
  obtain ⟨hlow', hhigh'⟩ := hinner hopen
  exact ⟨not_le.mp (mt hlow_iff'.mpr hlow'.not_ge), not_le.mp (mt hhigh_iff.mpr hhigh'.not_ge)⟩

end Interval

/-! ## The digits found -/

section

variable {i : Interval} {leading : ℤ} {g : ℤ}

/-- The candidate of the first grid that has one is found. -/
theorem firstCandidate_spec {tie : Tie} (grids n : ℕ)
    (h : ∃ j, n ≤ j ∧ j < n + grids ∧ ((i.scaled (leading - j + 1)).candidate? tie).isSome = true) :
    ∃ j k, n ≤ j ∧ j < n + grids ∧ firstCandidate i tie leading grids n = ⟨k, leading - j + 1⟩ ∧
      (i.scaled (leading - j + 1)).candidate? tie = some k := by
  induction grids generalizing n with
  | zero =>
    obtain ⟨j, hj, hlt, -⟩ := h
    omega
  | succ grids ih =>
    rw [firstCandidate]
    cases hk : (i.scaled (leading - n + 1)).candidate? tie with
    | some k => exact ⟨n, k, le_rfl, by omega, rfl, hk⟩
    | none =>
      obtain ⟨j, hj, hlt, hsome⟩ := h
      have hne : n ≠ j := by
        rintro rfl
        rw [hk] at hsome
        cases hsome
      obtain ⟨j, k, hj, hlt, heq, hcandidate⟩ := ih (n + 1) ⟨j, by omega, by omega, hsome⟩
      exact ⟨j, k, by omega, by omega, heq, hcandidate⟩

/-- Cut at the grid of `n` digits, a value with this leading digit has at most `n` digits. -/
theorem cut_lt (hden : 0 < i.denominator)
    (hhigh : (i.value : ℚ) / i.denominator < 10 ^ (leading + 1)) (n : ℕ) :
    (i.scaled (leading - n + 1)).value / (i.scaled (leading - n + 1)).denominator < 10 ^ n := by
  rw [Nat.div_lt_iff_lt_mul (Interval.scaled_denominator_pos hden _)]
  have hunits : ((10 ^ n : ℕ) : ℚ) * 10 ^ (leading - n + 1) = 10 ^ (leading + 1) := by
    rw [Nat.cast_pow, ← zpow_natCast, Nat.cast_ofNat, ← zpow_add₀ (by norm_num)]
    congr 1
    ring
  refine not_le.mp fun hle => absurd hhigh (not_lt.mpr ?_)
  rw [← hunits]
  exact (Interval.scaled_compare hden i.value (10 ^ n) _).2.mp hle

end

/-! ## The shortest digits -/

section

variable {m : ℕ} {q : ℤ}

/-- The ends and the value of the interval are multiples of one unit. -/
theorem around_ratio (a m : ℕ) (q : ℤ) :
    ((a * Nat.pow 2 (q - 2).toNat : ℕ) : ℚ) / (Interval.around m q).denominator =
      scaled a (q - 2) := by
  have hpow := pow_div_pow 2 (by norm_num) (q - 2)
  have hneg : -(q - 2) = 2 - q := by ring
  rw [hneg] at hpow
  simp only [Interval.around]
  rw [Nat.cast_mul, mul_div_assoc, hpow]
  rfl

theorem around_denominator_pos (m : ℕ) (q : ℤ) : 0 < (Interval.around m q).denominator :=
  Nat.pow_pos (by norm_num)

/-- The interval around a double holds the values that round to it. -/
theorem around_ends (hm : 0 < m) (q : ℤ) :
    ((Interval.around m q).low : ℚ) / (Interval.around m q).denominator = lowEnd m q ∧
      ((Interval.around m q).value : ℚ) / (Interval.around m q).denominator = scaled m q ∧
      ((Interval.around m q).high : ℚ) / (Interval.around m q).denominator = highEnd m q := by
  have hlow : (Interval.around m q).low =
      (4 * m - if m = 2 ^ 52 ∧ -1074 < q then 1 else 2) * Nat.pow 2 (q - 2).toNat := rfl
  have hhalf : ∀ c : ℤ, scaled c (q - 1) = scaled (2 * c) (q - 2) := fun c => by
    rw [scaled_double c (q - 1)]
    congr 1
    ring
  refine ⟨?_, (around_ratio _ m q).trans ?_, (around_ratio _ m q).trans ?_⟩
  · rw [hlow, around_ratio, lowEnd, hhalf]
    split_ifs <;> congr 1 <;> omega
  · rw [scaled_double m q, hhalf]
    congr 1
    omega
  · rw [highEnd, hhalf]
    congr 1
    omega

theorem nearest_of_inside {v : ℚ} (hm : 0 < m) (h : (Interval.around m q).Inside v) :
    Nearest m q v := by
  obtain ⟨hlow, -, hhigh⟩ := around_ends hm q
  refine ⟨hlow ▸ h.low, hhigh ▸ h.high, fun hodd => ?_⟩
  rw [← hlow, ← hhigh]
  exact h.inner (decide_eq_false (by omega))

/-- The interval is wider than a unit of 17 digits. -/
theorem unit_lt_width (hfits : Fits m q) {leading : ℤ} (hlead : (10 : ℚ) ^ leading ≤ scaled m q) :
    lowEnd m q + 10 ^ (leading - (17 : ℕ) + 1) < highEnd m q := by
  have hunit : (0 : ℚ) < 2 ^ (q - 2) := by positivity
  have hdigits : (10 : ℚ) ^ (leading - (17 : ℕ) + 1) ≤ scaled m q / 10 ^ 16 := by
    have hexponent : leading - (17 : ℕ) + 1 = leading - (16 : ℕ) := by omega
    rw [hexponent, zpow_sub₀ (by norm_num), zpow_natCast]
    exact div_le_div_of_nonneg_right hlead (by norm_num)
  have hm : (m : ℚ) ≤ 2 ^ 53 := by exact_mod_cast hfits.lt.le
  have hproduct := mul_le_mul_of_nonneg_right hm hunit.le
  rw [scaled_quarters] at hdigits
  rw [highEnd, scaled_half, lowEnd]
  split_ifs with hpower
  · rw [scaled_eq]
    push_cast
    rw [hpower.1] at hdigits ⊢
    norm_num at hdigits ⊢
    linarith
  · rw [scaled_half]
    push_cast
    linarith

/-- The grid of 17 digits has a candidate. -/
theorem around_candidate_isSome (tie : Tie) (hfits : Fits m q) {leading : ℤ}
    (hlead : (10 : ℚ) ^ leading ≤ scaled m q) :
    (((Interval.around m q).scaled (leading - (17 : ℕ) + 1)).candidate? tie).isSome = true := by
  have hden := around_denominator_pos m q
  have hm := hfits.pos
  have hwidth := unit_lt_width hfits hlead
  obtain ⟨hlow, -, hhigh⟩ := around_ends hm q
  rw [← hlow, ← hhigh] at hwidth
  have hscaled : ∀ {a b : ℕ}, a < b → a * Nat.pow 2 (q - 2).toNat *
      Nat.pow 10 (-(leading - (17 : ℕ) + 1)).toNat < b * Nat.pow 2 (q - 2).toNat *
        Nat.pow 10 (-(leading - (17 : ℕ) + 1)).toNat := fun h =>
    Nat.mul_lt_mul_of_pos_right (Nat.mul_lt_mul_of_pos_right h (Nat.pow_pos (by norm_num)))
      (Nat.pow_pos (by norm_num))
  refine Interval.candidate_isSome (Interval.scaled_denominator_pos hden _) (hscaled ?_)
    (hscaled (by omega)) (Interval.scaled_width hden hwidth)
  split_ifs <;> omega

/-- **17 digits are enough.**  The shortest digits are positive and at most 17, and their decimal rounds
to the double. -/
theorem shortest_spec (tie : Tie) (hfits : Fits m q) :
    0 < (shortest tie m q).digits ∧ (shortest tie m q).digits ≤ 10 ^ 17 ∧
      Nearest m q ((shortest tie m q).digits * 10 ^ (shortest tie m q).exponent) := by
  have hden := around_denominator_pos m q
  have hpos : 0 < (Interval.around m q).value :=
    Nat.mul_pos (by have := hfits.pos; omega) (Nat.pow_pos (by norm_num))
  obtain ⟨hlead, hlead'⟩ := leadingExponent_bounds hpos hden
  rw [(around_ends hfits.pos q).2.1] at hlead
  obtain ⟨j, k, -, hlt, hfirst, hcandidate⟩ :=
    firstCandidate_spec 17 1 ⟨17, by norm_num, by norm_num, around_candidate_isSome tie hfits hlead⟩
  obtain ⟨hholds, hnext⟩ := Interval.candidate_bounds hcandidate
  have hnearest := nearest_of_inside hfits.pos (Interval.inside_of_holds hden hholds)
  have hfew : k ≤ 10 ^ 17 := by
    have hcut := cut_lt hden hlead' j
    have hpow : 10 ^ j ≤ 10 ^ 17 := Nat.pow_le_pow_right (by norm_num) (by omega)
    omega
  have hdigits : 0 < k := by
    refine Nat.pos_of_ne_zero fun hzero => (hnearest.pos hfits.pos).ne' ?_
    rw [hzero, Nat.cast_zero, zero_mul]
  rw [shortest]
  simp only [hfirst]
  exact ⟨hdigits, hfew, hnearest⟩

end

end ShiftMesh.Decimal
