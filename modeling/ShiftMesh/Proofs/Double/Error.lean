import ShiftMesh.Proofs.Double.Quotient

/-!
# ShiftMesh.Proofs.Double.Error — how far a result is from the exact one

Each rounding moves a value by at most one part in `2^52`, and below one perhaps by the least positive
double.  Both are counted, so that the errors of several operations add up.

* `exists_neighbours`: the representable values next to a value, and how close they are.
* `Nearest.bounds`, `Nearest.range`: where the values lie that round to a double.
* `Within j c w v`: `w` is within `j` roundings and `c` least doubles of `v`; `Within.trans` adds them up,
  `Within.abs_sub_le` is the error that they amount to.
* `Rounds.within`, `Rounds.within_of_one_le`: one rounding.
* `Within.mul`, `Within.div`: products and quotients before they are rounded.
-/

namespace ShiftMesh.Double

variable {x y : Float} {v w u : ℚ} {i j b c : ℕ}

/-! ## The values next to a value -/

/-- The least positive double. -/
def leastDouble : ℚ := scaled 1 (-1074)

theorem leastDouble_pos : 0 < leastDouble := scaled_pos one_pos

theorem leastDouble_quarter : leastDouble / 4 = 2 ^ (-1076 : ℤ) := by
  rw [leastDouble, scaled_eq, Int.cast_one, one_mul, show (4 : ℚ) = 2 ^ (2 : ℤ) by norm_num,
    ← zpow_sub₀ two_ne_zero]
  norm_num

/-- The factor by which one rounding can change a value. -/
def roundingFactor : ℚ := 1 + 1 / 2 ^ 52

theorem one_le_roundingFactor : 1 ≤ roundingFactor := by
  rw [roundingFactor]
  norm_num

theorem representable_zero : Representable 0 := by
  have h := representable_count (Nat.zero_le (2 ^ 53))
  rwa [Nat.cast_zero] at h

theorem representable_top : Representable top := by
  rw [top_eq_scaled]
  exact representable_scaled (by norm_num) (by norm_num) (by norm_num)

theorem representable_value (hx : x.isFinite = true) : Representable (value x) := by
  rcases finite_cases hx with ⟨s, hu⟩ | ⟨s, m, e, hm, -, hfits, hvalue⟩
  · rw [value_of_zero hu]
    exact representable_zero
  · have hbits : |(m : ℤ)| ≤ 2 ^ 53 := by
      rw [abs_of_nonneg (by positivity)]
      exact_mod_cast hfits.lt.le
    have hscaled := representable_scaled hbits hfits.least hfits.most
    rw [hvalue]
    cases s
    · exact hscaled.neg
    · exact hscaled

/-- The unit in which a value has 53 bits, or the least one. -/
theorem exists_unit (hpos : 0 < v) (htop : v < top) :
    ∃ t : ℤ, -1074 ≤ t ∧ t ≤ 971 ∧ v < 2 ^ 53 * 2 ^ t ∧ (2 ^ 52 * 2 ^ t ≤ v ∨ t = -1074) := by
  obtain ⟨a, hlow, hhigh⟩ := exists_mem_Ico_zpow hpos one_lt_two
  have hsplit : ∀ (k : ℕ) (t : ℤ), (2 : ℚ) ^ k * 2 ^ t = 2 ^ (k + t) := fun k t => by
    rw [zpow_add₀ two_ne_zero, zpow_natCast]
  have ha : a < 1024 := by
    rw [top_eq, ← zpow_natCast] at htop
    exact (zpow_lt_zpow_iff_right₀ one_lt_two).mp (hlow.trans_lt htop)
  refine ⟨max (a - 52) (-1074), le_max_right _ _, by omega, ?_, ?_⟩
  · rw [hsplit]
    exact hhigh.trans_le (zpow_le_zpow_right₀ one_le_two (by omega))
  · rcases max_choice (a - 52) (-1074) with h | h
    · left
      rw [h, hsplit]
      have hexponent : ((52 : ℕ) : ℤ) + (a - 52) = a := by omega
      rwa [hexponent]
    · exact Or.inr h

/-- The multiples of a unit below and above a value, which are within one unit of it. -/
theorem floor_ceil_bounds {u : ℚ} (hu : 0 < u) (v : ℚ) :
    (⌊v / u⌋ * u ≤ v ∧ v ≤ ⌊v / u⌋ * u + u) ∧ v ≤ ⌈v / u⌉ * u ∧ ⌈v / u⌉ * u ≤ v + u := by
  refine ⟨⟨(le_div_iff₀ hu).mp (Int.floor_le _), ?_⟩, (div_le_iff₀ hu).mp (Int.le_ceil _), ?_⟩
  · have h := (div_lt_iff₀ hu).mp (Int.lt_floor_add_one (v / u))
    rw [add_mul, one_mul] at h
    exact h.le
  · have h := mul_le_mul_of_nonneg_right (Int.ceil_lt_add_one (v / u)).le hu.le
    rwa [add_mul, one_mul, div_mul_cancel₀ v hu.ne'] at h

/-- A value between zero and the top lies between two representable ones: either of them is off by at
most one part in `2^52`, or the value is below one and they are off by at most the least double. -/
theorem exists_neighbours (hpos : 0 < v) (htop : v < top) :
    ∃ below above, Representable below ∧ Representable above ∧ below ≤ v ∧ v ≤ above ∧
      ((v ≤ below * roundingFactor ∧ above ≤ v * roundingFactor) ∨
        v < 1 ∧ v ≤ below + leastDouble ∧ above ≤ v + leastDouble) := by
  obtain ⟨t, hleast, hmost, hbits, hfull⟩ := exists_unit hpos htop
  have hunit : (0 : ℚ) < 2 ^ t := by positivity
  have hbits' : v / 2 ^ t < 2 ^ 53 := (div_lt_iff₀ hunit).mpr hbits
  have hnonneg : 0 ≤ v / 2 ^ t := by positivity
  obtain ⟨⟨hfloor, hbelow⟩, hceil, habove⟩ := floor_ceil_bounds hunit v
  have hfloor' : |⌊v / 2 ^ t⌋| ≤ 2 ^ 53 := by
    rw [abs_of_nonneg (Int.floor_nonneg.mpr hnonneg)]
    exact Int.floor_le_iff.mpr (hbits'.trans (by norm_num))
  have hceil' : |⌈v / 2 ^ t⌉| ≤ 2 ^ 53 := by
    rw [abs_of_nonneg (Int.ceil_nonneg hnonneg)]
    exact Int.ceil_le.mpr (by push_cast; exact hbits'.le)
  refine ⟨scaled ⌊v / 2 ^ t⌋ t, scaled ⌈v / 2 ^ t⌉ t, representable_scaled hfloor' hleast hmost,
    representable_scaled hceil' hleast hmost, hfloor, hceil, ?_⟩
  rw [scaled_eq, scaled_eq, roundingFactor]
  rcases hfull with hfull | hfull
  · left
    have hbits53 : (2 : ℚ) ^ 52 ≤ ⌊v / 2 ^ t⌋ := by
      have h : (2 ^ 52 : ℤ) ≤ ⌊v / 2 ^ t⌋ := Int.le_floor.mpr (by
        push_cast
        exact (le_div_iff₀ hunit).mpr hfull)
      exact_mod_cast h
    have hpart : (2 : ℚ) ^ t ≤ ⌊v / 2 ^ t⌋ * 2 ^ t * (1 / 2 ^ 52) := by
      have h := mul_le_mul_of_nonneg_right hbits53 hunit.le
      linarith
    have hpart' : (2 : ℚ) ^ t ≤ v * (1 / 2 ^ 52) := by linarith
    constructor <;> linarith
  · right
    have hone : (2 : ℚ) ^ 53 * 2 ^ t < 1 := by
      rw [hfull, ← zpow_natCast, ← zpow_add₀ two_ne_zero, ← zpow_zero (2 : ℚ)]
      exact zpow_lt_zpow_right₀ one_lt_two (by norm_num)
    have hdouble : leastDouble = 2 ^ t := by rw [hfull, leastDouble, scaled_eq, Int.cast_one, one_mul]
    rw [hdouble]
    exact ⟨hbits.trans hone, hbelow, habove⟩

/-! ## The values that round to a double -/

section Nearest

variable {m : ℕ} {q : ℤ}

/-- A value that rounds to a double is at most half a unit away from it. -/
theorem Nearest.bounds (h : Nearest m q v) :
    scaled m q - 2 * 2 ^ (q - 2) ≤ v ∧ v ≤ scaled m q + 2 * 2 ^ (q - 2) := by
  have hlow := (half_below_le_lowEnd m q).trans h.low
  have hhigh := h.high
  rw [scaled_half] at hlow
  rw [highEnd, scaled_half] at hhigh
  push_cast at hlow hhigh
  rw [scaled_quarters]
  constructor <;> linarith

/-- A value that rounds to a double is at least a quarter of the least double, and at most the top. -/
theorem Nearest.range (h : Nearest m q v) (hfits : Fits m q) : leastDouble / 4 ≤ v ∧ v ≤ top := by
  obtain ⟨hlow, hhigh⟩ := h.bounds
  have hunit : (0 : ℚ) < 2 ^ (q - 2) := by positivity
  have hquarters := scaled_quarters m q
  have hone : (1 : ℚ) ≤ m := by exact_mod_cast hfits.pos
  have hscaled := mul_le_mul_of_nonneg_right hone hunit.le
  constructor
  · have hleast : leastDouble ≤ scaled m q :=
      (scaled_le_scaled.mpr (by exact_mod_cast hfits.pos)).trans (scaled_mono (by positivity) hfits.least)
    linarith
  · have hbits : |(m + 1 : ℤ)| ≤ 2 ^ 53 := by
      have := hfits.lt
      rw [abs_of_nonneg (by positivity)]
      exact_mod_cast this
    have htop := (le_abs_self _).trans (representable_scaled hbits hfits.least hfits.most).1
    have hquarters' := scaled_quarters (m + 1) q
    push_cast at hquarters'
    linarith

end Nearest

/-! ## Errors that add up -/

/-- A value within so many roundings and so many least doubles of another one. -/
structure Within (j c : ℕ) (w v : ℚ) : Prop where
  le_value : v / roundingFactor ^ j - c * leastDouble ≤ w
  value_le : w ≤ v * roundingFactor ^ j + c * leastDouble

theorem roundingFactor_pow_pos (j : ℕ) : 0 < roundingFactor ^ j :=
  pow_pos (zero_lt_one.trans_le one_le_roundingFactor) j

theorem roundingFactor_pow_le {j : ℕ} (hj : j ≤ 7) : roundingFactor ^ j ≤ 1 + 1 / 2 ^ 49 := by
  refine (pow_le_pow_right₀ one_le_roundingFactor hj).trans ?_
  rw [roundingFactor]
  norm_num

namespace Within

/-- More roundings and more least doubles are a weaker bound. -/
theorem mono (h : Within j c w v) (hv : 0 ≤ v) (hj : j ≤ i) (hc : c ≤ b) : Within i b w v := by
  have hpow := pow_le_pow_right₀ one_le_roundingFactor hj
  have hcast : (c : ℚ) * leastDouble ≤ b * leastDouble :=
    mul_le_mul_of_nonneg_right (by exact_mod_cast hc) leastDouble_pos.le
  have hdiv : v / roundingFactor ^ i ≤ v / roundingFactor ^ j :=
    div_le_div_of_nonneg_left hv (roundingFactor_pow_pos j) hpow
  have hmul : v * roundingFactor ^ j ≤ v * roundingFactor ^ i := mul_le_mul_of_nonneg_left hpow hv
  constructor <;> linarith [h.le_value, h.value_le]

/-- The errors of two steps; the roundings of the second step can double the least doubles of the
first one. -/
theorem trans (h : Within j c w u) (h' : Within i b u v) (hj : j ≤ 7) :
    Within (i + j) (2 * b + c) w v := by
  have hpos := roundingFactor_pow_pos j
  have hfew : roundingFactor ^ j ≤ 2 := (roundingFactor_pow_le hj).trans (by norm_num)
  have hone : 1 ≤ roundingFactor ^ j := one_le_pow₀ one_le_roundingFactor
  have hb : 0 ≤ (b : ℚ) * leastDouble := mul_nonneg (by positivity) leastDouble_pos.le
  constructor
  · have hdiv := div_le_div_of_nonneg_right h'.le_value hpos.le
    have hless : (b : ℚ) * leastDouble / roundingFactor ^ j ≤ b * leastDouble := div_le_self hb hone
    rw [sub_div, div_div, ← pow_add] at hdiv
    push_cast
    linarith [h.le_value]
  · have hmul := mul_le_mul_of_nonneg_right h'.value_le hpos.le
    have hmore := mul_le_mul_of_nonneg_left hfew hb
    rw [add_mul, mul_assoc, ← pow_add] at hmul
    push_cast
    linarith [h.value_le]

/-- The error of few roundings. -/
theorem abs_sub_le (h : Within j c w v) (hv : 0 ≤ v) (hj : j ≤ 7) :
    |w - v| ≤ v / 2 ^ 49 + c * leastDouble := by
  have hpos := roundingFactor_pow_pos j
  have hpow := roundingFactor_pow_le hj
  have hup : v * roundingFactor ^ j ≤ v * (1 + 1 / 2 ^ 49) := mul_le_mul_of_nonneg_left hpow hv
  have hdown : v * (1 - 1 / 2 ^ 49) ≤ v / roundingFactor ^ j := by
    rw [le_div_iff₀ hpos]
    have hproduct : (1 - 1 / 2 ^ 49 : ℚ) * roundingFactor ^ j ≤ 1 := by
      refine (mul_le_mul_of_nonneg_left hpow (by norm_num)).trans ?_
      norm_num
    calc v * (1 - 1 / 2 ^ 49) * roundingFactor ^ j = v * ((1 - 1 / 2 ^ 49) * roundingFactor ^ j) :=
          mul_assoc _ _ _
      _ ≤ v * 1 := mul_le_mul_of_nonneg_left hproduct hv
      _ = v := mul_one v
  rw [abs_le]
  constructor <;> linarith [h.le_value, h.value_le]

end Within

/-! ## One rounding -/

theorem Within.of_eq (h : w = v) (hv : 0 ≤ v) (j c : ℕ) : Within j c w v := by
  subst h
  have hone := one_le_pow₀ one_le_roundingFactor (n := j)
  have hc : 0 ≤ (c : ℚ) * leastDouble := mul_nonneg (by positivity) leastDouble_pos.le
  have hless : w / roundingFactor ^ j ≤ w := div_le_self hv hone
  have hmore : w ≤ w * roundingFactor ^ j := le_mul_of_one_le_right hv hone
  constructor <;> linarith

/-- A double that rounds a value is within one rounding of it, and below one perhaps one least double
more. -/
theorem Rounds.within_cases (h : Rounds x v) (hv : 0 ≤ v) (htop : v ≤ top) :
    Within 1 0 (value x) v ∨ v < 1 ∧ Within 1 1 (value x) v := by
  rcases hv.eq_or_lt with rfl | hpos
  · exact Or.inl (.of_eq (h.eq_of_representable representable_zero) hv 1 0)
  rcases htop.eq_or_lt with rfl | hlt
  · exact Or.inl (.of_eq (h.eq_of_representable representable_top) hv 1 0)
  have hone := one_le_roundingFactor
  have hless : v / roundingFactor ≤ v := div_le_self hv hone
  have hmore : v ≤ v * roundingFactor := le_mul_of_one_le_right hv hone
  obtain ⟨below, above, hbelow, habove, hle, hge, hclose⟩ := exists_neighbours hpos hlt
  have hlow := h.le_value below hbelow hle
  have hhigh := h.value_le above habove hge
  rcases hclose with ⟨hdown, hup⟩ | ⟨hv1, hdown, hup⟩
  · left
    have hdiv : v / roundingFactor ≤ below := (div_le_iff₀ (zero_lt_one.trans_le hone)).mpr hdown
    constructor <;> rw [pow_one, Nat.cast_zero, zero_mul] <;> linarith
  · refine Or.inr ⟨hv1, ?_, ?_⟩ <;> rw [pow_one, Nat.cast_one, one_mul] <;> linarith

theorem Rounds.within (h : Rounds x v) (hv : 0 ≤ v) (htop : v ≤ top) : Within 1 1 (value x) v := by
  rcases h.within_cases hv htop with hrelative | ⟨-, habsolute⟩
  · exact hrelative.mono hv le_rfl zero_le_one
  · exact habsolute

theorem Rounds.within_of_one_le (h : Rounds x v) (hv : 1 ≤ v) (htop : v ≤ top) :
    Within 1 0 (value x) v :=
  (h.within_cases (zero_le_one.trans hv) htop).resolve_right fun hbelow => hbelow.1.not_ge hv

/-! ## Before rounding -/

/-- The product of two values that are each within some roundings. -/
theorem Within.mul {w' v' : ℚ} (h : Within i 0 w v) (h' : Within j 0 w' v') (hv : 0 ≤ v) (hv' : 0 ≤ v') :
    Within (i + j) 0 (w * w') (v * v') := by
  have hlow := h.le_value
  have hhigh := h.value_le
  have hlow' := h'.le_value
  have hhigh' := h'.value_le
  rw [Nat.cast_zero, zero_mul, sub_zero] at hlow hlow'
  rw [Nat.cast_zero, zero_mul, add_zero] at hhigh hhigh'
  have hdiv : 0 ≤ v / roundingFactor ^ i := div_nonneg hv (roundingFactor_pow_pos i).le
  have hdiv' : 0 ≤ v' / roundingFactor ^ j := div_nonneg hv' (roundingFactor_pow_pos j).le
  constructor
  · rw [Nat.cast_zero, zero_mul, sub_zero, pow_add, ← div_mul_div_comm]
    exact mul_le_mul hlow hlow' hdiv' (hdiv.trans hlow)
  · rw [Nat.cast_zero, zero_mul, add_zero, pow_add, mul_mul_mul_comm]
    exact mul_le_mul hhigh hhigh' (hdiv'.trans hlow')
      (mul_nonneg hv (roundingFactor_pow_pos i).le)

/-- The quotient of a value by one from one on, each within some roundings. -/
theorem Within.div {p q : ℚ} (h : Within i c w v) (h' : Within j 0 p q) (hv : 0 ≤ v) (hp : 1 ≤ p)
    (hq : 0 < q) : Within (i + j) c (w / p) (v / q) := by
  have hpos := zero_lt_one.trans_le hp
  have hlow' := h'.le_value
  have hhigh' := h'.value_le
  rw [Nat.cast_zero, zero_mul, sub_zero, div_le_iff₀ (roundingFactor_pow_pos j)] at hlow'
  rw [Nat.cast_zero, zero_mul, add_zero] at hhigh'
  have hc : 0 ≤ (c : ℚ) * leastDouble := mul_nonneg (by positivity) leastDouble_pos.le
  have hcp : (c : ℚ) * leastDouble / p ≤ c * leastDouble := div_le_self hc hp
  have hi := roundingFactor_pow_pos i
  have hj := roundingFactor_pow_pos j
  constructor
  · have hdiv := div_le_div_of_nonneg_right h.le_value hpos.le
    have hless : v / q / roundingFactor ^ (i + j) ≤ v / roundingFactor ^ i / p := by
      rw [div_div, div_div, pow_add]
      refine div_le_div_of_nonneg_left hv (mul_pos hi hpos) ?_
      calc roundingFactor ^ i * p ≤ roundingFactor ^ i * (q * roundingFactor ^ j) :=
            mul_le_mul_of_nonneg_left hhigh' hi.le
        _ = q * (roundingFactor ^ i * roundingFactor ^ j) := by ring
    rw [sub_div] at hdiv
    linarith
  · have hdiv := div_le_div_of_nonneg_right h.value_le hpos.le
    have hmore : v * roundingFactor ^ i / p ≤ v / q * roundingFactor ^ (i + j) := by
      rw [div_mul_eq_mul_div, div_le_div_iff₀ hpos hq, pow_add]
      calc v * roundingFactor ^ i * q ≤ v * roundingFactor ^ i * (p * roundingFactor ^ j) :=
            mul_le_mul_of_nonneg_left hlow' (mul_nonneg hv hi.le)
        _ = v * (roundingFactor ^ i * roundingFactor ^ j) * p := by ring
    rw [add_div] at hdiv
    linarith

end ShiftMesh.Double
