import ShiftMesh.Proofs.Double.Absorption
import ShiftMesh.Proofs.Json.Text

/-!
# ShiftMesh.Proofs.Json.Reread — a double that was written and read is close to what it was

The text has the shortest digits.  Reading rounds them to a double, and multiplies or divides it by
powers of ten, which are rounded themselves.

* `Near j c f v`: the double `f` is finite, not negative, and within `j` roundings and `c` least doubles
  of `v`.
* `Near.div_power`: one division; `scaleDown_near`: all of them.
* `scaleByPower_near`: the double of a significand and a power of ten.
* `rounds_scaleByPower`: with few digits the power is exact, and the decimal is rounded once.
* `readBack_close`: six roundings and five least doubles from a finite double to its reading, and none if
  its text has few digits (`FewDigits`).
-/

namespace ShiftMesh.Json

open ShiftMesh.Double
open WrittenNumber (power scaleDown scaleByPower)

/-! ## Doubles near a value -/

/-- A finite double that is not negative, and close to a value. -/
structure Near (j c : ℕ) (f : Float) (v : ℚ) : Prop where
  isFinite : f.isFinite = true
  nonneg : 0 ≤ value f
  within : Within j c (value f) v

variable {f : Float} {v : ℚ} {i j b c n k : ℕ}

theorem Near.mono (h : Near j c f v) (hv : 0 ≤ v) (hj : j ≤ i) (hc : c ≤ b) : Near i b f v :=
  ⟨h.isFinite, h.nonneg, h.within.mono hv hj hc⟩

theorem pow_le_greatest (hk : k ≤ 308) : (10 : ℚ) ^ k ≤ greatest := by
  have hnat : 10 ^ 308 + 2 ^ 971 ≤ 2 ^ 1024 := by decide +kernel
  have hcast : ((10 ^ 308 + 2 ^ 971 : ℕ) : ℚ) ≤ (2 ^ 1024 : ℕ) := Nat.cast_le.mpr hnat
  rw [Nat.cast_add, Nat.cast_pow, Nat.cast_pow, Nat.cast_pow, Nat.cast_ofNat, Nat.cast_ofNat] at hcast
  have hpow : (10 : ℚ) ^ k ≤ 10 ^ 308 := pow_le_pow_right₀ (by norm_num) hk
  rw [greatest_eq, sub_mul, one_mul, ← pow_add]
  exact hpow.trans (le_sub_iff_add_le.mpr hcast)

/-- The powers of the table. -/
theorem power_near (hk : k ≤ 308) : Near 1 0 (power k) (10 ^ k) ∧ 1 ≤ value (power k) := by
  obtain ⟨hfinite, hone, hwithin⟩ := finite_of_rounds (rounds_power hk)
    (one_le_pow₀ (by norm_num)) (pow_le_greatest hk)
  exact ⟨⟨hfinite, zero_le_one.trans hone, hwithin⟩, hone⟩

/-- A significand of at most 64 bits. -/
theorem significand_near (hn : n < Nat.pow 2 64) : Near 1 0 (Float.ofNat n) n := by
  have hgreatest : (n : ℚ) ≤ greatest := by
    have hpow : Nat.pow 2 64 ≤ 10 ^ 20 := by decide
    have hcast : (n : ℚ) ≤ 10 ^ 20 := by exact_mod_cast hn.le.trans hpow
    exact hcast.trans (pow_le_greatest (by norm_num))
  have hrounds := rounds_ofNat n
  have hfinite := hrounds.isFinite representable_greatest greatest_lt_top
    (by rwa [abs_of_nonneg (Nat.cast_nonneg n)])
  refine ⟨hfinite, hrounds.le_value 0 representable_zero (Nat.cast_nonneg n), ?_⟩
  rcases Nat.eq_zero_or_pos n with rfl | hpos
  · rw [Nat.cast_zero] at hrounds ⊢
    exact .of_eq (hrounds.eq_of_representable representable_zero) le_rfl 1 0
  · exact hrounds.within_of_one_le (by exact_mod_cast hpos) (hgreatest.trans greatest_lt_top.le)

/-! ## Divisions by powers of ten -/

/-- One division adds two roundings: that of the power, and its own. -/
theorem Near.div_power (h : Near j c f v) (hv : 0 ≤ v) (hk : k ≤ 308) :
    Near (j + 2) (2 * c + 1) (f / power k) (v / 10 ^ k) := by
  obtain ⟨⟨hpfinite, hpnonneg, hpwithin⟩, hpone⟩ := power_near hk
  have hppos := zero_lt_one.trans_le hpone
  have hrounds := rounds_div h.isFinite hpfinite hppos.ne'
  have hquotient : 0 ≤ value f / value (power k) := div_nonneg h.nonneg hpnonneg
  have hless : value f / value (power k) ≤ value f := div_le_self h.nonneg hpone
  have htop := (abs_lt.mp (isFinite_iff.mp h.isFinite).2).2
  have hwithin := h.within.div hpwithin hv hpone (by positivity)
  refine ⟨hrounds.isFinite (representable_value h.isFinite) htop ?_,
    hrounds.le_value 0 representable_zero hquotient,
    (hrounds.within hquotient (hless.trans htop.le)).trans hwithin (by norm_num)⟩
  rwa [abs_of_nonneg hquotient]

/-- A double that is zero is near every smaller value. -/
theorem Near.of_zero (h : Near j c f v) (hzero : value f = 0) {w : ℚ} (hw : 0 ≤ w) (hle : w ≤ v) :
    Near j c f w := by
  have hpos := roundingFactor_pow_pos j
  have hlow := h.within.le_value
  have hdiv : w / roundingFactor ^ j ≤ v / roundingFactor ^ j := div_le_div_of_nonneg_right hle hpos.le
  have hc : 0 ≤ (c : ℚ) * leastDouble := mul_nonneg (by positivity) leastDouble_pos.le
  have hmul : 0 ≤ w * roundingFactor ^ j := mul_nonneg hw hpos.le
  rw [hzero] at hlow
  refine ⟨h.isFinite, h.nonneg, ?_, ?_⟩ <;> rw [hzero] <;> linarith

/-- Each table of powers that is gone through adds a division. -/
theorem scaleDown_near (rounds : ℕ) (h : Near j c f v) (hv : 0 ≤ v) (hn : n < rounds)
    (hk : k ≤ 308 * (n + 1)) (hb : 2 ^ (n + 1) * (c + 1) ≤ b + 1) :
    Near (j + 2 * (n + 1)) b (scaleDown rounds f k) (v / 10 ^ k) := by
  induction rounds generalizing n j c f v k with
  | zero => exact absurd hn (Nat.not_lt_zero n)
  | succ rounds ih =>
    have htwo : 2 * (c + 1) ≤ b + 1 := by
      refine le_trans (Nat.mul_le_mul_right _ ?_) hb
      exact Nat.le_self_pow (Nat.succ_ne_zero n) 2
    have hvalue : 0 ≤ v / 10 ^ k := by positivity
    rw [scaleDown]
    by_cases hlast : k ≤ 308
    · rw [if_pos hlast]
      exact (h.div_power hv hlast).mono hvalue (by omega) (by omega)
    · rw [if_neg hlast]
      by_cases hzero : (f == 0.0) = true
      · rw [if_pos hzero]
        obtain ⟨hnumber, hzerovalue⟩ := zero_number
        have hfvalue := (beq_iff (isNaN_of_isFinite h.isFinite) hnumber).mp hzero
        rw [hzerovalue] at hfvalue
        exact (h.of_zero hfvalue hvalue (div_le_self hv (one_le_pow₀ (by norm_num)))).mono hvalue
          (by omega) (by omega)
      · rw [if_neg hzero]
        obtain ⟨n, rfl⟩ : ∃ n', n = n' + 1 := ⟨n - 1, by omega⟩
        have hnext := ih (h.div_power hv le_rfl) (div_nonneg hv (by positivity)) (by omega)
          (by omega : k - 308 ≤ 308 * (n + 1)) (by rw [pow_succ] at hb; linarith)
        rw [div_div, ← pow_add, Nat.add_sub_cancel' (by omega)] at hnext
        have hrounds : j + 2 + 2 * (n + 1) = j + 2 * (n + 1 + 1) := by ring
        rwa [hrounds] at hnext

/-! ## The double of a significand -/

theorem eq_zero_of_ofNat (hn : n < Nat.pow 2 64) (hzero : (Float.ofNat n == 0.0) = true) : n = 0 := by
  have hsignificand := significand_near hn
  have hvalue := (beq_iff (isNaN_of_isFinite hsignificand.isFinite) zero_number.1).mp hzero
  have hlow := hsignificand.within.le_value
  rw [hvalue, zero_number.2, Nat.cast_zero, zero_mul, sub_zero, pow_one,
    div_le_iff₀ (zero_lt_one.trans_le one_le_roundingFactor), zero_mul] at hlow
  exact Nat.le_zero.mp (by exact_mod_cast hlow)

/-- The product of a significand and a power, unless it is infinite. -/
theorem Near.mul_power (h : Near 1 0 f n) (hk : k ≤ 308) (hinf : (f * power k).isInf = false) :
    Near 3 1 (f * power k) (n * 10 ^ k) := by
  obtain ⟨⟨hpfinite, hpnonneg, hpwithin⟩, -⟩ := power_near hk
  have hrounds := rounds_mul h.isFinite hpfinite
  have hproduct : 0 ≤ value f * value (power k) := mul_nonneg h.nonneg hpnonneg
  have hfinite : (f * power k).isFinite = true := by
    by_contra hnot
    rcases not_finite_cases (Bool.eq_false_iff.mpr hnot) with hu | ⟨s, hu⟩
    · have hnumber := hrounds.isNumber
      rw [isNaN_eq, hu] at hnumber
      cases hnumber
    · change (unpacked (f * power k)).isInf = false at hinf
      rw [hu] at hinf
      cases hinf
  have htop : value f * value (power k) ≤ top := by
    by_contra hlt
    have hle := hrounds.le_value top representable_top (not_le.mp hlt).le
    exact (abs_lt.mp (isFinite_iff.mp hfinite).2).2.not_ge hle
  have hwithin := h.within.mul hpwithin (Nat.cast_nonneg n) (by positivity)
  exact ⟨hfinite, hrounds.le_value 0 representable_zero hproduct,
    (hrounds.within hproduct htop).trans hwithin (by norm_num)⟩

/-- The double of a significand times a power of ten, if there is one. -/
theorem scaleByPower_near {s : ℤ} (h : scaleByPower n s = some f) (hn : n < Nat.pow 2 64)
    (hs : -616 ≤ s) : Near 5 3 f (n * 10 ^ s) := by
  have hsignificand := significand_near hn
  have hv : 0 ≤ (n : ℚ) * 10 ^ s := by positivity
  rw [scaleByPower] at h
  by_cases hpos : 0 ≤ s
  · obtain ⟨k, rfl⟩ := Int.eq_ofNat_of_zero_le hpos
    rw [zpow_natCast] at hv ⊢
    rw [if_pos hpos] at h
    by_cases hk : (k : ℤ) ≤ 308
    · rw [if_pos hk, Int.toNat_natCast] at h
      dsimp only at h
      split_ifs at h with hinf
      cases h
      exact (hsignificand.mul_power (by omega) (Bool.eq_false_iff.mpr hinf)).mono hv (by norm_num)
        (by norm_num)
    · -- no significand but zero has a double
      rw [if_neg hk] at h
      split_ifs at h with hzero
      cases h
      rw [eq_zero_of_ofNat hn hzero, Nat.cast_zero] at hsignificand ⊢
      rw [zero_mul]
      exact hsignificand.mono le_rfl (by norm_num) (by norm_num)
  · obtain ⟨k, rfl⟩ : ∃ k : ℕ, s = -k := ⟨(-s).toNat, by omega⟩
    rw [if_neg hpos, neg_neg, Int.toNat_natCast] at h
    cases h
    rw [zpow_neg, zpow_natCast, ← div_eq_mul_inv]
    exact scaleDown_near (n := 1) 4 hsignificand (Nat.cast_nonneg n) (by norm_num) (by omega)
      (by norm_num)

/-! ## One rounding -/

theorem value_ofNat (hn : n ≤ 2 ^ 53) : (Float.ofNat n).isFinite = true ∧ value (Float.ofNat n) = n :=
  ⟨(significand_near (hn.trans_lt (by decide))).isFinite,
    (rounds_ofNat n).eq_of_representable (representable_count hn)⟩

/-- The powers up to `10^22` are doubles. -/
theorem value_power (hk : k ≤ 22) : (power k).isFinite = true ∧ value (power k) = 10 ^ k := by
  have hrepresentable : Representable (10 ^ k) := by
    have hfive : |(5 ^ k : ℤ)| ≤ 2 ^ 53 := by
      rw [abs_of_nonneg (by positivity)]
      exact (pow_le_pow_right₀ (by norm_num) hk).trans (by norm_num)
    have hscaled := representable_scaled hfive (c := k) (by omega) (by omega)
    rw [scaled_eq, zpow_natCast] at hscaled
    push_cast at hscaled
    rw [← mul_pow] at hscaled
    norm_num at hscaled
    exact hscaled
  exact ⟨(power_near (by omega)).1.isFinite,
    (rounds_power (by omega)).eq_of_representable hrepresentable⟩

/-- The double of 53 bits and a power up to `10^22` is rounded once. -/
theorem rounds_scaleByPower {s : ℤ} (h : scaleByPower n s = some f) (hn : n ≤ 2 ^ 53) (hlow : -22 ≤ s)
    (hhigh : s ≤ 22) : Rounds f (n * 10 ^ s) := by
  obtain ⟨hnfinite, hnvalue⟩ := value_ofNat hn
  rw [scaleByPower] at h
  by_cases hpos : 0 ≤ s
  · obtain ⟨k, rfl⟩ := Int.eq_ofNat_of_zero_le hpos
    obtain ⟨hpfinite, hpvalue⟩ := value_power (k := k) (by omega)
    have hk : (k : ℤ) ≤ 308 := by omega
    rw [if_pos hpos, if_pos hk, Int.toNat_natCast] at h
    dsimp only at h
    split_ifs at h
    cases h
    rw [zpow_natCast, ← hnvalue, ← hpvalue]
    exact rounds_mul hnfinite hpfinite
  · obtain ⟨k, rfl⟩ : ∃ k : ℕ, s = -k := ⟨(-s).toNat, by omega⟩
    obtain ⟨hpfinite, hpvalue⟩ := value_power (k := k) (by omega)
    have hk : k ≤ 308 := by omega
    rw [if_neg hpos, neg_neg, Int.toNat_natCast, scaleDown, if_pos hk] at h
    cases h
    rw [zpow_neg, zpow_natCast, ← div_eq_mul_inv, ← hnvalue, ← hpvalue]
    exact rounds_div hnfinite hpfinite (by rw [hpvalue]; positivity)

/-! ## Reading a double back -/

variable {x : Float} {negative : Bool} {t : Numeral}

/-- A double is read back as what its text without the sign gives, with the sign. -/
theorem Prints.exists_readBack (h : Prints x negative t v) (hf : t.written.magnitude = some f)
    (hfinite : f.isFinite = true) :
    ∃ y, (Number.double x).readBack = .double y ∧ y.isFinite = true ∧
      |value y - value x| = |value f - (|value x|)| := by
  have hread := Numeral.readNumber_chars (h.shows.withSign negative).wellFormed endsNumber_nil
  rw [List.append_nil, ← h.print, h.toNumber hf] at hread
  have hback : (Number.double x).readBack = .double (if negative then -f else f) := by
    rw [Number.readBack, hread]
    rfl
  refine ⟨_, hback, ?_⟩
  have hsign := h.sign
  cases negative with
  | true =>
    obtain ⟨hnumber, hneg⟩ := value_neg (isNaN_of_isFinite hfinite)
    simp only [if_true] at hsign ⊢
    have hflip : value (-f) - value x = -(value f - |value x|) := by
      rw [hneg]
      linarith
    rw [hflip, abs_neg]
    refine ⟨isFinite_iff.mpr ⟨hnumber, ?_⟩, rfl⟩
    rw [hneg, abs_neg]
    exact (isFinite_iff.mp hfinite).2
  | false =>
    simp only [Bool.false_eq_true, if_false] at hsign ⊢
    rw [← hsign]
    exact ⟨hfinite, rfl⟩

/-- The reading of a double's text without its sign. -/
theorem Prints.near (h : Prints x negative t v) (hf : t.written.magnitude = some f) :
    Near 6 5 f |value x| := by
  rw [magnitude_written h.shows.fits] at hf
  have hnear := scaleByPower_near hf h.shows.fits h.scale
  rw [h.shows.value] at hnear
  exact ⟨hnear.isFinite, hnear.nonneg, hnear.within.trans h.within (by norm_num)⟩

/-- The text of a double has digits of at most 53 bits, and at most 22 places on either side. -/
def FewDigits (x : Float) : Prop :=
  ∃ t : Numeral, t.WellFormed ∧ (Number.double x).print = t.chars ∧
    Nat.ofDigitChars 10 t.digits 0 ≤ 2 ^ 53 ∧ -22 ≤ t.scale ∧ t.scale ≤ 22

/-- A text with few digits is read by rounding its decimal once, so it gives the double back. -/
theorem Prints.eq_of_fewDigits (h : Prints x negative t v) (hfew : FewDigits x)
    (hf : t.written.magnitude = some f) : |value f| = |value x| := by
  obtain ⟨u, hu, htext, hdigits, hlow, hhigh⟩ := hfew
  have hwritten : (withSign negative t).written = u.written :=
    Numeral.written_of_chars (h.shows.withSign negative).wellFormed hu (h.print.symm.trans htext)
  obtain ⟨hsame, hscale⟩ := Numeral.digits_of_written hwritten
  rw [← hsame] at hdigits
  rw [← hscale] at hlow hhigh
  rw [magnitude_written h.shows.fits] at hf
  have hrounds := rounds_scaleByPower hf hdigits hlow hhigh
  rw [h.shows.value] at hrounds
  exact h.rounds f hrounds

/-- A finite double is read back as a finite one, at most one part in `2^49` and five least doubles
away; with few digits it is read back as it was. -/
theorem readBack_close (hx : x.isFinite = true) :
    ∃ y, (Number.double x).readBack = .double y ∧ y.isFinite = true ∧
      |value y - value x| ≤ |value x| / 2 ^ 49 + 5 * leastDouble ∧
      (FewDigits x → value y = value x) := by
  obtain ⟨negative, t, v, hprints⟩ := exists_prints hx
  obtain ⟨f, hf⟩ := Option.isSome_iff_exists.mp hprints.hasDouble
  have hnear := hprints.near hf
  obtain ⟨y, hread, hfinite, hdistance⟩ := hprints.exists_readBack hf hnear.isFinite
  refine ⟨y, hread, hfinite, ?_, fun hfew => ?_⟩
  · rw [hdistance]
    have hclose := hnear.within.abs_sub_le (abs_nonneg _) (by norm_num)
    exact_mod_cast hclose
  · have heq := hprints.eq_of_fewDigits hfew hf
    rw [abs_of_nonneg hnear.nonneg] at heq
    rw [heq, sub_self, abs_zero] at hdistance
    exact sub_eq_zero.mp (abs_eq_zero.mp hdistance)

end ShiftMesh.Json
