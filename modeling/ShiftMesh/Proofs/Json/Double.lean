import ShiftMesh.Proofs.Double.Error
import ShiftMesh.Proofs.Decimal.Shortest
import ShiftMesh.Proofs.Json.Layout

/-!
# ShiftMesh.Proofs.Json.Double — the text of a finite double is read as a double

Reading rounds the digits, the power of ten and their product, so the product could pass beyond the
largest double.

* `scaleByPower_isSome`: it does not for the decimals of all doubles but the five greatest; those are
  checked one by one (`read_greatest`).
* `nearest_decimal`, `within_decimal`: the decimal with the shortest digits rounds to its double, and is
  as close to it as one rounding.
* `Prints`: the numeral that is the text of a double, and the decimal that it shows.
* `exists_written`: the text of every finite double is a numeral that is read as a double.
-/

namespace ShiftMesh.Json

open ShiftMesh.Decimal (Digits shortest)
open ShiftMesh.Decimal.Layout (document)
open ShiftMesh.Double
open Float.Model (UnpackedFloat)

/-! ## The product -/

/-- The largest double. -/
def greatest : ℚ := scaled (Nat.pow 2 53 - 1 : ℕ) 971

theorem greatest_eq : greatest = (2 ^ 53 - 1) * 2 ^ 971 := by
  rw [greatest, scaled_eq]
  norm_num

theorem representable_greatest : Representable greatest :=
  representable_scaled (by norm_num) (by norm_num) (by norm_num)

theorem greatest_lt_top : greatest < top := by
  rw [top_eq_scaled, greatest, scaled_lt_scaled]
  norm_num

theorem greatest_lt_pow : greatest < 10 ^ 309 := by
  have hnat : 2 ^ 1024 < 10 ^ 309 := by decide +kernel
  have hcast : ((2 ^ 1024 : ℕ) : ℚ) < (10 ^ 309 : ℕ) := Nat.cast_lt.mpr hnat
  rw [Nat.cast_pow, Nat.cast_pow] at hcast
  exact greatest_lt_top.trans hcast

theorem isInf_of_isFinite {x : Float} (h : x.isFinite = true) : x.isInf = false := by
  change (unpacked x).isFinite = true at h
  change (unpacked x).isInf = false
  generalize unpacked x = u at h ⊢
  cases u with
  | infinity s => cases h
  | notANumber => rfl
  | zero s => rfl
  | finite s m e hm => rfl

/-- A double that rounds a value from one up to the greatest double is finite and close to it. -/
theorem finite_of_rounds {x : Float} {v : ℚ} (h : Rounds x v) (hv : 1 ≤ v) (hle : v ≤ greatest) :
    x.isFinite = true ∧ 1 ≤ value x ∧ Within 1 0 (value x) v := by
  have hone : Representable 1 := by simpa using representable_count (n := 1) (by norm_num)
  refine ⟨h.isFinite representable_greatest greatest_lt_top ?_, h.le_value 1 hone hv,
    h.within_of_one_le hv (hle.trans greatest_lt_top.le)⟩
  rwa [abs_of_nonneg (zero_le_one.trans hv)]

theorem rounds_power {k : ℕ} (hk : k ≤ 308) : Rounds (WrittenNumber.power k) (10 ^ k) := by
  have := rounds_ofScientific 1 (k := k) (by omega)
  rwa [Nat.cast_one, one_mul] at this

/-- A count times a power of ten whose product leaves room for two roundings has a double. -/
theorem scaleByPower_isSome {n : ℕ} {s : ℤ} (hs : 0 ≤ s) (hn : 0 < n)
    (h : (n : ℚ) * 10 ^ s * roundingFactor ^ 2 ≤ greatest) :
    (WrittenNumber.scaleByPower n s).isSome = true := by
  obtain ⟨k, rfl⟩ := Int.eq_ofNat_of_zero_le hs
  rw [zpow_natCast] at h
  have hn1 : (1 : ℚ) ≤ n := by exact_mod_cast hn
  have hp1 : (1 : ℚ) ≤ 10 ^ k := one_le_pow₀ (by norm_num)
  have hroom : (1 : ℚ) ≤ roundingFactor ^ 2 := one_le_pow₀ one_le_roundingFactor
  have hproduct : (n : ℚ) * 10 ^ k ≤ greatest :=
    (le_mul_of_one_le_right (by positivity) hroom).trans h
  have hk : k ≤ 308 := by
    by_contra hlt
    have hpow : (10 : ℚ) ^ 309 ≤ 10 ^ k := pow_le_pow_right₀ (by norm_num) (by omega)
    have hle : (10 : ℚ) ^ k ≤ n * 10 ^ k := le_mul_of_one_le_left (by positivity) hn1
    exact greatest_lt_pow.not_ge ((hpow.trans hle).trans hproduct)
  obtain ⟨hnfinite, hnone, hnwithin⟩ := finite_of_rounds (rounds_ofNat n) hn1
    ((le_mul_of_one_le_right (by positivity) hp1).trans hproduct)
  obtain ⟨hpfinite, hpone, hpwithin⟩ := finite_of_rounds (rounds_power hk) hp1
    ((le_mul_of_one_le_left (by positivity) hn1).trans hproduct)
  have hmul := rounds_mul hnfinite hpfinite
  have hbound : value (Float.ofNat n) * value (WrittenNumber.power k) ≤ greatest := by
    have hle := (hnwithin.mul hpwithin (by positivity) (by positivity)).value_le
    rw [Nat.cast_zero, zero_mul, add_zero] at hle
    exact hle.trans h
  obtain ⟨hfinite, -, -⟩ := finite_of_rounds hmul (one_le_mul_of_one_le_of_one_le hnone hpone) hbound
  have hk' : ((k : ℕ) : ℤ) ≤ 308 := by omega
  rw [WrittenNumber.scaleByPower]
  simp only [if_pos hs, if_pos hk', Int.toNat_natCast, isInf_of_isFinite hfinite,
    Bool.false_eq_true, if_false, Option.isSome_some]

theorem scaleByPower_neg {n : ℕ} {s : ℤ} (hs : s < 0) :
    (WrittenNumber.scaleByPower n s).isSome = true := by
  rw [WrittenNumber.scaleByPower]
  simp only [if_neg (not_le.mpr hs), Option.isSome_some]

/-! ## The shortest digits of a double -/

/-- The decimal with the shortest digits of a positive double. -/
def decimal (m : ℕ) (q : ℤ) : ℚ :=
  (shortest .toEven m q).digits * 10 ^ (shortest .toEven m q).exponent

variable {m : ℕ} {q : ℤ}

theorem nearest_decimal (h : Fits m q) : Nearest m q (decimal m q) :=
  (Decimal.shortest_spec .toEven h).2.2

/-- The decimal is as close to its double as one rounding. -/
theorem within_decimal (h : Fits m q) : Within 1 1 (decimal m q) (scaled m q) := by
  obtain ⟨hlow, hhigh⟩ := (nearest_decimal h).bounds
  have hleast := leastDouble_pos
  have hpos := h.value_pos
  have hunit : (0 : ℚ) < 2 ^ (q - 2) := by positivity
  have hdiv : scaled m q / roundingFactor ≤ scaled m q * (1 - 1 / 2 ^ 53) := by
    rw [div_le_iff₀ (zero_lt_one.trans_le one_le_roundingFactor), roundingFactor]
    linarith
  -- half a unit is half a part in `2^52` at most, or half the least double
  have hhalf : 2 * (2 : ℚ) ^ (q - 2) ≤ scaled m q / 2 ^ 53 ∨ 2 * (2 : ℚ) ^ (q - 2) ≤ leastDouble := by
    refine h.full.imp (fun hfull => ?_) fun hsmall => ?_
    · have hcast : (2 : ℚ) ^ 52 ≤ m := by exact_mod_cast hfull
      have hscaled := mul_le_mul_of_nonneg_right hcast hunit.le
      rw [scaled_quarters]
      linarith
    · have hquarters := scaled_quarters 1 q
      rw [Nat.cast_one, Nat.cast_one, hsmall] at hquarters
      rw [leastDouble, hquarters, ← hsmall]
      linarith
  constructor
  · rw [pow_one, Nat.cast_one, one_mul]
    rcases hhalf with hhalf | hhalf <;> linarith
  · rw [pow_one, Nat.cast_one, one_mul, roundingFactor]
    rcases hhalf with hhalf | hhalf <;> linarith

/-- The decimals of all doubles but the five greatest leave room for two roundings. -/
theorem upper_end_le (h : Fits m q) (hroom : q < 971 ∨ m ≤ 2 ^ 53 - 6) :
    (4 * m + 2 : ℚ) * 2 ^ (q - 2) * roundingFactor ^ 2 ≤ greatest := by
  obtain ⟨u, hu⟩ : ∃ u : ℚ, u = 2 ^ (968 : ℤ) := ⟨_, rfl⟩
  have hpos : 0 < u := hu ▸ zpow_pos two_pos _
  have hsteps : ∀ j : ℕ, (2 : ℚ) ^ (968 + (j : ℤ)) = 2 ^ j * u := by
    intro j
    rw [hu, zpow_add₀ two_ne_zero, zpow_natCast, mul_comm]
  have hgreatest : greatest = (2 ^ 53 - 1) * (2 ^ 3 * u) := by
    rw [greatest_eq, ← hsteps 3, ← zpow_natCast]
    rfl
  -- the upper end in the unit `u`
  have hend : (4 * m + 2 : ℚ) * 2 ^ (q - 2) ≤ (4 * (2 ^ 53 - 6) + 2) * (2 * u) := by
    have hcast : ∀ j, m + j ≤ 2 ^ 53 → (m : ℚ) ≤ 2 ^ 53 - j := by
      intro j hj
      have hle : ((m + j : ℕ) : ℚ) ≤ (2 ^ 53 : ℕ) := Nat.cast_le.mpr hj
      push_cast at hle
      linarith
    rcases hroom with hq | hm
    · have hm := hcast 1 h.lt
      have hpow : (2 : ℚ) ^ (q - 2) ≤ u := hu ▸ zpow_le_zpow_right₀ one_le_two (by omega)
      calc (4 * m + 2 : ℚ) * 2 ^ (q - 2) ≤ (4 * (2 ^ 53 - (1 : ℕ)) + 2) * u := by gcongr
        _ ≤ (4 * (2 ^ 53 - 6) + 2) * (2 * u) := by
          rw [← mul_assoc]
          exact mul_le_mul_of_nonneg_right (by norm_num) hpos.le
    · have hm' : (m : ℚ) ≤ 2 ^ 53 - 6 := hcast 6 (by omega)
      have hpow : (2 : ℚ) ^ (q - 2) ≤ 2 * u := by
        have hmost := h.most
        have hle := zpow_le_zpow_right₀ one_le_two (by omega : q - 2 ≤ 968 + (1 : ℕ)) (a := (2 : ℚ))
        rwa [hsteps 1, pow_one] at hle
      gcongr
  rw [hgreatest, roundingFactor]
  calc _ ≤ (4 * (2 ^ 53 - 6) + 2 : ℚ) * (2 * u) * (1 + 1 / 2 ^ 52) ^ 2 :=
        mul_le_mul_of_nonneg_right hend (by positivity)
    _ = (4 * (2 ^ 53 - 6) + 2 : ℚ) * 2 * (1 + 1 / 2 ^ 52) ^ 2 * u := by ring
    _ ≤ (2 ^ 53 - 1) * 2 ^ 3 * u := mul_le_mul_of_nonneg_right (by norm_num) hpos.le
    _ = _ := by ring

/-- The decimals of the five greatest doubles are read. -/
theorem read_greatest : ∀ k ∈ [1, 2, 3, 4, 5],
    (readNumber (document.digitsText (shortest .toEven (2 ^ 53 - k) 971))).toOption.isSome = true := by
  decide +kernel

/-- The numeral of a positive double has a double. -/
theorem magnitude_isSome (h : Fits m q) {t : Numeral}
    (hshows : Shows t (decimal m q))
    (htext : document.digitsText (shortest .toEven m q) = t.chars) :
    t.written.magnitude.isSome = true := by
  have hend : decimal m q ≤ (4 * m + 2) * 2 ^ (q - 2) := by
    have hhigh := (nearest_decimal h).bounds.2
    rw [scaled_quarters] at hhigh
    linarith
  by_cases hroom : q < 971 ∨ m ≤ 2 ^ 53 - 6
  · rw [magnitude_written hshows.fits]
    by_cases hscale : t.scale < 0
    · exact scaleByPower_neg hscale
    · refine scaleByPower_isSome (not_lt.mp hscale) ?_ ?_
      · -- the digits are those of a positive decimal
        refine Nat.pos_of_ne_zero fun hzero => ?_
        have hvalue := hshows.value
        rw [hzero, Nat.cast_zero, zero_mul] at hvalue
        exact ((nearest_decimal h).pos h.pos).ne hvalue
      · rw [hshows.value]
        exact (mul_le_mul_of_nonneg_right hend (by positivity)).trans (upper_end_le h hroom)
  · -- one of the five greatest: its text is read, so it has a double
    obtain ⟨hq, hm⟩ := not_or.mp hroom
    have hq' : q = 971 := le_antisymm h.most (not_lt.mp hq)
    have hlt := h.lt
    obtain ⟨k, hk, rfl⟩ : ∃ k ∈ [1, 2, 3, 4, 5], m = 2 ^ 53 - k := by
      refine ⟨2 ^ 53 - m, ?_, by omega⟩
      simp only [List.mem_cons, List.not_mem_nil, or_false]
      omega
    have hread := read_greatest k hk
    rw [hq'] at htext
    rw [htext, ← List.append_nil t.chars,
      Numeral.readNumber_chars hshows.wellFormed endsNumber_nil] at hread
    by_contra hnone
    rw [toNumber_written hshows.isDouble, Option.not_isSome_iff_eq_none.mp hnone] at hread
    cases hread

/-! ## Reading back -/

/-- A numeral with another sign. -/
def withSign (negative : Bool) (t : Numeral) : Numeral := { t with negative }

theorem Shows.withSign {t : Numeral} {v : ℚ} (h : Shows t v) (negative : Bool) :
    Shows (withSign negative t) v :=
  ⟨⟨h.1.1, h.1.2, h.1.3, h.1.4, h.1.5⟩, h.2, h.3, h.4⟩

theorem chars_withSign {t : Numeral} (h : t.negative = false) (negative : Bool) :
    (withSign negative t).chars = if negative then '-' :: t.chars else t.chars := by
  have hchars : t.chars = t.whole ++ (Numeral.fractionChars t.fraction ++
      Numeral.exponentChars t.exponent) := by
    rw [Numeral.chars, h]
    rfl
  rw [hchars]
  cases negative <;> rfl

/-- The digits of a positive double reach down no further than two tables of powers of ten. -/
theorem scale_of_decimal (h : Fits m q) {t : Numeral} (hshows : Shows t (decimal m q)) :
    -616 ≤ t.scale := by
  by_contra hlt
  have hdigits : (Nat.ofDigitChars 10 t.digits 0 : ℚ) ≤ 2 ^ 64 := by
    exact_mod_cast hshows.fits.le
  have hpower : (10 : ℚ) ^ t.scale ≤ 2 ^ (-1848 : ℤ) := by
    calc (10 : ℚ) ^ t.scale ≤ 10 ^ (-616 : ℤ) := zpow_le_zpow_right₀ (by norm_num) (by omega)
      _ ≤ 8 ^ (-616 : ℤ) := by
        rw [zpow_neg, zpow_neg]
        exact inv_anti₀ (by positivity) (zpow_le_zpow_left₀ (by norm_num) (by norm_num) (by norm_num))
      _ = 2 ^ (-1848 : ℤ) := by
        rw [show (8 : ℚ) = 2 ^ (3 : ℤ) by norm_num, ← zpow_mul]
        norm_num
  have hsmall : decimal m q ≤ 2 ^ 64 * 2 ^ (-1848 : ℤ) := by
    rw [← hshows.value]
    exact mul_le_mul hdigits hpower (by positivity) (by positivity)
  have hleast := ((nearest_decimal h).range h).1
  have hquarter : (2 : ℚ) ^ 64 * 2 ^ (-1848 : ℤ) < leastDouble / 4 := by
    rw [leastDouble_quarter, ← zpow_natCast, ← zpow_add₀ two_ne_zero]
    exact zpow_lt_zpow_right₀ one_lt_two (by norm_num)
  linarith

/-- The text of a double: the numeral without its sign, and the decimal that it shows. -/
structure Prints (x : Float) (negative : Bool) (t : Numeral) (v : ℚ) : Prop where
  print : (Number.double x).print = (withSign negative t).chars
  shows : Shows t v
  hasDouble : t.written.magnitude.isSome = true
  /-- The sign is that of the double, and the decimal is close to it. -/
  sign : value x = if negative then -|value x| else |value x|
  within : Within 1 1 v |value x|
  /-- Rounding the decimal once gives the double back. -/
  rounds : ∀ y, Rounds y v → |value y| = |value x|
  le_top : v ≤ top
  /-- Two tables of powers of ten reach down to the last digit. -/
  scale : -616 ≤ t.scale

theorem print_double (x : Float) : (Number.double x).print = (document.render x).toList := rfl

/-- Zero is written with one digit on each side of the point. -/
theorem prints_zero {x : Float} {s : UnpackedFloat.Sign} (hx : unpacked x = .zero s) :
    Prints x (s == .negative) ⟨false, ['0'], some ['0'], none⟩ 0 := by
  have hunsigned : (⟨false, ['0'], some ['0'], none⟩ : Numeral).negative = false := rfl
  have hdigits : Nat.ofDigitChars 10 ['0'] 0 = 0 := rfl
  have hdigit : ∀ c ∈ ['0'], c.isDigit = true := fun c hc => by
    rw [List.mem_singleton.mp hc]
    rfl
  have hzero : |value x| = 0 := by rw [value_of_zero hx, abs_zero]
  refine ⟨?_, ?_, rfl, ?_, ?_, fun y hy => ?_, top_pos.le, by decide⟩
  · rw [chars_withSign hunsigned, print_double, Decimal.Layout.render, ofFloat_eq, hx,
      String.toList_ofList]
    rfl
  · refine shows_below_one (n := 0) (e := -1) (List.cons_ne_nil _ _) hdigit
      (hdigits.le.trans (Nat.zero_le _)) rfl ?_
    rw [hdigits, Nat.cast_zero, zero_mul]
  · rw [hzero, neg_zero, ite_self, value_of_zero hx]
  · rw [hzero]
    exact .of_eq rfl le_rfl 1 1
  · rw [hzero, hy.eq_of_representable representable_zero, abs_zero]

/-- Any other finite double is written with its shortest digits. -/
theorem exists_prints_finite {x : Float} {s : UnpackedFloat.Sign} {m : ℕ} {q : ℤ} {hm : 0 < m}
    (hx : unpacked x = .finite s m q hm) : ∃ t, Prints x (s == .negative) t (decimal m q) := by
  have hfits : Fits m q := canonical_unpacked x _ _ _ _ hx
  obtain ⟨hpos, hle, -⟩ := Decimal.shortest_spec .toEven hfits
  have hnearest := nearest_decimal hfits
  obtain ⟨t, hunsigned, hshows, htext⟩ := document_shows hpos (hle.trans (by norm_num))
  have hvalue : value x = signed s (scaled m q) := by rw [value, hx, valueOf_finite]
  have habs : |value x| = scaled m q := by rw [hvalue, abs_signed s hfits.value_pos.le]
  refine ⟨t, ?_, hshows, magnitude_isSome hfits hshows htext, ?_, ?_, fun y hy => ?_,
    (hnearest.range hfits).2, scale_of_decimal hfits hshows⟩
  · have htie : document.tie = .toEven := rfl
    rw [chars_withSign hunsigned, print_double, Decimal.Layout.render, ofFloat_eq, hx,
      String.toList_ofList, ← htext]
    simp only [if_neg hm.ne', htie]
  · rw [habs, hvalue]
    cases s <;> rfl
  · rw [habs]
    exact within_decimal hfits
  · rw [habs]
    refine hy.nearest m q hfits ?_
    rw [abs_of_pos (hnearest.pos hm)]
    exact hnearest

theorem exists_prints {x : Float} (hx : x.isFinite = true) : ∃ negative t v, Prints x negative t v := by
  rcases finite_cases hx with ⟨s, hu⟩ | ⟨s, m, q, hm, hu, -, -⟩
  · exact ⟨_, _, _, prints_zero hu⟩
  · obtain ⟨t, ht⟩ := exists_prints_finite hu
    exact ⟨_, _, _, ht⟩

/-- The numeral is read as the double of the decimal, with the sign. -/
theorem Prints.toNumber {x : Float} {negative : Bool} {t : Numeral} {v : ℚ} (h : Prints x negative t v)
    {f : Float} (hf : t.written.magnitude = some f) :
    (withSign negative t).written.toNumber = .ok (.double (if negative then -f else f)) := by
  have hf' : (withSign negative t).written.magnitude = some f := hf
  rw [toNumber_written (h.shows.withSign negative).isDouble, hf']
  rfl

/-- The text of a finite double is a numeral that is read as a double. -/
theorem exists_written {x : Float} (hx : x.isFinite = true) :
    ∃ (t : Numeral) (y : Float), t.WellFormed ∧ (Number.double x).print = t.chars ∧
      t.written.toNumber = .ok (.double y) := by
  obtain ⟨negative, t, v, hprints⟩ := exists_prints hx
  obtain ⟨f, hf⟩ := Option.isSome_iff_exists.mp hprints.hasDouble
  exact ⟨_, _, (hprints.shows.withSign negative).wellFormed, hprints.print, hprints.toNumber hf⟩

end ShiftMesh.Json
