import ShiftMesh.Proofs.Double.Rounding

/-!
# ShiftMesh.Proofs.Double.Arithmetic — each operation rounds the exact result once

* `add_unpacked`, `sub_unpacked`, `mul_unpacked`, `div_unpacked`, `neg_unpacked`: operations are those on
  the unpacked forms.
* `rounds_mul`, `rounds_sub`: products and differences of finite doubles are neighbours of the exact
  ones; `value_neg`: negation is exact.
* `zero_sub_zero`, `zero_sub_finite`, `finite_sub_zero`, `finite_sub_finite`: a difference by the forms of
  its operands.
* `rounds_ofNat`, `rounds_ofScientific`: so are the doubles of counts, also of counts times a power of ten.
* `Rounds.isFinite`: a neighbour of a value below the top is finite; `Rounds.value_ne_zero`: what is not
  zero does not round to zero.
-/

namespace ShiftMesh.Double

open Float.Model (UnpackedFloat Format totalExponent)
open Float.Model.UnpackedFloat (Sign roundWithAccuracy)

variable {x y : Float}

/-! ## Operations on unpacked doubles -/

theorem neg_unpacked (x : Float) : -x = packed (unpacked x).neg := rfl

theorem add_unpacked (x y : Float) :
    x + y = packed (UnpackedFloat.add Format.binary64 (unpacked x) (unpacked y)) := rfl

theorem sub_unpacked (x y : Float) :
    x - y = packed (UnpackedFloat.sub Format.binary64 (unpacked x) (unpacked y)) := rfl

theorem mul_unpacked (x y : Float) :
    x * y = packed (UnpackedFloat.mul Format.binary64 (unpacked x) (unpacked y)) := rfl

theorem div_unpacked (x y : Float) :
    x / y = packed (UnpackedFloat.div Format.binary64 (unpacked x) (unpacked y)) := rfl

/-! ## Finite doubles -/

/-- The unpacked form of a finite double. -/
theorem finite_cases (h : x.isFinite = true) :
    (∃ s, unpacked x = .zero s) ∨
      ∃ s m e hm, unpacked x = .finite s m e hm ∧ Fits m e ∧ value x = signed s (scaled m e) := by
  have hfits := canonical_unpacked x
  have hvalue : value x = valueOf (unpacked x) := rfl
  change (unpacked x).isFinite = true at h
  generalize unpacked x = u at h hfits hvalue
  cases u with
  | notANumber => cases h
  | infinity s => cases h
  | zero s => exact Or.inl ⟨s, rfl⟩
  | finite s m e hm =>
    exact Or.inr ⟨s, m, e, hm, rfl, hfits _ _ _ _ rfl, hvalue.trans (valueOf_finite hm)⟩

/-- Values of one size have one significand and one exponent. -/
theorem Fits.eq_of_scaled_eq {m m' : ℕ} {e e' : ℤ} (h : Fits m e) (h' : Fits m' e')
    (heq : scaled m e = scaled m' e') : m = m' ∧ e = e' := by
  rcases lt_trichotomy e e' with he | rfl | he
  · exact absurd heq (h.scaled_lt h' he).ne
  · exact ⟨by exact_mod_cast le_antisymm (scaled_le_scaled.mp heq.le) (scaled_le_scaled.mp heq.ge), rfl⟩
  · exact absurd heq (h'.scaled_lt h he).ne'

/-- A number with a positive value that fits stands for its significand and exponent. -/
theorem unpacked_of_value {m : ℕ} {e : ℤ} (h : Fits m e) (hnumber : x.isNaN = false)
    (hvalue : value x = scaled m e) : unpacked x = .finite .positive m e h.pos := by
  have hpos := h.value_pos
  have htop := h.scaled_lt_top
  have hfits := canonical_unpacked x
  rw [isNaN_eq] at hnumber
  rw [value] at hvalue
  generalize unpacked x = u at hnumber hvalue hfits ⊢
  cases u with
  | notANumber => cases hnumber
  | infinity s =>
    rw [valueOf_infinity] at hvalue
    cases s <;> simp only [signed] at hvalue <;> linarith
  | zero s => exact absurd hvalue hpos.ne
  | finite s n c hn =>
    have hfits' := hfits _ _ _ _ rfl
    have hpos' := hfits'.value_pos
    rw [valueOf_finite] at hvalue
    cases s with
    | negative =>
      simp only [signed] at hvalue
      linarith
    | positive =>
      obtain ⟨rfl, rfl⟩ := hfits'.eq_of_scaled_eq h hvalue
      rfl

theorem value_of_zero {s : Sign} (h : unpacked x = .zero s) : value x = 0 := by
  rw [value, h]
  rfl

theorem zero_number : (0.0 : Float).isNaN = false ∧ value 0.0 = 0 :=
  ⟨by decide +kernel, value_of_zero (s := .positive) rfl⟩

theorem unpacked_packed_zero (s : Sign) : unpacked (packed (.zero s)) = .zero s :=
  unpack_pack_zero s

theorem unpacked_packed_finite {s : Sign} {m : ℕ} {e : ℤ} (hm : 0 < m) (h : Fits m e) :
    unpacked (packed (.finite s m e hm)) = .finite s m e hm :=
  unpack_pack_finite hm h

/-- The size of a finite double is zero or fits. -/
theorem abs_value_cases (h : x.isFinite = true) :
    |value x| = 0 ∨ ∃ m q, Fits m q ∧ |value x| = scaled m q := by
  rcases finite_cases h with ⟨s, hu⟩ | ⟨s, m, q, hm, -, hfits, hvalue⟩
  · left
    rw [value_of_zero hu, abs_zero]
  · right
    exact ⟨m, q, hfits, by rw [hvalue, abs_signed s hfits.value_pos.le]⟩

/-- A value that fits is nearest to itself. -/
theorem Fits.eq_of_nearest {m n : ℕ} {q e : ℤ} (h : Fits m q) (h' : Fits n e)
    (hnear : Nearest m q (scaled n e)) : scaled n e = scaled m q := by
  have htarget : target n e = e + (0 : ℕ) := by
    have hlog : n.log2 < 53 := (Nat.log2_lt h'.pos.ne').mpr h'.lt
    have hlog' : 52 ≤ n.log2 ∨ e = -1074 := h'.full.imp_left (Nat.le_log2 h'.pos.ne').mpr
    have hleast := h'.least
    unfold target
    omega
  have hrounded := scaled_rounded_of_nearest h'.pos htarget h hnear
  rwa [rounded_zero, Nat.cast_zero, add_zero] at hrounded

/-- A number is a neighbour of its own value, if the size of that is zero or fits. -/
theorem Rounds.of_eq {v : ℚ} (hnumber : x.isNaN = false) (h : value x = v)
    (hsize : |v| = 0 ∨ ∃ m q, Fits m q ∧ |v| = scaled m q) : Rounds x v := by
  refine ⟨hnumber, fun _ _ hle => h ▸ hle, fun _ _ hle => h ▸ hle, fun m q hfits hnear => ?_⟩
  rw [h]
  rcases hsize with hzero | ⟨n, e, hfits', hvalue⟩
  · exact absurd hzero (hnear.pos hfits.pos).ne'
  · rw [hvalue] at hnear ⊢
    exact hfits.eq_of_nearest hfits' hnear

theorem rounds_zero (s : Sign) : Rounds (packed (.zero s)) 0 :=
  .of_eq (by rw [isNaN_eq, unpacked_packed_zero]; rfl) (value_of_zero (unpacked_packed_zero s))
    (Or.inl abs_zero)

/-! ## Products -/

theorem signed_mul (s t : Sign) (a b : ℚ) : signed s a * signed t b = signed (s * t) (a * b) := by
  cases s <;> cases t
  · exact neg_mul_neg a b
  · exact neg_mul a b
  · exact mul_neg a b
  · rfl

theorem scaled_mul (m n e c : ℤ) : scaled m e * scaled n c = scaled (m * n) (e + c) := by
  rw [scaled_eq, scaled_eq, scaled_eq, zpow_add₀ two_ne_zero, Int.cast_mul]
  ring

/-- The product of two significands has at least 53 bits, or its exponent is below the least one. -/
theorem Fits.le_target_mul {m n : ℕ} {e c : ℤ} (h : Fits m e) (h' : Fits n c) :
    e + c ≤ target (m * n) (e + c) := by
  have hne : m * n ≠ 0 := (Nat.mul_pos h.pos h'.pos).ne'
  unfold target
  rcases h.full with hm | he
  · have hlog : 52 ≤ (m * n).log2 :=
      (Nat.le_log2 hne).mpr (hm.trans (Nat.le_mul_of_pos_right m h'.pos))
    omega
  · rcases h'.full with hn | hc
    · have hlog : 52 ≤ (m * n).log2 :=
        (Nat.le_log2 hne).mpr (hn.trans (Nat.le_mul_of_pos_left n h.pos))
      omega
    · omega

/-- The product of unpacked doubles, be they packed or not. -/
theorem rounds_mul_finite {s t : Sign} {m n : ℕ} {e c : ℤ} (hm : 0 < m) (hn : 0 < n)
    (h : e + c ≤ target (m * n) (e + c)) :
    Rounds (packed (UnpackedFloat.mul Format.binary64 (.finite s m e hm) (.finite t n c hn)))
      (signed s (scaled m e) * signed t (scaled n c)) := by
  rw [signed_mul, scaled_mul]
  exact_mod_cast rounds_of_round (s := s * t) (Nat.mul_pos hm hn) h

theorem rounds_mul (hx : x.isFinite = true) (hy : y.isFinite = true) :
    Rounds (x * y) (value x * value y) := by
  rw [mul_unpacked]
  rcases finite_cases hx with ⟨s, hu⟩ | ⟨s, m, e, hm, hu, hfits, hvalue⟩
  · rw [value_of_zero hu, zero_mul, hu]
    rcases finite_cases hy with ⟨t, hv⟩ | ⟨t, n, c, hn, hv, -, -⟩
    · rw [hv]; exact rounds_zero (s * t)
    · rw [hv]; exact rounds_zero (s * t)
  · rcases finite_cases hy with ⟨t, hv⟩ | ⟨t, n, c, hn, hv, hfits', hvalue'⟩
    · rw [value_of_zero hv, mul_zero, hu, hv]
      exact rounds_zero (s * t)
    · rw [hvalue, hvalue', hu, hv]
      exact rounds_mul_finite hm hn (hfits.le_target_mul hfits')

/-! ## Differences -/

theorem log2_mul_two_pow {m : ℕ} (hm : 0 < m) (j : ℕ) : (m * 2 ^ j).log2 = m.log2 + j := by
  have hpos : 0 < m * 2 ^ j := by positivity
  obtain ⟨hlow, hhigh⟩ := (Nat.log2_eq_iff hm.ne').mp rfl
  refine (Nat.log2_eq_iff hpos.ne').mpr ⟨?_, ?_⟩
  · rw [pow_add]
    exact Nat.mul_le_mul_right _ hlow
  · rw [show m.log2 + j + 1 = m.log2 + 1 + j by ring, pow_add]
    exact Nat.mul_lt_mul_of_pos_right hhigh (by positivity)

/-- Rounding that may first lower the exponent. -/
theorem rounds_of_lowered {s : Sign} {m : ℕ} (hm : 0 < m) (e : ℤ) :
    Rounds (packed (UnpackedFloat.round Format.binary64 s m e)) (signed s (scaled m e)) := by
  have hround : UnpackedFloat.round Format.binary64 s m e =
      roundWithAccuracy Format.binary64 s (m <<< (e - target m e).toNat)
        (e - (e - target m e).toNat) .exact := by
    rw [UnpackedFloat.round, targetExponent_eq]
    rfl
  rw [hround]
  obtain ⟨j, hj⟩ : ∃ j, (e - target m e).toNat = j := ⟨_, rfl⟩
  rw [hj, Nat.shiftLeft_eq]
  have htarget : target (m * 2 ^ j) (e - j) = target m e := by
    rw [target, target, log2_mul_two_pow hm]
    push_cast
    congr 1
    ring
  have hvalue : scaled m e = scaled (m * 2 ^ j : ℕ) (e - j) := by
    have hshift := scaled_shift m (e - j) j
    rw [sub_add_cancel] at hshift
    rw [hshift]
    push_cast
    rfl
  rw [hvalue]
  exact rounds_of_round (by positivity) (by rw [htarget]; omega)

theorem rounds_normalize (m e : ℤ) (s : Sign) :
    Rounds (packed (UnpackedFloat.normalize Format.binary64 m e s)) (scaled m e) := by
  unfold UnpackedFloat.normalize
  rcases lt_trichotomy m 0 with hm | hm | hm
  · rw [compare_lt_iff_lt.mpr hm]
    have hpos : 0 < (-m).toNat := by omega
    have hrounds := rounds_of_lowered (s := .negative) hpos e
    have hcast : ((-m).toNat : ℤ) = -m := by omega
    rw [hcast] at hrounds
    change Rounds _ (-scaled (-m) e) at hrounds
    rwa [scaled_neg, neg_neg] at hrounds
  · subst hm
    rw [compare_eq_iff_eq.mpr rfl]
    have hzero : scaled 0 e = 0 := by rw [scaled_eq]; simp
    rw [hzero]
    exact rounds_zero s
  · rw [compare_gt_iff_gt.mpr hm]
    have hpos : 0 < m.toNat := by omega
    have hrounds := rounds_of_lowered (s := .positive) hpos e
    have hcast : (m.toNat : ℤ) = m := by omega
    rwa [hcast] at hrounds

/-- A signed value at a lower exponent. -/
theorem signed_scaled (s : Sign) (m : ℕ) {e t : ℤ} (h : t ≤ e) :
    signed s (scaled m e) = scaled (s.apply (m <<< (e - t).toNat : ℕ)) t := by
  obtain ⟨j, rfl⟩ : ∃ j : ℕ, e = t + j := ⟨(e - t).toNat, by omega⟩
  rw [add_sub_cancel_left, Int.toNat_natCast, Nat.shiftLeft_eq, scaled_shift]
  push_cast
  cases s
  · exact (scaled_neg _ _).symm
  · rfl

theorem scaled_sub (m n e : ℤ) : scaled m e - scaled n e = scaled (m - n) e := by
  rw [scaled_eq, scaled_eq, scaled_eq, Int.cast_sub]
  ring

theorem isNaN_of_isFinite (h : x.isFinite = true) : x.isNaN = false := (isFinite_iff.mp h).1

/-- A double is packed from its unpacked form. -/
theorem value_packed_unpacked (h : x.isFinite = true) :
    (packed (unpacked x)).isNaN = false ∧ value (packed (unpacked x)) = value x := by
  rcases finite_cases h with ⟨s, hu⟩ | ⟨s, m, e, hm, hu, hfits, hvalue⟩
  · rw [hu, isNaN_eq, unpacked_packed_zero, value_of_zero hu,
      value_of_zero (unpacked_packed_zero s)]
    exact ⟨rfl, rfl⟩
  · rw [hu, isNaN_eq, value, unpacked_packed_finite hm hfits, valueOf_finite, hvalue]
    exact ⟨rfl, rfl⟩

theorem signed_neg (s : Sign) (a : ℚ) : signed (-s) a = -signed s a := by
  cases s
  · exact (neg_neg a).symm
  · rfl

/-- Negation changes the sign of the value. -/
theorem value_neg (h : x.isNaN = false) : (-x).isNaN = false ∧ value (-x) = -value x := by
  have hfits := canonical_unpacked x
  have hvalue : value x = valueOf (unpacked x) := rfl
  rw [isNaN_eq] at h
  rw [neg_unpacked, hvalue, isNaN_eq, value]
  generalize unpacked x = u at h hfits ⊢
  cases u with
  | notANumber => cases h
  | infinity s =>
    change (unpacked (packed (.infinity (-s)))).isNaN = false ∧
      valueOf (unpacked (packed (.infinity (-s)))) = _
    rw [unpacked_packed, unpack_pack_infinity, valueOf_infinity, valueOf_infinity, signed_neg]
    exact ⟨rfl, rfl⟩
  | zero s =>
    change (unpacked (packed (.zero (-s)))).isNaN = false ∧
      valueOf (unpacked (packed (.zero (-s)))) = -0
    rw [unpacked_packed_zero, neg_zero]
    exact ⟨rfl, rfl⟩
  | finite s m e hm =>
    change (unpacked (packed (.finite (-s) m e hm))).isNaN = false ∧
      valueOf (unpacked (packed (.finite (-s) m e hm))) = _
    rw [unpacked_packed_finite hm (hfits _ _ _ _ rfl), valueOf_finite, valueOf_finite, signed_neg]
    exact ⟨rfl, rfl⟩

theorem zero_sub_zero {s t : Sign} (hx : unpacked x = .zero s) (hy : unpacked y = .zero t) :
    ∃ r, x - y = packed (.zero r) := by
  rw [sub_unpacked, hx, hy]
  cases s <;> cases t <;> exact ⟨_, rfl⟩

/-- Zero less a double is the negation of the double. -/
theorem zero_sub_finite {s t : Sign} {n : ℕ} {c : ℤ} {hn : 0 < n} (hx : unpacked x = .zero s)
    (hy : unpacked y = .finite t n c hn) : x - y = -y := by
  rw [sub_unpacked, neg_unpacked, hx, hy]
  rfl

/-- A double less zero is packed as it was. -/
theorem finite_sub_zero {s t : Sign} {m : ℕ} {e : ℤ} {hm : 0 < m} (hx : unpacked x = .finite s m e hm)
    (hy : unpacked y = .zero t) : x - y = packed (unpacked x) := by
  rw [sub_unpacked, hx, hy]
  rfl

/-- Significands are subtracted at the lower exponent. -/
theorem finite_sub_finite {s t : Sign} {m n : ℕ} {e c : ℤ} {hm : 0 < m} {hn : 0 < n}
    (hx : unpacked x = .finite s m e hm) (hy : unpacked y = .finite t n c hn) :
    ∃ k : ℤ, x - y = packed (UnpackedFloat.normalize Format.binary64 k (min e c) .positive) ∧
      signed s (scaled m e) - signed t (scaled n c) = scaled k (min e c) := by
  refine ⟨_, by rw [sub_unpacked, hx, hy]; rfl, ?_⟩
  rw [signed_scaled s m (min_le_left e c), signed_scaled t n (min_le_right e c), scaled_sub]

theorem rounds_sub (hx : x.isFinite = true) (hy : y.isFinite = true) :
    Rounds (x - y) (value x - value y) := by
  rcases finite_cases hx with ⟨s, hu⟩ | ⟨s, m, e, hm, hu, -, hvalue⟩
  · rcases finite_cases hy with ⟨t, hv⟩ | ⟨t, n, c, hn, hv, -, -⟩
    · obtain ⟨r, hr⟩ := zero_sub_zero hu hv
      rw [hr, value_of_zero hu, value_of_zero hv, sub_zero]
      exact rounds_zero r
    · rw [zero_sub_finite hu hv, value_of_zero hu, zero_sub]
      exact .of_eq (value_neg (isNaN_of_isFinite hy)).1 (value_neg (isNaN_of_isFinite hy)).2
        (by rw [abs_neg]; exact abs_value_cases hy)
  · rcases finite_cases hy with ⟨t, hv⟩ | ⟨t, n, c, hn, hv, -, hvalue'⟩
    · rw [finite_sub_zero hu hv, value_of_zero hv, sub_zero]
      exact .of_eq (value_packed_unpacked hx).1 (value_packed_unpacked hx).2 (abs_value_cases hx)
    · obtain ⟨k, hsub, hexact⟩ := finite_sub_finite hu hv
      rw [hsub, hvalue, hvalue', hexact]
      exact rounds_normalize _ _ _

/-! ## Counts and powers of ten -/

/-- Whether a double is equal to a positive count. -/
def isCount (x : Float) (n : ℕ) : Bool :=
  match unpacked x with
  | .finite .positive m e _ => m * 2 ^ (e + 1074).toNat == n * 2 ^ 1074
  | _ => false

theorem value_of_isCount {n : ℕ} (h : isCount x n = true) : x.isFinite = true ∧ value x = n := by
  have hfits := canonical_unpacked x
  have hvalue : value x = valueOf (unpacked x) := rfl
  change (unpacked x).isFinite = true ∧ _
  unfold isCount at h
  generalize unpacked x = u at h hfits hvalue ⊢
  cases u with
  | notANumber => cases h
  | infinity s => cases h
  | zero s => cases h
  | finite s m e hm =>
    cases s with
    | negative => cases h
    | positive =>
      obtain ⟨j, hj⟩ : ∃ j : ℕ, e = -1074 + j :=
        ⟨(e + 1074).toNat, by have := (hfits _ _ _ _ rfl).least; omega⟩
      have hunits : m * 2 ^ j = n * 2 ^ 1074 := by
        have hexp : (e + 1074).toNat = j := by omega
        simp only [hexp] at h
        exact eq_of_beq h
      have hcast : (m : ℚ) * 2 ^ j = n * 2 ^ 1074 := by
        have := congrArg (fun a : ℕ => (a : ℚ)) hunits
        simpa only [Nat.cast_mul, Nat.cast_pow, Nat.cast_ofNat] using this
      refine ⟨rfl, hvalue.trans ?_⟩
      change scaled m e = n
      have hunit : (2 : ℚ) ^ 1074 * 2 ^ (-1074 : ℤ) = 1 :=
        mul_inv_cancel₀ (pow_ne_zero 1074 two_ne_zero)
      rw [hj, scaled_shift, scaled_eq, Int.cast_mul, Int.cast_pow, Int.cast_natCast, Int.cast_ofNat,
        hcast, mul_assoc, hunit, mul_one]

/-- What a double with a significand and an exponent stands for. -/
theorem value_of_ofFloat {x : Float} {m : ℕ} {e : ℤ} (hm : 0 < m)
    (h : Decimal.Binary.ofFloat x = .finite false m e) : x.isFinite = true ∧ value x = scaled m e := by
  rw [ofFloat_eq] at h
  have hvalue : value x = valueOf (unpacked x) := rfl
  change (unpacked x).isFinite = true ∧ value x = _
  generalize unpacked x = u at h hvalue ⊢
  cases u with
  | notANumber => cases h
  | infinity s => cases h
  | zero s =>
    injection h with _ hzero
    omega
  | finite s n c hn =>
    injection h with hsign hm' he
    subst hm' he
    cases s with
    | negative => cases hsign
    | positive => exact ⟨rfl, hvalue⟩

/-- The table of powers of ten holds powers of ten. -/
theorem isCount_tenPower :
    ∀ k : Fin 23, isCount Float.exactlyRepresentablePowersOfTen[k] (10 ^ k.val) = true := by
  decide +kernel

theorem representable_scaled {n c : ℤ} (hn : |n| ≤ 2 ^ 53) (hc : -1074 ≤ c) (hc' : c ≤ 971) :
    Representable (scaled n c) := by
  obtain ⟨j, hj⟩ : ∃ j : ℕ, (971 : ℤ) = c + j := ⟨(971 - c).toNat, by omega⟩
  have htop : top = scaled (2 ^ 53 * 2 ^ j) c := by rw [top_eq_scaled, hj, scaled_shift]
  have hpow : (1 : ℤ) ≤ 2 ^ j := one_le_pow₀ (by norm_num)
  obtain ⟨hlow, hhigh⟩ := abs_le.mp hn
  refine ⟨abs_le.mpr ⟨?_, ?_⟩, n, c, hc, hn, rfl⟩
  · rw [htop, ← scaled_neg, scaled_le_scaled]
    nlinarith
  · rw [htop, scaled_le_scaled]
    nlinarith

/-- What rounds to zero is closer to it than the least positive double. -/
theorem Rounds.value_ne_zero {m e : ℤ} (h : Rounds x (scaled m e)) (hm : m ≠ 0) (he : -1074 ≤ e) :
    value x ≠ 0 := by
  obtain ⟨j, rfl⟩ : ∃ j : ℕ, e = -1074 + j := ⟨(e + 1074).toNat, by omega⟩
  have hleast : Representable (scaled 1 (-1074)) :=
    representable_scaled (by norm_num) (by norm_num) (by norm_num)
  have hpos : 0 < scaled 1 (-1074) := scaled_pos one_pos
  have hpow : (1 : ℤ) ≤ 2 ^ j := one_le_pow₀ (by norm_num)
  rw [scaled_shift] at h
  rcases lt_or_gt_of_ne hm with hneg | hgt
  · refine ((h.value_le _ hleast.neg ?_).trans_lt (neg_neg_of_pos hpos)).ne
    rw [← scaled_neg, scaled_le_scaled]
    nlinarith
  · refine (hpos.trans_le (h.le_value _ hleast ?_)).ne'
    rw [scaled_le_scaled]
    nlinarith

theorem scaled_lt_top {n c : ℤ} (hn : |n| ≤ 2 ^ 53) (hc : c < 971) : scaled n c < top := by
  obtain ⟨j, hj⟩ : ∃ j : ℕ, (971 : ℤ) = c + (j + 1 : ℕ) := ⟨(970 - c).toNat, by omega⟩
  rw [top_eq_scaled, hj, scaled_shift, scaled_lt_scaled]
  have hpow : (2 : ℤ) ^ 1 ≤ 2 ^ (j + 1) := pow_le_pow_right₀ (by norm_num) (by omega)
  have hle := (abs_le.mp hn).2
  linarith

theorem scaled_zero (n : ℤ) : scaled n 0 = n := by
  rw [scaled_eq, zpow_zero, mul_one]

theorem representable_count {n : ℕ} (hn : n ≤ 2 ^ 53) : Representable n := by
  have habs : |(n : ℤ)| ≤ 2 ^ 53 := by
    rw [abs_of_nonneg (by positivity)]
    exact_mod_cast hn
  have := representable_scaled habs (by norm_num) (by norm_num) (c := 0)
  rwa [scaled_zero] at this

theorem Rounds.isFinite {v : ℚ} (h : Rounds x v) {g : ℚ} (hg : Representable g) (hlt : g < top)
    (hv : |v| ≤ g) : x.isFinite = true := by
  obtain ⟨hlow, hhigh⟩ := abs_le.mp hv
  refine isFinite_iff.mpr ⟨h.isNumber, abs_lt.mpr ⟨?_, ?_⟩⟩
  · exact (neg_lt_neg hlt).trans_le (h.le_value _ hg.neg hlow)
  · exact (h.value_le _ hg hhigh).trans_lt hlt

theorem count_lt_top {n : ℕ} (hn : n ≤ 2 ^ 53) : (n : ℚ) < top := by
  have hle : (n : ℚ) ≤ 2 ^ 53 := by exact_mod_cast hn
  exact hle.trans_lt (pow_lt_pow_right₀ one_lt_two (by norm_num))

/-- A count of at most 53 bits is a double. -/
theorem value_toFloat {n : ℕ} (hn : n < 2 ^ 53) :
    n.toUInt64.toFloat.isFinite = true ∧ value n.toUInt64.toFloat = n := by
  have hfloat : n.toUInt64.toFloat = packed (UnpackedFloat.normalize Format.binary64 n 0 .positive) := by
    have hmod : n.toUInt64.toNat = n := Nat.mod_eq_of_lt (hn.trans (by norm_num))
    change packed (UnpackedFloat.normalize Format.binary64 n.toUInt64.toNat 0 .positive) = _
    rw [hmod]
  have hrounds := rounds_normalize n 0 .positive
  rw [scaled_zero, ← hfloat] at hrounds
  have hrep : Representable n := representable_count hn.le
  exact ⟨hrounds.isFinite hrep (count_lt_top hn.le) (by simp),
    hrounds.eq_of_representable hrep⟩

/-- A count times a power of ten, rounded once. -/
theorem rounds_ofScientific (m : ℕ) {k : ℕ} (hk : k ≤ 2 ^ 11) :
    Rounds (Float.ofScientific m false k) (m * 10 ^ k) := by
  unfold Float.ofScientific
  by_cases hfast : m < 2 ^ 53 ∧ k ≤ 22
  · rw [dif_pos hfast]
    obtain ⟨hfinite, hvalue⟩ := value_toFloat hfast.1
    obtain ⟨hfinite', hvalue'⟩ := value_of_isCount (isCount_tenPower ⟨k, by omega⟩)
    have hrounds := rounds_mul hfinite hfinite'
    rw [hvalue, hvalue'] at hrounds
    exact_mod_cast hrounds
  · rw [dif_neg hfast]
    change Rounds (packed (UnpackedFloat.ofScientific Format.binary64 m (Int.ofNat k))) _
    rcases Nat.eq_zero_or_pos m with rfl | hm
    · rw [UnpackedFloat.ofScientific, dif_pos rfl, Nat.cast_zero, zero_mul]
      exact rounds_zero .positive
    · have hhigh : ¬ Int.ofNat k > 2 ^ 11 := by simp only [Int.ofNat_eq_natCast]; omega
      have hlow : ¬ Int.ofNat k < -((2 ^ 11 : ℤ) + m.log2) := by
        simp only [Int.ofNat_eq_natCast]; omega
      have hnonneg : 0 ≤ Int.ofNat k := Int.natCast_nonneg k
      rw [UnpackedFloat.ofScientific, dif_neg hm.ne', if_neg hhigh, if_neg hlow,
        if_pos hnonneg]
      have hbits : Format.binary64.mantissaBits = 53 := rfl
      have hten : 0 < 10 ^ k := by positivity
      have hpos : 0 < m <<< Format.binary64.mantissaBits := by
        rw [Nat.shiftLeft_eq]
        positivity
      have hlog : 53 ≤ (m <<< Format.binary64.mantissaBits * 10 ^ k).log2 := by
        refine (Nat.le_log2 (Nat.mul_pos hpos hten).ne').mpr ?_
        rw [Nat.shiftLeft_eq, mul_right_comm, hbits]
        exact Nat.le_mul_of_pos_left _ (Nat.mul_pos hm hten)
      have hvalue : signed .positive (scaled (m <<< Format.binary64.mantissaBits : ℕ)
          (-(Format.binary64.mantissaBits : ℤ))) * signed .positive (scaled (10 ^ k : ℕ) 0) =
            m * 10 ^ k := by
        change scaled _ _ * scaled _ _ = _
        rw [hbits, Nat.shiftLeft_eq, scaled_zero, scaled_eq]
        push_cast
        rw [mul_assoc (m : ℚ)]
        norm_num
      rw [← hvalue]
      refine rounds_mul_finite hpos hten ?_
      unfold target
      omega

theorem rounds_ofNat (n : ℕ) : Rounds (Float.ofNat n) n := by
  have h := rounds_ofScientific n (Nat.zero_le (2 ^ 11))
  rwa [pow_zero, mul_one] at h

end ShiftMesh.Double
