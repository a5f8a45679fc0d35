import ShiftMesh.Proofs.Double.Fields

/-!
# ShiftMesh.Proofs.Double.Order — the rational value of a double, and comparisons

* `value`: the value of a double.  An infinity counts as the power of two beyond all doubles, so that
  the order of the values is that of the doubles.
* `lt_iff`, `le_iff`, `beq_iff`: comparisons of doubles that are numbers compare their values.
-/

namespace ShiftMesh.Double

open Float.Model (UnpackedFloat Format)
open Float.Model.UnpackedFloat (Sign)

/-! ## Values -/

/-- The first power of two beyond all doubles. -/
def top : ℚ := ((2 : ℕ) : ℚ) ^ 1024

/-- The value `m · 2^e`. -/
def scaled (m : ℤ) (e : ℤ) : ℚ := m * ((2 : ℕ) : ℚ) ^ e

/-- The value of an unpacked double. -/
def valueOf : UnpackedFloat → ℚ
  | .infinity .positive => top
  | .infinity .negative => -top
  | .notANumber => 0
  | .zero _ => 0
  | .finite s m e _ => scaled (s.apply m) e

/-- The value of a double. -/
def value (x : Float) : ℚ := valueOf (unpacked x)

theorem scaled_eq (m e : ℤ) : scaled m e = m * 2 ^ e := rfl

theorem top_eq : top = 2 ^ 1024 := rfl

theorem top_eq_scaled : top = scaled (2 ^ 53) 971 := by
  have hsplit : (1024 : ℕ) = 53 + 971 := rfl
  rw [top_eq, scaled_eq, hsplit, pow_add, Int.cast_pow, Int.cast_ofNat]
  rfl

theorem top_pos : 0 < top := by
  rw [top_eq]; positivity

theorem scaled_neg (m e : ℤ) : scaled (-m) e = -scaled m e := by
  rw [scaled_eq, scaled_eq, Int.cast_neg, neg_mul]

theorem scaled_pos {m e : ℤ} (hm : 0 < m) : 0 < scaled m e := by
  have : (0 : ℚ) < m := Int.cast_pos.mpr hm
  rw [scaled_eq]; positivity

theorem scaled_le_scaled {m m' e : ℤ} : scaled m e ≤ scaled m' e ↔ m ≤ m' := by
  rw [scaled_eq, scaled_eq, mul_le_mul_iff_left₀ (by positivity), Int.cast_le]

theorem scaled_lt_scaled {m m' e : ℤ} : scaled m e < scaled m' e ↔ m < m' := by
  rw [scaled_eq, scaled_eq, mul_lt_mul_iff_left₀ (by positivity), Int.cast_lt]

/-- A greater exponent outweighs the significand. -/
theorem scaled_shift (m e : ℤ) (k : ℕ) : scaled m (e + k) = scaled (m * 2 ^ k) e := by
  rw [scaled_eq, scaled_eq, zpow_add₀ two_ne_zero, zpow_natCast]
  push_cast
  ring

/-- A unit in half units. -/
theorem scaled_double (m e : ℤ) : scaled m e = scaled (2 * m) (e - 1) := by
  have h := scaled_shift m (e - 1) 1
  rwa [Nat.cast_one, sub_add_cancel, pow_one, mul_comm] at h

/-- Half units, and units, in quarters of a unit. -/
theorem scaled_half (c q : ℤ) : scaled c (q - 1) = 2 * c * 2 ^ (q - 2) := by
  rw [scaled_double c (q - 1), scaled_eq]
  push_cast
  ring_nf

theorem scaled_quarters (m : ℕ) (q : ℤ) : scaled m q = 4 * m * 2 ^ (q - 2) := by
  rw [scaled_double m q, scaled_half]
  push_cast
  ring

/-- A power of two in the unit above. -/
theorem scaled_two_pow (n : ℕ) (c : ℤ) : scaled (2 ^ (n + 1)) c = scaled (2 ^ n) (c + 1) := by
  have h := scaled_shift (2 ^ n) c 1
  rw [Nat.cast_one, ← pow_add] at h
  exact h.symm

theorem scaled_mono {c a b : ℤ} (hc : 0 ≤ c) (h : a ≤ b) : scaled c a ≤ scaled c b := by
  have hcast : (0 : ℚ) ≤ c := by exact_mod_cast hc
  rw [scaled_eq, scaled_eq]
  exact mul_le_mul_of_nonneg_left (zpow_le_zpow_right₀ one_le_two h) hcast

namespace Fits

variable {m m' : ℕ} {e e' : ℤ}

theorem value_pos (h : Fits m e) : 0 < scaled m e := scaled_pos (by exact_mod_cast h.pos)

/-- Of two exponents the greater one decides. -/
theorem scaled_lt (h : Fits m e) (h' : Fits m' e') (he : e < e') : scaled m e < scaled m' e' := by
  have hfull : 2 ^ 52 ≤ m' := h'.full.resolve_right (by have := h.least; omega)
  obtain ⟨k, hk⟩ : ∃ k : ℕ, e' = e + (k + 1 : ℕ) := ⟨(e' - e - 1).toNat, by omega⟩
  have hlt : m < m' * 2 ^ (k + 1) := by
    calc m < 2 ^ 52 * 2 ^ 1 := h.lt
      _ ≤ m' * 2 ^ (k + 1) := Nat.mul_le_mul hfull (Nat.pow_le_pow_right two_pos (by omega))
  rw [hk, scaled_shift, scaled_lt_scaled]
  exact_mod_cast hlt

theorem scaled_lt_top (h : Fits m e) : scaled m e < top := by
  obtain ⟨k, hk⟩ : ∃ k : ℕ, (971 : ℤ) = e + k := ⟨(971 - e).toNat, by have := h.most; omega⟩
  have hlt : m < 2 ^ 53 * 2 ^ k := h.lt.trans_le (Nat.le_mul_of_pos_right _ (by positivity))
  rw [top_eq_scaled, hk, scaled_shift, scaled_lt_scaled]
  exact_mod_cast hlt

/-- A negative double lies strictly between the bottom and zero. -/
theorem scaled_neg_neg (h : Fits m e) : scaled (-m) e < 0 := by
  rw [scaled_neg]
  exact neg_lt_zero.mpr h.value_pos

theorem neg_top_lt_scaled_neg (h : Fits m e) : -top < scaled (-m) e := by
  rw [scaled_neg]
  exact neg_lt_neg h.scaled_lt_top

/-- The order of exponents first and significands second is the order of the values. -/
theorem compare_eq (h : Fits m e) (h' : Fits m' e') :
    (compare e e').then (compare m m') = compare (scaled m e) (scaled m' e') := by
  rcases lt_trichotomy e e' with he | he | he
  · rw [compare_lt_iff_lt.mpr he, compare_lt_iff_lt.mpr (h.scaled_lt h' he)]
    rfl
  · subst he
    rw [compare_eq_iff_eq.mpr (rfl : e = e)]
    change compare m m' = _
    rcases lt_trichotomy m m' with hm | hm | hm
    · rw [compare_lt_iff_lt.mpr hm,
        compare_lt_iff_lt.mpr (scaled_lt_scaled.mpr (by exact_mod_cast hm))]
    · rw [hm, compare_eq_iff_eq.mpr rfl, compare_eq_iff_eq.mpr rfl]
    · rw [compare_gt_iff_gt.mpr hm,
        compare_gt_iff_gt.mpr (scaled_lt_scaled.mpr (by exact_mod_cast hm))]
  · rw [compare_gt_iff_gt.mpr he, compare_gt_iff_gt.mpr (h'.scaled_lt h he)]
    rfl

end Fits

/-! ## Comparisons -/

/-- The significand and the exponent fit, if there are such. -/
def Canonical (u : UnpackedFloat) : Prop := ∀ s m e hm, u = .finite s m e hm → Fits m e

theorem canonical_unpacked (x : Float) : Canonical (unpacked x) := fun _ _ _ _ h => fits_of_unpack h

theorem swap_compare (a b : ℚ) : (compare a b).swap = compare (-a) (-b) := by
  rcases lt_trichotomy a b with h | h | h
  · rw [compare_lt_iff_lt.mpr h, compare_gt_iff_gt.mpr (neg_lt_neg h)]
    rfl
  · rw [h, compare_eq_iff_eq.mpr rfl, compare_eq_iff_eq.mpr rfl]
    rfl
  · rw [compare_gt_iff_gt.mpr h, compare_lt_iff_lt.mpr (neg_lt_neg h)]
    rfl

/-! The table of comparisons, one lemma for each kind of double on the left. -/

theorem some_lt_eq {a b : ℚ} (h : a < b) : some Ordering.lt = some (compare a b) :=
  congrArg some (compare_lt_iff_lt.mpr h).symm

theorem some_gt_eq {a b : ℚ} (h : b < a) : some Ordering.gt = some (compare a b) :=
  congrArg some (compare_gt_iff_gt.mpr h).symm

theorem some_eq_eq (a : ℚ) : some Ordering.eq = some (compare a a) :=
  congrArg some (compare_eq_iff_eq.mpr (rfl : a = a)).symm

theorem neg_top_lt_zero : -top < 0 := neg_lt_zero.mpr top_pos

section Table

variable {v : UnpackedFloat} (hv : Canonical v) (hvn : v.isNaN = false)

include hv hvn

theorem compare_infinity (s : Sign) : (UnpackedFloat.infinity s).compare v =
    some (compare (valueOf (.infinity s)) (valueOf v)) := by
  cases v with
  | notANumber => cases hvn
  | infinity s' =>
    have hlt : -top < top := neg_top_lt_zero.trans top_pos
    cases s <;> cases s'
    · exact some_eq_eq _
    · exact some_lt_eq hlt
    · exact some_gt_eq hlt
    · exact some_eq_eq _
  | zero s' =>
    cases s
    · exact some_lt_eq neg_top_lt_zero
    · exact some_gt_eq top_pos
  | finite s' m' e' hm' =>
    have hfits := hv _ _ _ _ rfl
    cases s <;> cases s'
    · exact some_lt_eq hfits.neg_top_lt_scaled_neg
    · exact some_lt_eq (neg_top_lt_zero.trans hfits.value_pos)
    · exact some_gt_eq (hfits.scaled_neg_neg.trans top_pos)
    · exact some_gt_eq hfits.scaled_lt_top

theorem compare_zero (s : Sign) : (UnpackedFloat.zero s).compare v =
    some (compare (valueOf (.zero s)) (valueOf v)) := by
  cases v with
  | notANumber => cases hvn
  | infinity s' =>
    cases s'
    · exact some_gt_eq neg_top_lt_zero
    · exact some_lt_eq top_pos
  | zero s' => exact some_eq_eq _
  | finite s' m' e' hm' =>
    have hfits := hv _ _ _ _ rfl
    cases s'
    · exact some_gt_eq hfits.scaled_neg_neg
    · exact some_lt_eq hfits.value_pos

theorem compare_finite (s : Sign) {m : ℕ} {e : ℤ} (hm : 0 < m) (hfits : Fits m e) :
    (UnpackedFloat.finite s m e hm).compare v =
      some (compare (valueOf (.finite s m e hm)) (valueOf v)) := by
  cases v with
  | notANumber => cases hvn
  | infinity s' =>
    cases s <;> cases s'
    · exact some_gt_eq hfits.neg_top_lt_scaled_neg
    · exact some_lt_eq (hfits.scaled_neg_neg.trans top_pos)
    · exact some_gt_eq (neg_top_lt_zero.trans hfits.value_pos)
    · exact some_lt_eq hfits.scaled_lt_top
  | zero s' =>
    cases s
    · exact some_lt_eq hfits.scaled_neg_neg
    · exact some_gt_eq hfits.value_pos
  | finite s' m' e' hm' =>
    have hfits' := hv _ _ _ _ rfl
    have hcompare := hfits.compare_eq hfits'
    cases s <;> cases s'
    · change some ((compare e e').then (compare m m')).swap =
        some (compare (scaled (-m) e) (scaled (-m') e'))
      rw [hcompare, scaled_neg, scaled_neg, swap_compare]
    · exact some_lt_eq (hfits.scaled_neg_neg.trans hfits'.value_pos)
    · exact some_gt_eq (hfits'.scaled_neg_neg.trans hfits.value_pos)
    · exact congrArg some hcompare

end Table

/-- Unpacked doubles compare as their values. -/
theorem compare_unpacked {u v : UnpackedFloat} (hu : Canonical u) (hv : Canonical v)
    (hun : u.isNaN = false) (hvn : v.isNaN = false) :
    u.compare v = some (compare (valueOf u) (valueOf v)) := by
  cases u with
  | notANumber => cases hun
  | infinity s => exact compare_infinity hv hvn s
  | zero s => exact compare_zero hv hvn s
  | finite s m e hm => exact compare_finite hv hvn s hm (hu _ _ _ _ rfl)

/-! ## Comparisons of doubles -/

variable {x y : Float}

theorem compare_eq (hx : x.isNaN = false) (hy : y.isNaN = false) :
    (unpacked x).compare (unpacked y) = some (compare (value x) (value y)) :=
  compare_unpacked (canonical_unpacked x) (canonical_unpacked y) hx hy

theorem lt_iff_compare (x y : Float) :
    x < y ↔ ((unpacked x).compare (unpacked y) == some Ordering.lt) = true := decide_eq_true_iff

theorem le_iff_compare (x y : Float) :
    x ≤ y ↔ ((unpacked x).compare (unpacked y)).any (·.isLE) = true := decide_eq_true_iff

theorem lt_iff (hx : x.isNaN = false) (hy : y.isNaN = false) : x < y ↔ value x < value y := by
  rw [lt_iff_compare, compare_eq hx hy, ← compare_lt_iff_lt]
  generalize compare (value x) (value y) = o
  cases o <;> decide

theorem le_iff (hx : x.isNaN = false) (hy : y.isNaN = false) : x ≤ y ↔ value x ≤ value y := by
  rw [le_iff_compare, compare_eq hx hy, ← compare_le_iff_le]
  generalize compare (value x) (value y) = o
  cases o <;> decide

theorem beq_iff (hx : x.isNaN = false) (hy : y.isNaN = false) :
    (x == y) = true ↔ value x = value y := by
  have heq : (x == y) = ((unpacked x).compare (unpacked y) == some Ordering.eq) := rfl
  have hiff : compare (value x) (value y) = .eq ↔ value x = value y := compare_eq_iff_eq
  rw [heq, compare_eq hx hy, ← hiff]
  generalize compare (value x) (value y) = o
  cases o <;> decide

theorem compare_of_isNaN (h : x.isNaN = true ∨ y.isNaN = true) :
    (unpacked x).compare (unpacked y) = none := by
  change (unpacked x).isNaN = true ∨ (unpacked y).isNaN = true at h
  generalize unpacked x = u at h ⊢
  generalize unpacked y = v at h ⊢
  rcases h with h | h
  · cases u with
    | notANumber => rfl
    | infinity s => cases h
    | zero s => cases h
    | finite s m e hm => cases h
  · cases v with
    | notANumber => cases u <;> rfl
    | infinity s => cases h
    | zero s => cases h
    | finite s m e hm => cases h

/-- A comparison that holds is one of numbers. -/
theorem isNaN_of_le (h : x ≤ y) : x.isNaN = false ∧ y.isNaN = false := by
  by_contra hn
  have hnan : x.isNaN = true ∨ y.isNaN = true := by
    rwa [not_and_or, Bool.not_eq_false, Bool.not_eq_false] at hn
  rw [le_iff_compare, compare_of_isNaN hnan] at h
  cases h

/-- Among numbers, one that is not at most another lies above it. -/
theorem lt_of_not_le (hx : x.isNaN = false) (hy : y.isNaN = false) (h : ¬ y ≤ x) : x < y := by
  rw [le_iff hy hx, not_le] at h
  exact (lt_iff hx hy).mpr h

theorem le_trans' {z : Float} (hxy : x ≤ y) (hyz : y ≤ z) : x ≤ z := by
  obtain ⟨hx, hy⟩ := isNaN_of_le hxy
  obtain ⟨-, hz⟩ := isNaN_of_le hyz
  exact (le_iff hx hz).mpr (((le_iff hx hy).mp hxy).trans ((le_iff hy hz).mp hyz))

/-! ## Finite doubles -/

/-- The finite doubles are those below the top. -/
theorem isFinite_iff : x.isFinite = true ↔ x.isNaN = false ∧ |value x| < top := by
  have hcanonical := canonical_unpacked x
  have htop := top_pos
  change (unpacked x).isFinite = true ↔ (unpacked x).isNaN = false ∧ |valueOf (unpacked x)| < top
  generalize unpacked x = u at hcanonical ⊢
  cases u with
  | notANumber => simp [UnpackedFloat.isFinite, UnpackedFloat.isNaN]
  | infinity s =>
    cases s <;> simp [UnpackedFloat.isFinite, UnpackedFloat.isNaN, valueOf, abs_of_pos htop]
  | zero s => simp [UnpackedFloat.isFinite, UnpackedFloat.isNaN, valueOf, htop]
  | finite s m e hm =>
    have hfits := hcanonical _ _ _ _ rfl
    have habs : |valueOf (.finite s m e hm)| = scaled m e := by
      cases s
      · change |scaled (-m) e| = _
        rw [scaled_neg, abs_neg, abs_of_pos hfits.value_pos]
      · exact abs_of_pos hfits.value_pos
    rw [habs]
    exact ⟨fun _ => ⟨rfl, hfits.scaled_lt_top⟩, fun _ => rfl⟩

end ShiftMesh.Double
