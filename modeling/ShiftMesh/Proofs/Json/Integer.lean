import ShiftMesh.Mesh.Header
import ShiftMesh.Proofs.Double.Arithmetic

/-!
# ShiftMesh.Proofs.Json.Integer — which JSON numbers are integers

* `Number.Equals`: a number written either way and the integer that it is equal to.
* `Number.IsInteger`: the numbers that the header takes for integers.
* `toInt?_eq_some`: the integer of a double by its value; `integer?_eq_some`: hence the integer that the
  header reads from a number.
-/

namespace ShiftMesh

open Float.Model (UnpackedFloat)
open Float.Model.UnpackedFloat (Sign)
open Decimal (Binary)

/-! ## The integer of a double -/

namespace Double

theorem binary_signed (s : Sign) (n : ℕ) : Binary.signed (s == .negative) n = s.apply n := by
  cases s <;> rfl

theorem apply_cast (s : Sign) (n : ℕ) : ((s.apply n : ℤ) : ℚ) = signed s n := by
  cases s
  · exact Int.cast_neg _
  · rfl

/-- A multiple of a negative power of two is an integer if the power divides the significand. -/
theorem scaled_eq_int {s : Sign} {m j : ℕ} {k : ℤ} :
    signed s (scaled m (-(j : ℤ))) = k ↔ 2 ^ j ∣ m ∧ k = s.apply (m / 2 ^ j : ℕ) := by
  have hpow : (2 : ℚ) ^ j ≠ 0 := by positivity
  have hscaled : scaled m (-(j : ℤ)) = m / 2 ^ j := by
    rw [scaled_eq, zpow_neg, zpow_natCast, Int.cast_natCast, div_eq_mul_inv]
  rw [hscaled]
  refine ⟨fun h => ?_, ?_⟩
  · have hmagnitude : (m : ℚ) = k.natAbs * 2 ^ j := by
      have habs := congrArg abs h
      have hnonneg : (0 : ℚ) ≤ m / 2 ^ j := by positivity
      have hsigned : |signed s ((m : ℚ) / 2 ^ j)| = m / 2 ^ j := by
        cases s
        · exact (abs_neg _).trans (abs_of_nonneg hnonneg)
        · exact abs_of_nonneg hnonneg
      rw [hsigned, ← Int.cast_abs, Int.abs_eq_natAbs, Int.cast_natCast, div_eq_iff hpow] at habs
      exact habs
    have hm : m = 2 ^ j * k.natAbs := by
      rw [mul_comm]
      exact_mod_cast hmagnitude
    refine ⟨⟨_, hm⟩, ?_⟩
    have hquotient : (m / 2 ^ j : ℕ) = (m : ℚ) / 2 ^ j := by
      rw [Nat.cast_div ⟨_, hm⟩ (by exact_mod_cast hpow), Nat.cast_pow, Nat.cast_ofNat]
    rw [← hquotient, ← apply_cast] at h
    exact_mod_cast h.symm
  · rintro ⟨hdvd, rfl⟩
    rw [apply_cast, Nat.cast_div hdvd (by exact_mod_cast hpow), Nat.cast_pow, Nat.cast_ofNat]

/-- The integer that is read from a double is the one that it is equal to. -/
theorem toInt?_eq_some {x : Float} {k : ℤ} :
    (Binary.ofFloat x).toInt? = some k ↔ x.isFinite = true ∧ value x = k := by
  have hvalue : value x = valueOf (unpacked x) := rfl
  rw [ofFloat_eq, hvalue]
  change _ ↔ (unpacked x).isFinite = true ∧ _
  generalize unpacked x = u
  cases u with
  | notANumber => exact ⟨nofun, fun h => absurd h.1 Bool.false_ne_true⟩
  | infinity s => exact ⟨nofun, fun h => absurd h.1 Bool.false_ne_true⟩
  | zero s =>
    have hzero : Binary.signed (s == .negative) 0 = 0 := by cases s <;> rfl
    have hread : (Binary.finite (s == .negative) 0 (-1074)).toInt? = some 0 := by
      rw [Binary.toInt?, if_neg (by norm_num), if_pos (Nat.zero_mod _), Nat.zero_div, hzero]
    rw [hread]
    change some 0 = some k ↔ true = true ∧ (0 : ℚ) = k
    rw [Option.some_inj, eq_self_iff_true, true_and, eq_comm (a := (0 : ℚ)), Int.cast_eq_zero, eq_comm]
  | finite s m e hm =>
    change Binary.toInt? (.finite (s == .negative) m e) = some k ↔ true = true ∧ valueOf _ = (k : ℚ)
    rw [valueOf_finite, eq_self_iff_true, true_and, Binary.toInt?]
    by_cases he : 0 ≤ e
    · obtain ⟨j, rfl⟩ := Int.eq_ofNat_of_zero_le he
      have hscaled : scaled m j = (m * 2 ^ j : ℕ) := by
        rw [scaled_eq, zpow_natCast, Int.cast_natCast, Nat.cast_mul, Nat.cast_pow, Nat.cast_ofNat]
      rw [if_pos he, hscaled, ← apply_cast, Int.cast_inj, binary_signed, Option.some_inj,
        Int.toNat_natCast]
      rfl
    · obtain ⟨j, hj⟩ : ∃ j : ℕ, e = -(j : ℤ) := ⟨(-e).toNat, by omega⟩
      subst hj
      rw [if_neg he, scaled_eq_int, neg_neg, Int.toNat_natCast, binary_signed]
      change (if m % 2 ^ j = 0 then some (s.apply (m / 2 ^ j : ℕ)) else none) = some k ↔ _
      split_ifs with hmod
      · rw [Option.some_inj, eq_comm]
        exact ⟨fun h => ⟨Nat.dvd_of_mod_eq_zero hmod, h⟩, fun h => h.2⟩
      · exact ⟨nofun, fun h => absurd (Nat.mod_eq_zero_of_dvd h.1) hmod⟩

/-- A whole number beyond 63 bits rounds to no smaller double. -/
theorem two_pow_le_ofInt {n : ℤ} (h : 2 ^ 63 ≤ |n|) :
    2 ^ 63 ≤ |value (Float.ofInt n)| := by
  have hrep : Representable ((2 ^ 63 : ℕ) : ℚ) := by
    have hsplit : ((2 ^ 63 : ℕ) : ℚ) = scaled 1 63 := by rw [scaled_eq]; norm_num
    rw [hsplit]
    exact representable_scaled (by norm_num) (by norm_num) (by norm_num)
  have hcount : ∀ m : ℕ, 2 ^ 63 ≤ m →
      (Float.ofNat m).isNaN = false ∧ (2 : ℚ) ^ 63 ≤ value (Float.ofNat m) := by
    intro m hm
    have hrounds := rounds_ofNat m
    have hle := hrounds.le_value _ hrep (by exact_mod_cast hm)
    exact ⟨hrounds.isNumber, by exact_mod_cast hle⟩
  cases n with
  | ofNat m =>
    rw [Int.abs_eq_natAbs] at h
    obtain ⟨-, hle⟩ := hcount m (by exact_mod_cast h)
    exact hle.trans (le_abs_self _)
  | negSucc m =>
    rw [Int.abs_eq_natAbs, Int.natAbs_negSucc] at h
    obtain ⟨hnumber, hle⟩ := hcount (m + 1) (by exact_mod_cast h)
    change _ ≤ |value (-Float.ofNat (m + 1))|
    rw [(value_neg hnumber).2, abs_neg]
    exact hle.trans (le_abs_self _)

end Double

/-! ## The integer of a number -/

namespace Json.Number

/-- The number is this integer, as a whole number or as a double of this value. -/
def Equals (n : Number) (k : ℤ) : Prop :=
  match n with
  | whole m => m = k
  | double x => x.isFinite = true ∧ Double.value x = k

/-- The header takes for an integer a whole number of signed 64 bits, and a double without a fraction
whose magnitude has at most 32 bits. -/
def IsInteger (n : Number) : Prop :=
  match n with
  | whole m => -2 ^ 63 ≤ m ∧ m < 2 ^ 63
  | double x => x.isFinite = true ∧ (Double.value x).den = 1 ∧ |Double.value x| < 2 ^ 32

instance (n : Number) : Decidable n.IsInteger :=
  match n with
  | whole m => inferInstanceAs (Decidable (-2 ^ 63 ≤ m ∧ m < 2 ^ 63))
  | double x => inferInstanceAs
      (Decidable (x.isFinite = true ∧ (Double.value x).den = 1 ∧ |Double.value x| < 2 ^ 32))

variable {n : Number} {k : ℤ}

/-- A number is equal to one integer at most. -/
theorem Equals.unique {k' : ℤ} (h : n.Equals k) (h' : n.Equals k') : k = k' := by
  cases n with
  | whole m => exact h.symm.trans h'
  | double x => exact Int.cast_injective (h.2.symm.trans h'.2)

theorem Equals.isInteger (h : n.Equals k) (hk : |k| < 2 ^ 32) : n.IsInteger := by
  cases n with
  | whole m =>
    cases h
    obtain ⟨hlow, hhigh⟩ := abs_lt.mp hk
    exact ⟨by omega, by omega⟩
  | double x =>
    obtain ⟨hfinite, hvalue⟩ := h
    refine ⟨hfinite, by rw [hvalue]; exact Rat.den_intCast k, ?_⟩
    rw [hvalue, ← Int.cast_abs]
    exact_mod_cast hk

theorem IsInteger.exists_equals (h : n.IsInteger) : ∃ k, n.Equals k := by
  cases n with
  | whole m => exact ⟨m, rfl⟩
  | double x => exact ⟨_, h.1, (Rat.coe_int_num_of_den_eq_one h.2.1).symm⟩

/-- The header reads from a number that it takes for an integer the one that it is equal to. -/
theorem integer?_eq_some : Header.integer? n = some k ↔ n.IsInteger ∧ n.Equals k := by
  cases n with
  | whole m =>
    unfold Header.integer? toInt?
    by_cases hrange : -(Nat.pow 2 63 : ℕ) ≤ m ∧ m < (Nat.pow 2 63 : ℕ)
    · have hinteger : (whole m).IsInteger := hrange
      simp only [if_pos hrange, Option.some_inj]
      exact ⟨fun h => ⟨hinteger, h⟩, fun h => h.2⟩
    · have hinteger : ¬ (whole m).IsInteger := hrange
      simp only [if_neg hrange]
      refine ⟨fun h => ?_, fun h => absurd h.1 hinteger⟩
      -- the double of a whole number out of range is out of range too
      obtain ⟨hread, hsmall⟩ := Option.filter_eq_some_iff.mp h
      obtain ⟨-, hvalue⟩ := Double.toInt?_eq_some.mp hread
      have hlarge : (2 : ℤ) ^ 63 ≤ |m| := by
        have hcast : ((Nat.pow 2 63 : ℕ) : ℤ) = 2 ^ 63 := rfl
        rw [hcast] at hrange
        rw [le_abs]
        omega
      have hle := Double.two_pow_le_ofInt hlarge
      change Double.value (Float.ofInt m) = k at hvalue
      rw [hvalue, ← Int.cast_abs] at hle
      have hle' : (2 : ℤ) ^ 63 ≤ |k| := by exact_mod_cast hle
      have hlt : k.natAbs < 2 ^ 32 := of_decide_eq_true hsmall
      rw [Int.abs_eq_natAbs] at hle'
      omega
  | double x =>
    unfold Header.integer? toInt?
    change (Binary.toInt? (Binary.ofFloat x)).filter _ = some k ↔ _
    rw [Option.filter_eq_some_iff, Double.toInt?_eq_some, decide_eq_true_eq]
    refine ⟨fun ⟨hequals, hsmall⟩ => ⟨Equals.isInteger hequals ?_, hequals⟩, fun ⟨hinteger, hequals⟩ =>
      ⟨hequals, ?_⟩⟩
    · rw [Int.abs_eq_natAbs]
      exact_mod_cast hsmall
    · have hlt := hinteger.2.2
      rw [hequals.2, ← Int.cast_abs, Int.abs_eq_natAbs] at hlt
      exact_mod_cast hlt

theorem integer?_eq_none : Header.integer? n = none ↔ ¬ n.IsInteger := by
  rw [Option.eq_none_iff_forall_ne_some]
  refine ⟨fun hnone hinteger => ?_, fun hnot k hk => hnot (integer?_eq_some.mp hk).1⟩
  obtain ⟨k, hequals⟩ := hinteger.exists_equals
  exact hnone k (integer?_eq_some.mpr ⟨hinteger, hequals⟩)

end Json.Number

end ShiftMesh
