import Mathlib
import ShiftMesh.Decimal.Binary

/-!
# ShiftMesh.Proofs.Double.Fields — significand and exponent of a double

* `Fits`: the significands and exponents that a double other than zero can have.
* `fits_of_unpack`: every double has such; `unpack_pack_finite` says that all of them are had, and
  `unpack_pack_overflow` what becomes of greater exponents.
* `ofFloat_eq`: `Binary.ofFloat` reads the same significand and exponent off the bits.
-/

namespace ShiftMesh.Double

open Float.Model (UnpackedFloat Format)
open Float.Model.UnpackedFloat (Sign unpackSign unpackExponent unpackMantissa packComponents
  unpackMantissa_packComponents unpackExponent_packComponents)
open Decimal (Binary)

/-- What a double stands for. -/
def unpacked (x : Float) : UnpackedFloat := x.toModel.unpack

/-- A double is what it stands for. -/
theorem eq_of_unpacked {x y : Float} (h : unpacked x = unpacked y) : x = y := by
  obtain ⟨⟨b, hb⟩⟩ := x
  obtain ⟨⟨c, hc⟩⟩ := y
  have hbits : b.toBitVec = c.toBitVec := (UnpackedFloat.unpack_inj_of_valid hb hc).mp h
  obtain rfl := UInt64.toBitVec_inj.mp hbits
  rfl

/-- The significands and exponents of doubles other than zero: 53 bits with a leading one, or fewer
bits at the least exponent. -/
structure Fits (m : ℕ) (e : ℤ) : Prop where
  pos : 0 < m
  lt : m < 2 ^ 53
  least : -1074 ≤ e
  most : e ≤ 971
  full : 2 ^ 52 ≤ m ∨ e = -1074

/-- The sign that a sign bit stands for. -/
def signOf (negative : Bool) : Sign := if negative then .negative else .positive

/-! ## Reading the fields -/

section Reading

variable (b : BitVec 64)

theorem unpackExponent_toNat :
    (@unpackExponent Format.binary64 b).toNat = Binary.exponentField b.toNat := by
  simp [unpackExponent, BitVec.extractLsb, Nat.shiftRight_eq_div_pow, Binary.exponentField]

theorem unpackMantissa_toNat :
    (@unpackMantissa Format.binary64 b).toNat = Binary.fractionField b.toNat := by
  simp [unpackMantissa, BitVec.extractLsb, Binary.fractionField]

theorem unpackSign_eq :
    Sign.ofBitVec (@unpackSign Format.binary64 b) = signOf (Binary.signBit b.toNat) := by
  have hsign : (@unpackSign Format.binary64 b).toNat = b.toNat / 2 ^ 63 % 2 := by
    simp [unpackSign, BitVec.extractLsb, Nat.shiftRight_eq_div_pow]
  unfold Sign.ofBitVec signOf Binary.signBit
  by_cases h : b.toNat / 2 ^ 63 % 2 = 1
  · rw [if_neg, if_pos (by simpa using h)]
    intro hzero
    rw [hzero, h] at hsign
    cases hsign
  · rw [if_pos, if_neg (by simpa using h)]
    apply BitVec.eq_of_toNat_eq
    rw [hsign]
    have : b.toNat / 2 ^ 63 % 2 = 0 := by omega
    rw [this]
    rfl

theorem toNat_append_one (f : BitVec 52) : (1#1 ++ f).toNat = 2 ^ 52 + f.toNat := by
  rw [BitVec.toNat_append, ← Nat.shiftLeft_add_eq_or_of_lt f.isLt, Nat.shiftLeft_eq]
  rfl

/-- What bits stand for, by their fields. -/
inductive Reading (bits : ℕ) : UnpackedFloat → Prop
  | infinity (hexponent : Binary.exponentField bits = 2047)
      (hfraction : Binary.fractionField bits = 0) :
      Reading bits (.infinity (signOf (Binary.signBit bits)))
  | notANumber (hexponent : Binary.exponentField bits = 2047)
      (hfraction : Binary.fractionField bits ≠ 0) : Reading bits .notANumber
  | zero (hexponent : Binary.exponentField bits = 0) (hfraction : Binary.fractionField bits = 0) :
      Reading bits (.zero (signOf (Binary.signBit bits)))
  | subnormal (hexponent : Binary.exponentField bits = 0)
      (hfraction : 0 < Binary.fractionField bits) :
      Reading bits
        (.finite (signOf (Binary.signBit bits)) (Binary.fractionField bits) (-1074) hfraction)
  | normal {m} (hexponent : Binary.exponentField bits ≠ 2047)
      (hpositive : Binary.exponentField bits ≠ 0) (hm : m = 2 ^ 52 + Binary.fractionField bits)
      (hpos : 0 < m) :
      Reading bits
        (.finite (signOf (Binary.signBit bits)) m (Binary.exponentField bits - 1075) hpos)

theorem reading : Reading b.toNat (UnpackedFloat.unpack Format.binary64 b) := by
  have hexp := unpackExponent_toNat b
  have hman := unpackMantissa_toNat b
  have hones : @unpackExponent Format.binary64 b = -1#_ ↔ Binary.exponentField b.toNat = 2047 := by
    rw [← hexp, ← BitVec.toNat_inj]
    rfl
  have hzero : @unpackExponent Format.binary64 b = 0#_ ↔ Binary.exponentField b.toNat = 0 := by
    rw [← hexp, ← BitVec.toNat_inj]
    rfl
  have hnone : @unpackMantissa Format.binary64 b = 0#_ ↔ Binary.fractionField b.toNat = 0 := by
    rw [← hman, ← BitVec.toNat_inj]
    rfl
  have hbias : (Format.exponentBias Format.binary64 : ℤ) = 1023 := by decide
  unfold UnpackedFloat.unpack
  simp only [hones, hzero, hnone, unpackSign_eq]
  by_cases h2047 : Binary.exponentField b.toNat = 2047
  · rw [if_pos h2047]
    by_cases h0 : Binary.fractionField b.toNat = 0
    · rw [if_pos h0]
      exact .infinity h2047 h0
    · rw [if_neg h0]
      exact .notANumber h2047 h0
  · rw [if_neg h2047]
    by_cases h0 : Binary.exponentField b.toNat = 0
    · rw [if_pos h0]
      by_cases hf : Binary.fractionField b.toNat = 0
      · rw [dif_pos hf]
        exact .zero h0 hf
      · rw [dif_neg hf]
        simp only [hman, hexp, h0, hbias]
        exact .subnormal h0 (Nat.pos_of_ne_zero hf)
    · rw [if_neg h0]
      have hm : (1#1 ++ @unpackMantissa Format.binary64 b).toNat =
          2 ^ 52 + Binary.fractionField b.toNat := by
        rw [← hman]
        exact toNat_append_one _
      simp only [hexp, hbias]
      exact .normal h2047 h0 hm (by omega)

end Reading

theorem exponentField_lt (n : ℕ) : Binary.exponentField n < 2048 := Nat.mod_lt _ (by decide)

theorem fractionField_lt (n : ℕ) : Binary.fractionField n < 2 ^ 52 := Nat.mod_lt _ (by decide)

theorem reading_unpacked (x : Float) : Reading x.toBits.toNat (unpacked x) :=
  reading x.toBits.toBitVec

/-- Every double other than zero has a significand and an exponent that fit. -/
theorem fits_of_unpack {x : Float} {s : Sign} {m : ℕ} {e : ℤ} {hm : 0 < m}
    (h : unpacked x = .finite s m e hm) : Fits m e := by
  have hreading := reading_unpacked x
  have hexp := exponentField_lt x.toBits.toNat
  have hfrac := fractionField_lt x.toBits.toNat
  rw [h] at hreading
  cases hreading with
  | subnormal hexponent hfraction => exact ⟨hm, by omega, by omega, by omega, Or.inr rfl⟩
  | normal hexponent hpositive hm' _ => exact ⟨hm, by omega, by omega, by omega, Or.inl (by omega)⟩

/-! ## Packing -/

theorem unpackSign_packComponents (f : Format) (s : Sign) (e : BitVec f.exponentBits)
    (m : BitVec f.mantissaBitsWithoutImplicit) :
    unpackSign (packComponents f s e m) = s.toBitVec := by
  apply BitVec.eq_of_getLsbD_eq
  intro i hi
  have hi0 : i = 0 := by omega
  subst hi0
  simp [unpackSign, packComponents, BitVec.getLsbD_append, BitVec.getElem_append]

theorem ofBitVec_toBitVec (s : Sign) : Sign.ofBitVec s.toBitVec = s := by
  cases s <;> rfl

theorem unpack_pack_zero (s : Sign) : (Float.Model.pack (.zero s)).unpack = .zero s := by
  cases s <;> rfl

theorem unpack_pack_infinity (s : Sign) : (Float.Model.pack (.infinity s)).unpack = .infinity s := by
  cases s <;> rfl

/-- What the packed components of a normal double stand for. -/
theorem unpack_normal (s : Sign) {E F : ℕ} (hE : 0 < E) (hE' : E < 2047) (hF : F < 2 ^ 52)
    {m : ℕ} (hm : m = 2 ^ 52 + F) (hpos : 0 < m) :
    UnpackedFloat.unpack Format.binary64
        (packComponents Format.binary64 s (BitVec.ofNat 11 E) (BitVec.ofNat 52 F)) =
      .finite s m (E - 1075) hpos := by
  have hbias : (Format.exponentBias Format.binary64 : ℤ) = 1023 := by decide
  have hexp : (BitVec.ofNat 11 E).toNat = E := by
    rw [BitVec.toNat_ofNat, Nat.mod_eq_of_lt (by omega)]
  have hman : (1#1 ++ BitVec.ofNat 52 F).toNat = m := by
    rw [toNat_append_one, BitVec.toNat_ofNat, Nat.mod_eq_of_lt hF, hm]
  have hones : ¬ BitVec.ofNat 11 E = -1#11 := by
    intro h
    have := congrArg BitVec.toNat h
    rw [hexp] at this
    exact absurd this (by change E ≠ 2047; omega)
  have hzero : ¬ BitVec.ofNat 11 E = 0#11 := by
    intro h
    have := congrArg BitVec.toNat h
    rw [hexp] at this
    exact absurd this (by change E ≠ 0; omega)
  unfold UnpackedFloat.unpack
  simp only [unpackExponent_packComponents, unpackMantissa_packComponents, unpackSign_packComponents,
    ofBitVec_toBitVec, hbias]
  rw [if_neg hones, if_neg hzero]
  simp only [hman, hexp]
  rfl

/-- What the packed components of a double of the least exponent stand for. -/
theorem unpack_subnormal (s : Sign) {F : ℕ} (hF : F < 2 ^ 52) (hpos : 0 < F) :
    UnpackedFloat.unpack Format.binary64
        (packComponents Format.binary64 s 0#11 (BitVec.ofNat 52 F)) =
      .finite s F (-1074) hpos := by
  have hman : (BitVec.ofNat 52 F).toNat = F := by
    rw [BitVec.toNat_ofNat, Nat.mod_eq_of_lt hF]
  have hnone : ¬ BitVec.ofNat 52 F = 0#52 := by
    intro h
    have := congrArg BitVec.toNat h
    rw [hman] at this
    exact absurd this (by change F ≠ 0; omega)
  unfold UnpackedFloat.unpack
  simp only [unpackExponent_packComponents, unpackMantissa_packComponents, unpackSign_packComponents,
    ofBitVec_toBitVec]
  rw [if_neg (by decide), if_pos trivial, dif_neg hnone]
  simp only [hman]
  rfl

/-- Every significand and exponent that fit are those of a double. -/
theorem unpack_pack_finite {s : Sign} {m : ℕ} {e : ℤ} (hm : 0 < m) (h : Fits m e) :
    (Float.Model.pack (.finite s m e hm)).unpack = .finite s m e hm := by
  have hbias : (Format.exponentBias Format.binary64 : ℤ) = 1023 := by decide
  have hbits : Format.mantissaBits Format.binary64 = 53 := rfl
  obtain ⟨-, hlt, hleast, hmost, hfull⟩ := h
  have hlog : m.log2 < 53 := (Nat.log2_lt hm.ne').mpr hlt
  obtain ⟨E, hE⟩ : ∃ E : ℕ, (e + 1023 + (52 : ℕ)).toNat = E := ⟨_, rfl⟩
  change UnpackedFloat.unpack Format.binary64 (UnpackedFloat.pack Format.binary64 _) = _
  unfold UnpackedFloat.pack
  simp only [hbias, hbits, hE]
  rw [if_neg (by omega)]
  by_cases hnormal : 2 ^ 52 ≤ m
  · have hlow : 52 ≤ m.log2 := (Nat.le_log2 hm.ne').mpr hnormal
    have hofNat : BitVec.ofNat 52 m = BitVec.ofNat 52 (m - 2 ^ 52) := by
      apply BitVec.eq_of_toNat_eq
      simp only [BitVec.toNat_ofNat]
      omega
    rw [if_pos (by omega), hofNat, unpack_normal s (by omega) (by omega) (by omega) (by omega) hm]
    congr 1
    omega
  · have hlow : m.log2 < 52 := (Nat.log2_lt hm.ne').mpr (by omega)
    have he : e = -1074 := hfull.resolve_left hnormal
    subst he
    rw [if_neg (by omega)]
    exact unpack_subnormal s (by omega) hm

/-- Beyond the greatest exponent lies infinity. -/
theorem unpack_pack_overflow {s : Sign} {m : ℕ} {e : ℤ} (hm : 0 < m) (he : 971 < e) :
    (Float.Model.pack (.finite s m e hm)).unpack = .infinity s := by
  have hpack : UnpackedFloat.pack Format.binary64 (.finite s m e hm) =
      UnpackedFloat.pack Format.binary64 (.infinity s) := by
    have hbias : (Format.exponentBias Format.binary64 : ℤ) = 1023 := by decide
    simp only [UnpackedFloat.pack, hbias]
    rw [if_pos]
    change 2048 ≤ (e + 1023 + (52 : ℕ)).toNat + 1
    omega
  change UnpackedFloat.unpack Format.binary64 (UnpackedFloat.pack Format.binary64 _) = _
  rw [hpack]
  exact unpack_pack_infinity s

/-- `Binary.ofFloat` reads the same significand and exponent. -/
theorem ofFloat_eq (x : Float) :
    Binary.ofFloat x =
      match unpacked x with
      | .infinity s => .infinite (s == .negative)
      | .notANumber => .nan
      | .zero s => .finite (s == .negative) 0 (-1074)
      | .finite s m e _ => .finite (s == .negative) m e := by
  have hreading := reading_unpacked x
  have hsign : ∀ b, (signOf b == Sign.negative) = b := by decide
  have hbits : Binary.ofFloat x = Binary.ofBits x.toBits.toNat := rfl
  rw [hbits, Binary.ofBits]
  generalize unpacked x = u at hreading ⊢
  cases hreading with
  | infinity hexponent hfraction => simp [hexponent, hfraction, hsign]
  | notANumber hexponent hfraction => simp [hexponent, hfraction]
  | zero hexponent hfraction => simp [hexponent, hfraction, hsign]
  | subnormal hexponent hfraction => simp [hexponent, hsign]
  | normal hexponent hpositive hm _ => simp [hexponent, hpositive, hm, hsign]

end ShiftMesh.Double
