import Mathlib
import ShiftMesh.Decimal.Reader
import ShiftMesh.Proofs.Decimal.Shortest
import ShiftMesh.Proofs.Double.Error
import ShiftMesh.Proofs.Json.Layout
import ShiftMesh.Text.Blank

/-!
# ShiftMesh.Proofs.Decimal.Plain — a double is read back from its plain text

* `rounds_nearest`: the reader rounds a decimal once, as long as it is not far out of range.
* `readUnsigned?_whole`, `readUnsigned?_point`: the reader finds the digits of a plain text.
* `Spelled`, `spelled_digitsText`: the text of a decimal is read as a double that rounds it.
* `Rendered`: a double and its text, a word or a text that is spelled so, with a sign if it is negative.
* `readDecimal_render`: so every double is read back from its text; `render_unbroken`: a text in one piece.
-/

namespace ShiftMesh.Decimal

open Layout (plain zeros withPoint significant positionalText digitsText render)
open ShiftMesh.Json (Significant significant_value ofDigitChars_zeros isDigit_zeros)
open ShiftMesh.Double

/-! ## Rounding a decimal -/

theorem ofDigits_eq (ds : List Char) : ofDigits ds = Nat.ofDigitChars 10 ds 0 := by
  rw [ofDigits, Nat.ofDigitChars]
  congr
  funext n c
  rw [Nat.mul_comm]

/-- A decimal that is not far out of range is rounded once. -/
theorem rounds_nearest {n : ℕ} {e : ℤ} (hn : 0 < n) (hlow : (10 : ℚ) ^ (-400 : ℤ) ≤ n * 10 ^ e)
    (hhigh : (n : ℚ) * 10 ^ e < 10 ^ (400 : ℤ)) (he : -2 ^ 11 ≤ e) :
    Rounds (nearest n e) (n * 10 ^ e) := by
  obtain ⟨hcount, hfirst, hlast⟩ := digitCount_bounds hn
  have hten : (0 : ℚ) < 10 ^ e := by positivity
  obtain ⟨count, hdigits⟩ : ∃ count, count = digitCount n := ⟨_, rfl⟩
  rw [← hdigits] at hcount hfirst hlast
  have hnotHigh : ¬ 400 < (count : ℤ) + e := by
    intro hlt
    have hpower : (10 : ℚ) ^ (400 : ℤ) ≤ 10 ^ ((count - 1 : ℕ) : ℤ) * 10 ^ e := by
      rw [← zpow_add₀ (by norm_num)]
      exact zpow_le_zpow_right₀ (by norm_num) (by omega)
    have hcast : (10 : ℚ) ^ ((count - 1 : ℕ) : ℤ) ≤ n := by
      rw [zpow_natCast]
      exact_mod_cast hfirst
    exact absurd (hpower.trans (mul_le_mul_of_nonneg_right hcast hten.le)) (not_le.mpr hhigh)
  have hnotLow : ¬ (count : ℤ) + e < -400 := by
    intro hlt
    have hpower : (10 : ℚ) ^ (count : ℤ) * 10 ^ e ≤ 10 ^ (-400 : ℤ) := by
      rw [← zpow_add₀ (by norm_num)]
      exact zpow_le_zpow_right₀ (by norm_num) hlt.le
    have hcast : (n : ℚ) < 10 ^ (count : ℤ) := by
      rw [zpow_natCast]
      exact_mod_cast hlast
    exact absurd ((mul_lt_mul_of_pos_right hcast hten).trans_le hpower) (not_lt.mpr hlow)
  rw [nearest]
  simp only [if_neg hn.ne']
  rw [digitCount] at hdigits
  rw [← hdigits, if_neg hnotHigh, if_neg hnotLow]
  split_ifs with hsign
  · obtain ⟨k, rfl⟩ := Int.eq_ofNat_of_zero_le hsign
    rw [Int.toNat_natCast, zpow_natCast]
    exact rounds_ofScientific n (by omega)
  · obtain ⟨k, rfl⟩ : ∃ k : ℕ, e = -(k : ℤ) := ⟨(-e).toNat, by omega⟩
    rw [neg_neg, Int.toNat_natCast, zpow_neg, zpow_natCast, ← div_eq_mul_inv]
    exact rounds_ofScientific_neg n (by omega) (by omega)

/-! ## Reading digits -/

section Reading

variable {whole fraction : List Char}

theorem spanDigits_point (hwhole : ∀ c ∈ whole, c.isDigit = true) (rest : List Char) :
    spanDigits (withPoint whole rest) = (whole, '.' :: rest) := by
  rw [spanDigits, withPoint, List.takeWhile_append_of_pos hwhole, List.dropWhile_append_of_pos hwhole,
    List.takeWhile_cons_of_neg (by decide), List.dropWhile_cons_of_neg (by decide), List.append_nil]

theorem spanDigits_all (hdigits : ∀ c ∈ whole, c.isDigit = true) : spanDigits whole = (whole, []) := by
  rw [spanDigits, List.takeWhile_eq_self_iff.mpr hdigits, List.dropWhile_eq_nil_iff.mpr hdigits]

/-- Digits alone are a whole number. -/
theorem readUnsigned?_whole (hne : whole ≠ []) (hwhole : ∀ c ∈ whole, c.isDigit = true) :
    readUnsigned? whole = some (nearest (Nat.ofDigitChars 10 whole 0) 0) := by
  have hparts : unsignedParts? exponentMagnitude whole = some ⟨whole, [], 0⟩ := by
    simp [unsignedParts?, spanDigits_all hwhole, splitFraction, exponent?, hne]
  rw [readUnsigned?, hparts, Option.map_some, ofDigits_eq, List.append_nil]
  rfl

/-- Digits after a point count for less. -/
theorem readUnsigned?_point (hne : whole ≠ []) (hwhole : ∀ c ∈ whole, c.isDigit = true)
    (hfraction : ∀ c ∈ fraction, c.isDigit = true) :
    readUnsigned? (withPoint whole fraction) =
      some (nearest (Nat.ofDigitChars 10 (whole ++ fraction) 0) (-fraction.length)) := by
  have hparts : unsignedParts? exponentMagnitude (withPoint whole fraction) =
      some ⟨whole, fraction, 0⟩ := by
    simp [unsignedParts?, spanDigits_point hwhole, splitFraction, spanDigits_all hfraction, exponent?, hne]
  rw [readUnsigned?, hparts, Option.map_some, ofDigits_eq, zero_sub]

end Reading

/-! ## The text of a decimal -/

/-- A text of digits and a point that is read as a double that rounds a value. -/
structure Spelled (cs : List Char) (v : ℚ) : Prop where
  ne_nil : cs ≠ []
  chars : ∀ c ∈ cs, c.isDigit = true ∨ c = '.'
  read : ∃ y, readUnsigned? cs = some y ∧ Rounds y v

section Texts

variable {ds : List Char} {v : ℚ} {e : ℤ}

theorem spelled_point {whole fraction : List Char} (hne : whole ≠ [])
    (hwhole : ∀ c ∈ whole, c.isDigit = true) (hfraction : ∀ c ∈ fraction, c.isDigit = true)
    (hrounds : Rounds (nearest (Nat.ofDigitChars 10 (whole ++ fraction) 0) (-fraction.length)) v) :
    Spelled (withPoint whole fraction) v where
  ne_nil := by simp [withPoint]
  chars c hc := by
    rcases List.mem_append.mp hc with hc | hc
    · exact Or.inl (hwhole c hc)
    · exact (List.mem_cons.mp hc).symm.imp_left (hfraction c)
  read := ⟨_, readUnsigned?_point hne hwhole hfraction, hrounds⟩

/-- Significant digits below one. -/
theorem spelled_below_one (hds : Significant ds) {n : ℕ} (he : e = -(n + ds.length : ℕ))
    (hrounds : Rounds (nearest (Nat.ofDigitChars 10 ds 0) e) v) :
    Spelled (withPoint ['0'] (zeros n ++ ds)) v := by
  have hdigits : Nat.ofDigitChars 10 (['0'] ++ (zeros n ++ ds)) 0 = Nat.ofDigitChars 10 ds 0 :=
    ofDigitChars_zeros n ds
  have hexponent : -((zeros n ++ ds).length : ℤ) = e := by
    rw [he, List.length_append, zeros, List.length_replicate]
  refine spelled_point (List.cons_ne_nil _ _) (fun c hc => ?_) (fun c hc => ?_) ?_
  · rw [List.mem_singleton.mp hc]
    rfl
  · exact (List.mem_append.mp hc).elim isDigit_zeros (hds.digits c)
  · rwa [hdigits, hexponent]

/-- Significant digits with zeros after them. -/
theorem spelled_zeros (hds : Significant ds) {n : ℕ}
    (hrounds : Rounds (nearest (Nat.ofDigitChars 10 ds 0 * 10 ^ n) 0) v) : Spelled (ds ++ zeros n) v := by
  have hall : ∀ c ∈ ds ++ zeros n, c.isDigit = true := fun c hc =>
    (List.mem_append.mp hc).elim (hds.digits c) isDigit_zeros
  have hne : ds ++ zeros n ≠ [] := fun hnil => hds.ne_nil (List.append_eq_nil_iff.mp hnil).1
  have hdigits : Nat.ofDigitChars 10 (ds ++ zeros n) 0 = Nat.ofDigitChars 10 ds 0 * 10 ^ n := by
    rw [Nat.ofDigitChars_append, zeros, Nat.ofDigitChars_replicate_zero, mul_comm]
  exact ⟨hne, fun c hc => Or.inl (hall c hc), _, readUnsigned?_whole hne hall, by rwa [hdigits]⟩

/-- Significant digits with a point between them. -/
theorem spelled_between (hds : Significant ds) {n : ℕ} (hn : 0 < n) (hlt : n < ds.length)
    (he : e = n - ds.length) (hrounds : Rounds (nearest (Nat.ofDigitChars 10 ds 0) e) v) :
    Spelled (withPoint (ds.take n) (ds.drop n)) v := by
  have hexponent : -((ds.drop n).length : ℤ) = e := by
    rw [List.length_drop]
    omega
  have hne : ds.take n ≠ [] := fun hnil => by
    have hlength := congrArg List.length hnil
    rw [List.length_take, List.length_nil] at hlength
    omega
  refine spelled_point hne (fun c hc => hds.digits c (List.mem_of_mem_take hc))
    (fun c hc => hds.digits c (List.mem_of_mem_drop hc)) ?_
  rwa [List.take_append_drop, hexponent]

/-- Significant digits reach down no further than 18 digits below the value. -/
theorem scale_ge (hds : Significant ds)
    (hlow : (10 : ℚ) ^ (-400 : ℤ) ≤ Nat.ofDigitChars 10 ds 0 * 10 ^ e) : -2 ^ 11 ≤ e := by
  have hcast : (Nat.ofDigitChars 10 ds 0 : ℚ) ≤ 10 ^ (18 : ℤ) := by exact_mod_cast hds.fits
  have hle := hlow.trans (mul_le_mul_of_nonneg_right hcast (by positivity : (0 : ℚ) ≤ 10 ^ e))
  rw [← zpow_add₀ (by norm_num), zpow_le_zpow_iff_right₀ (by norm_num)] at hle
  omega

/-- The plain text of a decimal that is not far out of range is read as a double that rounds it. -/
theorem spelled_digitsText {d : Digits} (hd : 0 < d.digits) (hle : d.digits ≤ 10 ^ 18)
    (hlow : (10 : ℚ) ^ (-400 : ℤ) ≤ d.digits * 10 ^ d.exponent)
    (hhigh : (d.digits : ℚ) * 10 ^ d.exponent < 10 ^ (400 : ℤ)) :
    Spelled (plain.digitsText d) (d.digits * 10 ^ d.exponent) := by
  obtain ⟨ds, e, hsig, hds, hvalue⟩ := significant_value hd hle
  obtain ⟨leading, hleading⟩ : ∃ leading : ℤ, leading = e + ds.length - 1 := ⟨_, rfl⟩
  have htext : plain.digitsText d = positionalText "" ds leading := by
    rw [digitsText, hsig, hleading]
    rfl
  rw [← hvalue] at hlow hhigh ⊢
  have hpos : 0 < Nat.ofDigitChars 10 ds 0 := by
    refine Nat.pos_of_ne_zero fun hzero => ?_
    rw [hzero, Nat.cast_zero, zero_mul] at hlow
    exact absurd hlow (not_le.mpr (by positivity))
  have hrounds := rounds_nearest hpos hlow hhigh (scale_ge hds hlow)
  rw [htext, positionalText]
  by_cases hneg : leading < 0
  · rw [if_pos hneg]
    exact spelled_below_one hds (by omega) hrounds
  · rw [if_neg hneg]
    by_cases hfew : ds.length ≤ leading.toNat + 1
    · obtain ⟨n, hn⟩ : ∃ n, n = leading.toNat + 1 - ds.length := ⟨_, rfl⟩
      have hscale : e = n := by omega
      have hwhole : ((Nat.ofDigitChars 10 ds 0 * 10 ^ n : ℕ) : ℚ) * 10 ^ (0 : ℤ) =
          Nat.ofDigitChars 10 ds 0 * 10 ^ e := by
        rw [zpow_zero, mul_one, hscale, zpow_natCast]
        push_cast
        rfl
      have hempty : "".toList = [] := rfl
      simp only [if_pos hfew, ← hn, hempty, List.append_nil]
      rw [← hwhole] at hlow hhigh ⊢
      exact spelled_zeros hds (rounds_nearest (Nat.mul_pos hpos (by positivity)) hlow hhigh (by norm_num))
    · simp only [if_neg hfew]
      exact spelled_between hds (by omega) (by omega) (by omega) hrounds

end Texts

/-! ## The text of a double -/

/-- A sign before an unsigned text. -/
theorem readDecimal_signed {cs : List Char} {v : ℚ} (h : Spelled cs v) {y : Float}
    (hy : readUnsigned? cs = some y) (negative : Bool) :
    readDecimal (if negative then '-' :: cs else cs) = .ok (if negative then -y else y) := by
  obtain ⟨c, rest, rfl⟩ := List.exists_cons_of_ne_nil h.ne_nil
  cases negative with
  | true =>
    simp only [if_true]
    rw [readDecimal, if_neg (by simp)]
    simp only [splitSign, hy, Option.some_or, if_true]
  | false =>
    have hunsigned : splitSign (c :: rest) = (false, c :: rest) := by
      rcases h.chars c List.mem_cons_self with hc | rfl
      · have hplus : c ≠ '+' := by rintro rfl; cases hc
        have hminus : c ≠ '-' := by rintro rfl; cases hc
        simp [splitSign, hplus, hminus]
      · rfl
    simp only [Bool.false_eq_true, if_false]
    rw [readDecimal, if_neg (by simp)]
    simp only [hunsigned, hy, Option.some_or, Bool.false_eq_true, if_false]

/-- What rounds to a double is not far out of range. -/
theorem nearest_range {m : ℕ} {q : ℤ} {v : ℚ} (h : Nearest m q v) (hfits : Fits m q) :
    (10 : ℚ) ^ (-400 : ℤ) ≤ v ∧ v < 10 ^ (400 : ℤ) := by
  obtain ⟨hlow, hhigh⟩ := h.range hfits
  have hthree : ∀ k : ℤ, (8 : ℚ) ^ k = 2 ^ (3 * k) := fun k => by
    rw [zpow_mul]
    norm_num
  constructor
  · calc (10 : ℚ) ^ (-400 : ℤ) ≤ 8 ^ (-400 : ℤ) := by
          rw [zpow_neg, zpow_neg]
          exact inv_anti₀ (by positivity) (zpow_le_zpow_left₀ (by norm_num) (by norm_num) (by norm_num))
      _ = 2 ^ (-1200 : ℤ) := hthree (-400)
      _ ≤ 2 ^ (-1076 : ℤ) := zpow_le_zpow_right₀ one_le_two (by norm_num)
      _ ≤ v := leastDouble_quarter ▸ hlow
  · calc v ≤ 2 ^ (1024 : ℤ) := hhigh
      _ ≤ 2 ^ (1200 : ℤ) := zpow_le_zpow_right₀ one_le_two (by norm_num)
      _ = 8 ^ (400 : ℤ) := (hthree 400).symm
      _ < 10 ^ (400 : ℤ) := zpow_lt_zpow_left₀ (by norm_num) (by norm_num) (by norm_num)

/-- A double and its text: a word, or a text that is read as its size, with a sign if it is negative. -/
inductive Rendered (x : Float) : List Char → Prop
  | nan : x = 0.0 / 0.0 → Rendered x "NaN".toList
  | infinite (negative : Bool) : x = (if negative then -infinity else infinity) →
      Rendered x (if negative then "-inf" else "inf").toList
  | number (negative : Bool) {cs : List Char} {v : ℚ} {y : Float} : Spelled cs v →
      readUnsigned? cs = some y → x = (if negative then -y else y) →
      Rendered x (if negative then '-' :: cs else cs)

theorem rendered (x : Float) : Rendered x (plain.render x).toList := by
  have hcanonical := canonical_unpacked x
  have htext := ofFloat_eq x
  rw [render]
  cases hx : unpacked x with
  | notANumber =>
    rw [htext, hx]
    exact .nan (eq_of_unpacked hx)
  | infinity s =>
    rw [htext, hx]
    refine .infinite (s == .negative) (eq_of_unpacked (hx.trans ?_))
    cases s <;> rfl
  | zero s =>
    have hspelled : Spelled ['0'] 0 := ⟨List.cons_ne_nil _ _, by simp, _, rfl, rounds_zero .positive⟩
    rw [htext, hx, String.toList_ofList]
    refine .number (s == .negative) hspelled rfl (eq_of_unpacked (hx.trans ?_))
    cases s <;> rfl
  | finite s m q hm =>
    have hfits := hcanonical _ _ _ _ hx
    obtain ⟨hpos, hle, hnearest⟩ := shortest_spec .up hfits
    obtain ⟨hlow, hhigh⟩ := nearest_range hnearest hfits
    have hspelled := spelled_digitsText hpos (hle.trans (by norm_num)) hlow hhigh
    obtain ⟨y, hy, hrounds⟩ := hspelled.read
    have hv := hnearest.pos hfits.pos
    have hvalue : value y = scaled m q := by
      rw [← abs_of_nonneg (hrounds.le_value 0 representable_zero hv.le)]
      exact hrounds.nearest m q hfits (by rwa [abs_of_pos hv])
    have hyu := unpacked_of_value hfits hrounds.isNumber hvalue
    have htie : plain.tie = .up := rfl
    rw [htext, hx, String.toList_ofList]
    simp only [if_neg hm.ne', htie]
    refine .number (s == .negative) hspelled hy (eq_of_unpacked (hx.trans ?_))
    cases s with
    | negative =>
      change _ = unpacked (-y)
      rw [neg_unpacked, hyu]
      exact (unpacked_packed_finite hm hfits).symm
    | positive => exact hyu.symm

/-- **A double is read back from its text.** -/
theorem readDecimal_render (x : Float) : readDecimal (plain.render x).toList = .ok x := by
  have h := rendered x
  generalize (plain.render x).toList = text at h ⊢
  cases h with
  | nan hx =>
    rw [hx]
    rfl
  | infinite negative hx =>
    rw [hx]
    cases negative <;> rfl
  | number negative hspelled hy hx =>
    rw [hx]
    exact readDecimal_signed hspelled hy negative

theorem isBlank_of_isDigit {c : Char} (h : c.isDigit = true) : Text.isBlank c = false := by
  have hrange := Char.isDigit_iff_toNat.mp h
  have hzero : '0'.toNat = 48 := rfl
  have hnine : '9'.toNat = 57 := rfl
  simp only [Text.isBlank, Bool.or_eq_false_iff, Bool.and_eq_false_iff, decide_eq_false_iff_not,
    beq_eq_false_iff_ne]
  omega

/-- The text of a double is not empty and holds no blanks. -/
theorem render_unbroken (x : Float) : (plain.render x).toList ≠ [] ∧
    ∀ c ∈ (plain.render x).toList, Text.isBlank c = false := by
  have h := rendered x
  generalize (plain.render x).toList = text at h ⊢
  have hletters : ∀ {word : String}, (word.toList.all fun c => !Text.isBlank c) = true →
      ∀ c ∈ word.toList, Text.isBlank c = false := fun hword c hc => by
    simpa using List.all_eq_true.mp hword c hc
  cases h with
  | nan => exact ⟨by decide, hletters (by decide)⟩
  | infinite negative => cases negative <;> exact ⟨by decide, hletters (by decide)⟩
  | @number negative cs _ _ hspelled =>
    have hcs : ∀ c ∈ cs, Text.isBlank c = false := by
      intro c hc
      rcases hspelled.chars c hc with hc | rfl
      · exact isBlank_of_isDigit hc
      · rfl
    cases negative with
    | true => exact ⟨List.cons_ne_nil _ _, List.forall_mem_cons.mpr ⟨rfl, hcs⟩⟩
    | false => exact ⟨hspelled.ne_nil, hcs⟩

end ShiftMesh.Decimal
