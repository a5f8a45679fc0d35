import Mathlib
import ShiftMesh.Proofs.Json.Numeral

/-!
# ShiftMesh.Proofs.Json.Layout — the text of a decimal is a numeral

* `significant_spec`: the digits without the zeros at the end.
* `Shows`: a numeral whose digits fit 64 bits, with a point or an exponent, and its value without the
  sign.
* `document_shows`: the text of a decimal of at most `10^18` in the document layout is such a numeral.
-/

namespace ShiftMesh.Json

open ShiftMesh.Decimal (Digits)
open ShiftMesh.Decimal.Layout

/-! ## Values of digits -/

/-- So many digits stay below that power of ten. -/
theorem ofDigitChars_lt {ds : List Char} (hd : ∀ c ∈ ds, c.isDigit = true) :
    Nat.ofDigitChars 10 ds 0 < 10 ^ ds.length := by
  induction ds with
  | nil => exact Nat.one_pos
  | cons c ds ih =>
    have hc := Char.isDigit_iff_toNat.mp (hd c List.mem_cons_self)
    have hds := ih fun c' hc' => hd c' (List.mem_cons_of_mem _ hc')
    have hnine : '9'.toNat = '0'.toNat + 9 := rfl
    rw [Nat.ofDigitChars_cons, Nat.ofDigitChars_eq_ofDigitChars_zero, List.length_cons, pow_succ]
    have hdigit : 10 * 0 + (c.toNat - '0'.toNat) ≤ 9 := by omega
    calc 10 ^ ds.length * (10 * 0 + (c.toNat - '0'.toNat)) + Nat.ofDigitChars 10 ds 0
        < 10 ^ ds.length * 9 + 10 ^ ds.length :=
          Nat.add_lt_add_of_le_of_lt (Nat.mul_le_mul_left _ hdigit) hds
      _ = 10 ^ ds.length * 10 := by ring

theorem ofDigitChars_zeros (n : ℕ) (ds : List Char) :
    Nat.ofDigitChars 10 (zeros n ++ ds) 0 = Nat.ofDigitChars 10 ds 0 := by
  rw [zeros, Nat.ofDigitChars_append, Nat.ofDigitChars_replicate_zero, mul_zero]

theorem isDigit_zeros {n : ℕ} {c : Char} (h : c ∈ zeros n) : c.isDigit = true := by
  rw [List.eq_of_mem_replicate h]
  rfl

/-! ## Significant digits -/

/-- A positive decimal's digits: no zero at either end, and the zeros cut off move into the
exponent. -/
theorem significant_spec {d : Digits} (hd : 0 < d.digits) :
    ∃ ds z, significant d = (ds, d.exponent + (z : ℕ)) ∧ ds ≠ [] ∧
      Nat.toDigits 10 d.digits = ds ++ zeros z := by
  obtain ⟨written, hw⟩ : ∃ written, written = Nat.toDigits 10 d.digits := ⟨_, rfl⟩
  have hsplit : written = (written.reverse.dropWhile (· == '0')).reverse ++
      (written.reverse.takeWhile (· == '0')).reverse := by
    rw [← List.reverse_append, List.takeWhile_append_dropWhile, List.reverse_reverse]
  have hzeros : (written.reverse.takeWhile (· == '0')).reverse =
      zeros (written.reverse.takeWhile (· == '0')).length := by
    refine List.eq_replicate_iff.mpr ⟨List.length_reverse, fun c hc => ?_⟩
    have hzero := List.mem_takeWhile_imp (List.mem_reverse.mp hc)
    exact eq_of_beq hzero
  refine ⟨(written.reverse.dropWhile (· == '0')).reverse,
    (written.reverse.takeWhile (· == '0')).length, ?_, ?_, ?_⟩
  · have hlength := congrArg List.length hsplit
    rw [hzeros, List.length_append, zeros, List.length_replicate] at hlength
    rw [significant, ← hw]
    simp only [Prod.mk.injEq, true_and]
    omega
  · -- else the number would be written with zeros only
    intro hnil
    rw [hnil, List.nil_append, hzeros] at hsplit
    obtain ⟨c, cs, hcs⟩ := List.exists_cons_of_ne_nil (Nat.toDigits_ne_nil (n := d.digits) (b := 10))
    have hc : c ∈ zeros _ := hsplit ▸ hw ▸ hcs ▸ List.mem_cons_self
    exact toDigits_ne_zero hd cs (by rw [hcs, List.eq_of_mem_replicate hc])
  · rw [← hw, ← hzeros]
    exact hsplit

/-- The digits of a positive decimal without the zeros at its end. -/
structure Significant (ds : List Char) : Prop where
  ne_nil : ds ≠ []
  digits : ∀ c ∈ ds, c.isDigit = true
  no_leading_zero : ∀ rest, ds ≠ '0' :: rest
  fits : Nat.ofDigitChars 10 ds 0 ≤ 10 ^ 18

theorem significant_value {d : Digits} (hd : 0 < d.digits) (hle : d.digits ≤ 10 ^ 18) :
    ∃ ds e, significant d = (ds, e) ∧ Significant ds ∧
      (Nat.ofDigitChars 10 ds 0 : ℚ) * 10 ^ e = d.digits * 10 ^ d.exponent := by
  obtain ⟨ds, z, hsig, hne, hwritten⟩ := significant_spec hd
  have hvalue : Nat.ofDigitChars 10 ds 0 * 10 ^ z = d.digits := by
    have h := congrArg (Nat.ofDigitChars 10 · 0) hwritten
    simp only [Nat.ofDigitChars_ten_toDigits, Nat.ofDigitChars_append, zeros,
      Nat.ofDigitChars_replicate_zero] at h
    rw [h, mul_comm]
  refine ⟨ds, _, hsig, ⟨hne, fun c hc => ?_, fun rest heq => ?_, ?_⟩, ?_⟩
  · exact isDigit_toDigits (n := d.digits) (by rw [hwritten]; exact List.mem_append_left _ hc)
  · rw [heq, List.cons_append] at hwritten
    exact toDigits_ne_zero hd _ hwritten
  · exact (Nat.le_mul_of_pos_right _ (by positivity)).trans (hvalue.le.trans hle)
  · rw [zpow_add₀ (by norm_num), ← hvalue, zpow_natCast]
    push_cast
    ring

/-! ## The numeral of a text -/

/-- A numeral that is read as a double by digits of at most 64 bits, and its value without the
sign. -/
structure Shows (t : Numeral) (v : ℚ) : Prop where
  wellFormed : t.WellFormed
  isDouble : t.fraction.isSome ∨ t.exponent.isSome
  fits : Nat.ofDigitChars 10 t.digits 0 < Nat.pow 2 64
  value : (Nat.ofDigitChars 10 t.digits 0 : ℚ) * 10 ^ t.scale = v

variable {ds : List Char} {v : ℚ} {e : ℤ}

/-- A decimal below one. -/
theorem shows_below_one (hne : ds ≠ []) (hdigits : ∀ c ∈ ds, c.isDigit = true)
    (hfits : Nat.ofDigitChars 10 ds 0 ≤ 10 ^ 18) {n : ℕ} (he : e = -(n + ds.length : ℕ))
    (hv : (Nat.ofDigitChars 10 ds 0 : ℚ) * 10 ^ e = v) :
    Shows ⟨false, ['0'], some (zeros n ++ ds), none⟩ v where
  wellFormed :=
    { whole_ne_nil := List.cons_ne_nil _ _
      whole_digits := fun c hc => by rw [List.mem_singleton.mp hc]; rfl
      no_leading_zero := fun rest heq => (List.cons.inj heq).2.symm
      fraction_ne_nil := fun heq => hne (List.append_eq_nil_iff.mp (Option.some.inj heq)).2
      fraction_digits := fun cs heq c hc => by
        cases heq
        exact (List.mem_append.mp hc).elim isDigit_zeros (hdigits c) }
  isDouble := Or.inl rfl
  fits := by
    have hvalue : Nat.ofDigitChars 10 (['0'] ++ (zeros n ++ ds)) 0 = Nat.ofDigitChars 10 ds 0 :=
      ofDigitChars_zeros n ds
    change Nat.ofDigitChars 10 (['0'] ++ (zeros n ++ ds)) 0 < _
    rw [hvalue]
    exact hfits.trans_lt (by decide)
  value := by
    have hdigits : Nat.ofDigitChars 10 (['0'] ++ (zeros n ++ ds)) 0 = Nat.ofDigitChars 10 ds 0 :=
      ofDigitChars_zeros n ds
    have hscale : Numeral.scale ⟨false, ['0'], some (zeros n ++ ds), none⟩ = e := by
      simp only [Numeral.scale, Option.getD_none, Option.getD_some, List.length_append, zeros,
        List.length_replicate]
      omega
    rw [hscale, ← hv, ← hdigits]
    rfl

/-- A whole decimal with few digits. -/
theorem shows_whole (h : Significant ds) {n : ℕ} (hn : ds.length + n ≤ 16) (he : e = n)
    (hv : (Nat.ofDigitChars 10 ds 0 : ℚ) * 10 ^ e = v) :
    Shows ⟨false, ds ++ zeros n, some ['0'], none⟩ v where
  wellFormed :=
    { whole_ne_nil := fun heq => h.ne_nil (List.append_eq_nil_iff.mp heq).1
      whole_digits := fun c hc => (List.mem_append.mp hc).elim (h.digits c) isDigit_zeros
      no_leading_zero := fun rest heq => by
        obtain ⟨c, cs, hcs⟩ := List.exists_cons_of_ne_nil h.ne_nil
        rw [hcs] at heq
        exact absurd (hcs.trans (congrArg (· :: cs) (List.cons.inj heq).1)) (h.no_leading_zero cs)
      fraction_ne_nil := fun heq => nomatch heq
      fraction_digits := fun cs heq c hc => by
        cases heq
        rw [List.mem_singleton.mp hc]
        rfl }
  isDouble := Or.inl rfl
  fits := by
    have hdigits : ∀ c ∈ ds ++ zeros n ++ ['0'], c.isDigit = true := by
      intro c hc
      rcases List.mem_append.mp hc with hc | hc
      · exact (List.mem_append.mp hc).elim (h.digits c) isDigit_zeros
      · rw [List.mem_singleton.mp hc]
        rfl
    refine (ofDigitChars_lt hdigits).trans_le ?_
    have hlength : (ds ++ zeros n ++ ['0']).length ≤ 17 := by
      rw [List.length_append, List.length_append, zeros, List.length_replicate,
        List.length_singleton]
      omega
    exact (Nat.pow_le_pow_right (by norm_num) hlength).trans (by decide)
  value := by
    have hdigits : Nat.ofDigitChars 10 (ds ++ zeros n ++ ['0']) 0 =
        Nat.ofDigitChars 10 ds 0 * 10 ^ (n + 1) := by
      have hzeros : zeros n ++ ['0'] = zeros (n + 1) := List.replicate_succ'.symm
      rw [List.append_assoc, hzeros, Nat.ofDigitChars_append, zeros, Nat.ofDigitChars_replicate_zero,
        mul_comm]
    have hscale : Numeral.scale ⟨false, ds ++ zeros n, some ['0'], none⟩ = -1 := rfl
    have hall : Numeral.digits ⟨false, ds ++ zeros n, some ['0'], none⟩ = ds ++ zeros n ++ ['0'] := rfl
    rw [hall, hdigits, hscale, ← hv, he, zpow_natCast, zpow_neg_one]
    push_cast
    rw [pow_succ]
    field_simp

/-- Digits with a point between them. -/
theorem shows_point (h : Significant ds) {n : ℕ} (hn : 0 < n) (hlt : n < ds.length)
    (he : e = n - ds.length) (hv : (Nat.ofDigitChars 10 ds 0 : ℚ) * 10 ^ e = v) :
    Shows ⟨false, ds.take n, some (ds.drop n), none⟩ v where
  wellFormed :=
    { whole_ne_nil := fun heq => by
        have := congrArg List.length heq
        rw [List.length_take, List.length_nil] at this
        omega
      whole_digits := fun c hc => h.digits c (List.mem_of_mem_take hc)
      no_leading_zero := fun rest heq => by
        have hsplit : ds = '0' :: (rest ++ ds.drop n) := by
          rw [← List.cons_append, ← heq, List.take_append_drop]
        exact absurd hsplit (h.no_leading_zero _)
      fraction_ne_nil := fun heq => by
        have := congrArg List.length (Option.some.inj heq)
        rw [List.length_drop, List.length_nil] at this
        omega
      fraction_digits := fun cs heq c hc => by
        cases heq
        exact h.digits c (List.mem_of_mem_drop hc) }
  isDouble := Or.inl rfl
  fits := by
    change Nat.ofDigitChars 10 (ds.take n ++ ds.drop n) 0 < _
    rw [List.take_append_drop]
    exact h.fits.trans_lt (by decide)
  value := by
    have hdigits : Numeral.digits ⟨false, ds.take n, some (ds.drop n), none⟩ = ds :=
      List.take_append_drop n ds
    have hscale : Numeral.scale ⟨false, ds.take n, some (ds.drop n), none⟩ = e := by
      simp only [Numeral.scale, Option.getD_none, Option.getD_some, List.length_drop]
      omega
    rw [hdigits, hscale, hv]

/-- The fraction after one whole digit, if there are more. -/
def fractionOf (rest : List Char) : Option (List Char) := if rest = [] then none else some rest

theorem getD_fractionOf (rest : List Char) : (fractionOf rest).getD [] = rest := by
  rw [fractionOf]
  split_ifs with hnil
  · exact hnil.symm
  · rfl

theorem fractionOf_eq_some {rest cs : List Char} (h : fractionOf rest = some cs) :
    cs = rest ∧ rest ≠ [] := by
  rw [fractionOf] at h
  split_ifs at h with hnil
  exact ⟨(Option.some.inj h).symm, hnil⟩

/-- Digits with an exponent. -/
theorem shows_exponent {c : Char} {rest : List Char} (h : Significant (c :: rest)) {leading : ℤ}
    (he : e = leading - rest.length) (hv : (Nat.ofDigitChars 10 (c :: rest) 0 : ℚ) * 10 ^ e = v) :
    Shows ⟨false, [c], fractionOf rest, some leading⟩ v := by
  have hdigits : Numeral.digits ⟨false, [c], fractionOf rest, some leading⟩ = c :: rest := by
    rw [Numeral.digits, getD_fractionOf]
    rfl
  have hscale : Numeral.scale ⟨false, [c], fractionOf rest, some leading⟩ =
      leading - rest.length := by
    rw [Numeral.scale, getD_fractionOf]
    rfl
  refine ⟨⟨List.cons_ne_nil _ _, fun c' hc => ?_, fun cs heq => (List.cons.inj heq).2.symm,
    fun heq => ?_, fun cs heq c' hc => ?_⟩, Or.inr rfl, ?_, ?_⟩
  · rw [List.mem_singleton.mp hc]
    exact h.digits c List.mem_cons_self
  · obtain ⟨hnil, hne⟩ := fractionOf_eq_some heq
    exact hne hnil.symm
  · rw [(fractionOf_eq_some heq).1] at hc
    exact h.digits c' (List.mem_cons_of_mem _ hc)
  · rw [hdigits]
    exact h.fits.trans_lt (by decide)
  · rw [hdigits, hscale, ← he, hv]

/-! ## The document layout -/

theorem exponentText_eq (c : Char) (rest : List Char) (leading : ℤ) :
    exponentText (c :: rest) leading =
      Numeral.chars ⟨false, [c], fractionOf rest, some leading⟩ := by
  cases rest <;> rfl

/-- The text of a decimal in the document layout is a numeral. -/
theorem document_shows {d : Digits} (hd : 0 < d.digits) (hle : d.digits ≤ 10 ^ 18) :
    ∃ t : Numeral, t.negative = false ∧ Shows t (d.digits * 10 ^ d.exponent) ∧
      document.digitsText d = t.chars := by
  obtain ⟨ds, e, hsig, hds, hvalue⟩ := significant_value hd hle
  obtain ⟨leading, hleading⟩ : ∃ leading : ℤ, leading = e + ds.length - 1 := ⟨_, rfl⟩
  have htext : document.digitsText d =
      if document.positional leading then positionalText document.wholeFraction ds leading
      else exponentText ds leading := by
    rw [digitsText, hsig, hleading]
  rw [htext]
  by_cases hpositional : document.positional leading = true
  · obtain ⟨-, hlt⟩ := (Bool.and_eq_true _ _).mp hpositional
    have hmost : leading < 16 := of_decide_eq_true hlt
    rw [if_pos hpositional, positionalText]
    by_cases hneg : leading < 0
    · rw [if_pos hneg]
      exact ⟨⟨false, ['0'], some (zeros (-leading - 1).toNat ++ ds), none⟩, rfl,
        shows_below_one hds.ne_nil hds.digits hds.fits (by omega) hvalue,
        by simp [Numeral.chars, Numeral.fractionChars, Numeral.exponentChars, withPoint]⟩
    · rw [if_neg hneg]
      by_cases hfew : ds.length ≤ leading.toNat + 1
      · simp only [if_pos hfew]
        exact ⟨⟨false, ds ++ zeros (leading.toNat + 1 - ds.length), some ['0'], none⟩, rfl,
          shows_whole hds (by omega) (by omega) hvalue, by simp [Numeral.chars, Numeral.fractionChars,
            Numeral.exponentChars, document]⟩
      · simp only [if_neg hfew]
        exact ⟨⟨false, ds.take (leading.toNat + 1), some (ds.drop (leading.toNat + 1)), none⟩, rfl,
          shows_point hds (by omega) (by omega) (by omega) hvalue, by simp [Numeral.chars, Numeral.fractionChars,
            Numeral.exponentChars, withPoint]⟩
  · rw [if_neg hpositional]
    obtain ⟨c, rest, rfl⟩ := List.exists_cons_of_ne_nil hds.ne_nil
    have hscale : e = leading - rest.length := by
      rw [hleading, List.length_cons]
      omega
    exact ⟨_, rfl, shows_exponent hds hscale hvalue, exponentText_eq c rest leading⟩

end ShiftMesh.Json
