import ShiftMesh.Json.Printer
import ShiftMesh.Json.Token

/-!
# ShiftMesh.Proofs.Json.Numeral — reading the text of a number

* `Numeral`: a number as text, `Numeral.chars` its characters and `Numeral.written` what it says.
* `readNumber_chars`: a well-formed numeral is read as what it says, whatever follows, as long as
  what follows cannot go on the number.
* `magnitude_written`: the double of a numeral whose digits fit 64 bits.
-/

namespace ShiftMesh.Json

/-! ## Digits -/

/-- The value of a digit. -/
def digitValue (c : Char) : Nat := c.toNat - '0'.toNat

/-- A text that does not start with a digit. -/
def NoDigit (rest : List Char) : Prop := ∀ c tail, rest = c :: tail → c.isDigit = false

theorem noDigit_cons {c : Char} (h : c.isDigit = false) (tail : List Char) :
    NoDigit (c :: tail) := by
  intro c' tail' heq
  cases heq
  exact h

theorem digit?_of_isDigit {c : Char} (h : c.isDigit = true) : digit? c = some (digitValue c) := by
  have hrange : '0' ≤ c ∧ c ≤ '9' := by
    rw [Char.isDigit, Bool.and_eq_true, decide_eq_true_iff, decide_eq_true_iff] at h
    exact h
  exact if_pos hrange

theorem digit?_of_not_isDigit {c : Char} (h : c.isDigit = false) : digit? c = none := by
  have hrange : ¬ ('0' ≤ c ∧ c ≤ '9') := by
    intro hc
    rw [Char.isDigit, Bool.and_eq_false_iff, decide_eq_false_iff_not, decide_eq_false_iff_not] at h
    exact h.elim (fun hn => hn hc.1) fun hn => hn hc.2
  exact if_neg hrange

theorem spanDigits_append {ds rest : List Char} (hd : ∀ c ∈ ds, c.isDigit = true)
    (hr : NoDigit rest) : spanDigits (ds ++ rest) = (ds.map digitValue, rest) := by
  induction ds with
  | nil =>
    cases rest with
    | nil => rfl
    | cons c tail =>
      rw [List.nil_append, spanDigits, digit?_of_not_isDigit (hr c tail rfl)]
      rfl
  | cons c ds ih =>
    rw [List.cons_append, spanDigits, digit?_of_isDigit (hd c List.mem_cons_self),
      ih fun c' hc' => hd c' (List.mem_cons_of_mem _ hc')]
    rfl

theorem ofDigits_map (ds : List Char) : ofDigits (ds.map digitValue) = Nat.ofDigitChars 10 ds 0 := by
  rw [ofDigits, List.foldl_map, Nat.ofDigitChars]
  congr
  funext n c
  rw [Nat.mul_comm, digitValue]

theorem isDigit_toDigits {n : Nat} {c : Char} (h : c ∈ Nat.toDigits 10 n) : c.isDigit = true :=
  Nat.isDigit_of_mem_toDigits (by decide) (by decide) h

/-! ## Numerals -/

/-- A number as text: its digits as characters. -/
structure Numeral where
  negative : Bool
  whole : List Char
  fraction : Option (List Char)
  exponent : Option Int

namespace Numeral

/-- The characters of an exponent. -/
def exponentChars : Option Int → List Char
  | none => []
  | some e => 'e' :: (if e < 0 then '-' else '+') :: Nat.toDigits 10 e.natAbs

/-- The characters of a fraction. -/
def fractionChars : Option (List Char) → List Char
  | none => []
  | some ds => '.' :: ds

/-- The characters of a numeral. -/
def chars (t : Numeral) : List Char :=
  (if t.negative then ['-'] else []) ++
    (t.whole ++ (fractionChars t.fraction ++ exponentChars t.exponent))

/-- What a numeral says. -/
def written (t : Numeral) : WrittenNumber :=
  ⟨t.negative, t.whole.map digitValue, t.fraction.map (List.map digitValue), t.exponent⟩

/-- Digits only, at least one on each side of a point, and no zero before other whole digits. -/
structure WellFormed (t : Numeral) : Prop where
  whole_ne_nil : t.whole ≠ []
  whole_digits : ∀ c ∈ t.whole, c.isDigit = true
  no_leading_zero : ∀ rest, t.whole = '0' :: rest → rest = []
  fraction_ne_nil : t.fraction ≠ some []
  fraction_digits : ∀ ds, t.fraction = some ds → ∀ c ∈ ds, c.isDigit = true

end Numeral

/-- A text that cannot go on a number: it starts with none of a digit, a point and an exponent
letter. -/
def EndsNumber (rest : List Char) : Prop :=
  ∀ c tail, rest = c :: tail → c.isDigit = false ∧ c ≠ '.' ∧ c ≠ 'e' ∧ c ≠ 'E'

theorem endsNumber_nil : EndsNumber [] := fun _ _ h => nomatch h

theorem endsNumber_cons {c : Char} (h : c.isDigit = false ∧ c ≠ '.' ∧ c ≠ 'e' ∧ c ≠ 'E')
    (tail : List Char) : EndsNumber (c :: tail) := by
  intro c' tail' heq
  cases heq
  exact h

namespace EndsNumber

variable {rest : List Char}

theorem noDigit (h : EndsNumber rest) : NoDigit rest := fun c tail heq => (h c tail heq).1

/-- An exponent after a number's digits, or nothing. -/
theorem readExponent_append (h : EndsNumber rest) (e : Option Int) :
    readExponent (Numeral.exponentChars e ++ rest) = .ok (e, rest) := by
  cases e with
  | none =>
    cases rest with
    | nil => rfl
    | cons c tail =>
      obtain ⟨-, -, he, hE⟩ := h c tail rfl
      rw [Numeral.exponentChars, List.nil_append, readExponent, if_neg (not_or.mpr ⟨he, hE⟩)]
  | some e =>
    have hspan := spanDigits_append (fun c => isDigit_toDigits (n := e.natAbs) (c := c)) h.noDigit
    have hvalue : ofDigits ((Nat.toDigits 10 e.natAbs).map digitValue) = e.natAbs := by
      rw [ofDigits_map, Nat.ofDigitChars_ten_toDigits]
    cases hds : (Nat.toDigits 10 e.natAbs).map digitValue with
    | nil => exact absurd (List.map_eq_nil_iff.mp hds) Nat.toDigits_ne_nil
    | cons d ds =>
      rw [hds] at hspan hvalue
      by_cases hneg : e < 0
      · have hvalue' : -(ofDigits (d :: ds) : Int) = e := by omega
        rw [Numeral.exponentChars, if_pos hneg]
        simp only [List.cons_append, readExponent, true_or, if_true, readSign, hspan, hvalue']
      · have hvalue' : (ofDigits (d :: ds) : Int) = e := by omega
        rw [Numeral.exponentChars, if_neg hneg]
        simp only [List.cons_append, readExponent, true_or, if_true, readSign, hspan, hvalue',
          Bool.false_eq_true, if_false]

/-- What follows the digits of a fraction is no digit. -/
theorem noDigit_exponent (h : EndsNumber rest) (e : Option Int) :
    NoDigit (Numeral.exponentChars e ++ rest) := by
  cases e with
  | none => exact h.noDigit
  | some e => exact noDigit_cons (by decide) _

end EndsNumber

namespace Numeral

variable {t : Numeral} {rest : List Char}

theorem readFraction_append (h : t.WellFormed) (hr : EndsNumber rest) :
    readFraction (fractionChars t.fraction ++ (exponentChars t.exponent ++ rest)) =
      .ok (t.written.fraction, exponentChars t.exponent ++ rest) := by
  cases hf : t.fraction with
  | none =>
    rw [written, hf, fractionChars, List.nil_append]
    cases he : t.exponent with
    | none =>
      cases rest with
      | nil => rfl
      | cons c tail =>
        rw [exponentChars, List.nil_append, readFraction]
        · rfl
        · intro tail' heq
          cases heq
          exact (hr '.' _ rfl).2.1 rfl
    | some e => rfl
  | some ds =>
    have hspan := spanDigits_append (h.fraction_digits ds hf) (hr.noDigit_exponent t.exponent)
    rw [written, hf, fractionChars, List.cons_append, readFraction, hspan]
    cases ds with
    | nil => exact absurd hf h.fraction_ne_nil
    | cons d ds => rfl

/-- What follows the whole digits is no digit. -/
theorem noDigit_fraction (hr : EndsNumber rest) :
    NoDigit (fractionChars t.fraction ++ (exponentChars t.exponent ++ rest)) := by
  cases t.fraction with
  | none => exact hr.noDigit_exponent t.exponent
  | some ds => exact noDigit_cons (by decide) _

theorem digitValue_eq_zero {c : Char} (h : c.isDigit = true) (hz : digitValue c = 0) : c = '0' := by
  have hrange := Char.isDigit_iff_toNat.mp h
  have hnat : c.toNat = '0'.toNat := by
    rw [digitValue] at hz
    omega
  exact Char.toNat_inj.mp hnat

/-- The digits that a well-formed numeral begins with. -/
theorem whole_of_wellFormed (h : t.WellFormed) :
    t.written.whole ≠ [] ∧ ∀ d ds, t.written.whole ≠ 0 :: d :: ds := by
  refine ⟨fun heq => h.whole_ne_nil (List.map_eq_nil_iff.mp heq), fun d ds heq => ?_⟩
  obtain ⟨c, cs, hw, hc, hcs⟩ := List.map_eq_cons_iff.mp heq
  have hdigit := h.whole_digits c (by rw [hw]; exact List.mem_cons_self)
  have hnil := h.no_leading_zero cs (by rw [hw, digitValue_eq_zero hdigit hc])
  rw [hnil] at hcs
  cases hcs

theorem readUnsigned_append (h : t.WellFormed) (hr : EndsNumber rest) :
    readUnsigned t.negative
        (t.whole ++ (fractionChars t.fraction ++ (exponentChars t.exponent ++ rest))) =
      t.written.toNumber.map fun n => (n, rest) := by
  have hspan := spanDigits_append h.whole_digits (t.noDigit_fraction hr)
  obtain ⟨hne, hzero⟩ := whole_of_wellFormed h
  have hwhole : t.whole.map digitValue = t.written.whole := rfl
  rw [readUnsigned, hspan, hwhole]
  split
  case h_1 heq => exact absurd (congrArg Prod.fst heq) hne
  case h_2 heq => exact absurd (congrArg Prod.fst heq) (hzero _ _)
  case h_3 heq =>
    cases heq
    simp only [readFraction_append h hr, hr.readExponent_append]
    rfl

/-- A well-formed numeral is read as what it says. -/
theorem readNumber_chars (h : t.WellFormed) (hr : EndsNumber rest) :
    readNumber (t.chars ++ rest) = t.written.toNumber.map fun n => (n, rest) := by
  have hunsigned := readUnsigned_append h hr
  rw [chars, List.append_assoc, List.append_assoc, List.append_assoc]
  cases hn : t.negative with
  | true =>
    rw [hn] at hunsigned
    exact hunsigned
  | false =>
    rw [hn] at hunsigned
    obtain ⟨c, cs, hw⟩ := List.exists_cons_of_ne_nil h.whole_ne_nil
    have hminus : c ≠ '-' := by
      intro heq
      have hdigit := h.whole_digits c (by rw [hw]; exact List.mem_cons_self)
      rw [heq] at hdigit
      cases hdigit
    rw [if_neg Bool.false_ne_true, List.nil_append, ← hunsigned, hw, List.cons_append, readNumber]
    intro rest' heq
    cases heq
    exact hminus rfl

/-- What follows the sign says one thing only. -/
theorem written_of_unsigned {u : Numeral} (ht : t.WellFormed) (hu : u.WellFormed)
    (h : t.whole ++ (fractionChars t.fraction ++ exponentChars t.exponent) =
      u.whole ++ (fractionChars u.fraction ++ exponentChars u.exponent)) :
    t.written.whole = u.written.whole ∧ t.written.fraction = u.written.fraction ∧
      t.exponent = u.exponent := by
  have hwhole := spanDigits_append ht.whole_digits (t.noDigit_fraction endsNumber_nil)
  have hwhole' := spanDigits_append hu.whole_digits (u.noDigit_fraction endsNumber_nil)
  have hfraction := readFraction_append ht endsNumber_nil
  have hfraction' := readFraction_append hu endsNumber_nil
  have hexponent := endsNumber_nil.readExponent_append t.exponent
  have hexponent' := endsNumber_nil.readExponent_append u.exponent
  rw [List.append_nil] at hwhole hwhole' hfraction hfraction' hexponent hexponent'
  rw [h, hwhole'] at hwhole
  obtain ⟨hsame, hrest⟩ := Prod.mk.inj hwhole
  rw [← hrest, hfraction'] at hfraction
  obtain ⟨hsame', hrest'⟩ := Prod.mk.inj (Except.ok.inj hfraction)
  rw [← hrest', hexponent'] at hexponent
  exact ⟨hsame.symm, hsame'.symm, (Prod.mk.inj (Except.ok.inj hexponent)).1.symm⟩

/-- Well-formed numerals with the same text say the same. -/
theorem written_of_chars {u : Numeral} (ht : t.WellFormed) (hu : u.WellFormed)
    (h : t.chars = u.chars) : t.written = u.written := by
  have hminus : ∀ {v : Numeral}, v.WellFormed → ∀ cs : List Char,
      '-' :: cs ≠ v.whole ++ (fractionChars v.fraction ++ exponentChars v.exponent) := by
    intro v hv cs heq
    obtain ⟨c, rest, hw⟩ := List.exists_cons_of_ne_nil hv.whole_ne_nil
    have hdigit := hv.whole_digits c (by rw [hw]; exact List.mem_cons_self)
    rw [hw, List.cons_append] at heq
    rw [← (List.cons.inj heq).1] at hdigit
    cases hdigit
  rw [chars, chars] at h
  have hparts : t.negative = u.negative ∧
      t.whole ++ (fractionChars t.fraction ++ exponentChars t.exponent) =
        u.whole ++ (fractionChars u.fraction ++ exponentChars u.exponent) := by
    cases hn : t.negative <;> cases hn' : u.negative <;> rw [hn, hn'] at h
    · exact ⟨rfl, h⟩
    · exact absurd h.symm (hminus ht _)
    · exact absurd h (hminus hu _)
    · exact ⟨rfl, (List.cons.inj h).2⟩
  obtain ⟨hwhole, hfraction, hexponent⟩ := written_of_unsigned ht hu hparts.2
  have hsplit : ∀ v : Numeral,
      v.written = ⟨v.negative, v.written.whole, v.written.fraction, v.exponent⟩ := fun _ => rfl
  rw [hsplit t, hsplit u, hparts.1, hwhole, hfraction, hexponent]

end Numeral

/-! ## The digits taken -/

theorem le_ofDigitChars (ds : List Char) (s : Nat) : s ≤ Nat.ofDigitChars 10 ds s := by
  induction ds generalizing s with
  | nil => exact Nat.le_refl s
  | cons c ds ih =>
    rw [Nat.ofDigitChars_cons]
    have := ih (10 * s + (c.toNat - '0'.toNat))
    omega

/-- Digits are taken as long as the result fits 64 bits. -/
theorem takeDigits_map (ds : List Char) (s : Nat) (h : Nat.ofDigitChars 10 ds s < Nat.pow 2 64) :
    WrittenNumber.takeDigits s (ds.map digitValue) = (Nat.ofDigitChars 10 ds s, []) := by
  induction ds generalizing s with
  | nil => rfl
  | cons c ds ih =>
    rw [Nat.ofDigitChars_cons] at h ⊢
    have hstep : 10 * s + (c.toNat - '0'.toNat) = s * 10 + digitValue c := by
      rw [digitValue, Nat.mul_comm]
    have hlt := Nat.lt_of_le_of_lt (le_ofDigitChars ds _) h
    rw [hstep] at h hlt ⊢
    rw [List.map_cons, WrittenNumber.takeDigits, if_pos hlt]
    exact ih _ h

/-- The digits of a numeral as one number. -/
def Numeral.digits (t : Numeral) : List Char := t.whole ++ t.fraction.getD []

/-- The power of ten of a numeral's last digit. -/
def Numeral.scale (t : Numeral) : Int := t.exponent.getD 0 - (t.fraction.getD []).length

/-- What a numeral says determines its digits and their scale. -/
theorem Numeral.digits_of_written {t u : Numeral} (h : t.written = u.written) :
    Nat.ofDigitChars 10 t.digits 0 = Nat.ofDigitChars 10 u.digits 0 ∧ t.scale = u.scale := by
  have hfraction : ∀ v : Numeral,
      (v.fraction.getD []).map digitValue = v.written.fraction.getD [] := fun v => by
    rw [written]
    cases v.fraction <;> rfl
  have hdigits : ∀ v : Numeral, Nat.ofDigitChars 10 v.digits 0 =
      ofDigits (v.written.whole ++ v.written.fraction.getD []) := fun v => by
    rw [← hfraction, ← ofDigits_map, digits, List.map_append]
    rfl
  have hscale : ∀ v : Numeral,
      v.scale = v.written.exponent.getD 0 - (v.written.fraction.getD []).length := fun v => by
    rw [← hfraction, List.length_map]
    rfl
  rw [hdigits t, hdigits u, hscale t, hscale u, h]
  exact ⟨rfl, rfl⟩

/-- The double of a numeral all of whose digits are taken. -/
theorem magnitude_written {t : Numeral} (h : Nat.ofDigitChars 10 t.digits 0 < Nat.pow 2 64) :
    t.written.magnitude =
      WrittenNumber.scaleByPower (Nat.ofDigitChars 10 t.digits 0) t.scale := by
  have hfraction : t.written.fraction.getD [] = (t.fraction.getD []).map digitValue := by
    rw [Numeral.written]
    cases t.fraction <;> rfl
  rw [Numeral.digits, Nat.ofDigitChars_append] at h ⊢
  have hwhole := takeDigits_map t.whole 0 (Nat.lt_of_le_of_lt (le_ofDigitChars _ _) h)
  have hall := takeDigits_map (t.fraction.getD []) _ h
  have hscale : ((0 : Nat) : Int) - ((t.fraction.getD []).length - 0 : Nat) + t.exponent.getD 0 =
      t.scale := by
    rw [Numeral.scale]
    omega
  have hw : t.written.whole = t.whole.map digitValue := rfl
  rw [WrittenNumber.magnitude, hw, hwhole]
  simp only [hfraction, hall, List.length_map, List.length_nil]
  rw [← hscale]
  rfl

/-- A numeral with a point or an exponent is read as its double, if it has one. -/
theorem toNumber_written {t : Numeral} (h : t.fraction.isSome ∨ t.exponent.isSome) :
    t.written.toNumber =
      match t.written.magnitude with
      | none => .error .numberOutOfRange
      | some f => .ok (.double (if t.negative then -f else f)) := by
  have hpart : t.written.fraction ≠ none ∨ t.written.exponent ≠ none := by
    rw [Numeral.written]
    refine h.imp (fun hs heq => ?_) fun hs heq => ?_
    · rw [Option.map_eq_none_iff.mp heq] at hs
      cases hs
    · have hnone : t.exponent = none := heq
      rw [hnone] at hs
      cases hs
  rw [WrittenNumber.toNumber]
  split
  case h_1 hfraction hexponent _ =>
    exact absurd hpart (not_or.mpr ⟨not_not_intro hfraction, not_not_intro hexponent⟩)
  case h_2 => rfl

/-! ## Whole numbers -/

/-- The numeral of a whole number. -/
def wholeNumeral (n : Int) : Numeral := ⟨decide (n < 0), Nat.toDigits 10 n.natAbs, none, none⟩

theorem toDigits_ne_zero {n : Nat} (h : 0 < n) (rest : List Char) :
    Nat.toDigits 10 n ≠ '0' :: rest := by
  induction n using Nat.strongRecOn generalizing rest with
  | _ n ih =>
    by_cases hlt : n < 10
    · have hchar : ∀ m < 10, 0 < m → Nat.digitChar m ≠ '0' := by decide
      rw [Nat.toDigits_of_lt_base hlt]
      intro heq
      exact hchar n hlt h (List.cons.inj heq).1
    · have hdiv : 0 < n / 10 := by omega
      obtain ⟨c, cs, hcs⟩ := List.exists_cons_of_ne_nil (Nat.toDigits_ne_nil (n := n / 10) (b := 10))
      rw [Nat.toDigits_of_base_le (by decide) (Nat.not_lt.mp hlt), hcs]
      intro heq
      rw [List.cons_append, List.cons.injEq] at heq
      exact ih (n / 10) (by omega) hdiv cs (by rw [hcs, heq.1])

theorem wholeNumeral_wellFormed (n : Int) : (wholeNumeral n).WellFormed where
  whole_ne_nil := Nat.toDigits_ne_nil
  whole_digits _ := isDigit_toDigits
  no_leading_zero rest heq := by
    rcases Nat.eq_zero_or_pos n.natAbs with hz | hpos
    · rw [wholeNumeral, hz, Nat.toDigits_zero] at heq
      exact (List.cons.inj heq).2.symm
    · exact absurd heq (toDigits_ne_zero hpos rest)
  fraction_ne_nil h := nomatch h
  fraction_digits _ h := nomatch h

/-- The whole numbers that a JSON number can be. -/
def Number.InRange (n : Int) : Prop := -Nat.pow 2 63 ≤ n ∧ n < Nat.pow 2 64

theorem toNumber_wholeNumeral {n : Int} (h : Number.InRange n) :
    (wholeNumeral n).written.toNumber = .ok (.whole n) := by
  obtain ⟨hlow, hhigh⟩ := h
  have h63 : Nat.pow 2 63 < Nat.pow 2 64 := by decide
  have hvalue : Nat.ofDigitChars 10 (Nat.toDigits 10 n.natAbs) 0 = n.natAbs :=
    Nat.ofDigitChars_ten_toDigits
  have hdigits := takeDigits_map (Nat.toDigits 10 n.natAbs) 0 (by rw [hvalue]; omega)
  rw [hvalue] at hdigits
  have hwritten : (wholeNumeral n).written =
      ⟨decide (n < 0), (Nat.toDigits 10 n.natAbs).map digitValue, none, none⟩ := rfl
  rw [hwritten, WrittenNumber.toNumber]
  simp only [hdigits]
  by_cases hneg : n < 0
  · have hrange : 0 < n.natAbs ∧ n.natAbs ≤ Nat.pow 2 63 := by omega
    rw [if_pos (decide_eq_true hneg), if_pos hrange]
    have : -(n.natAbs : Int) = n := by omega
    rw [this]
  · rw [if_neg fun heq => hneg (of_decide_eq_true heq)]
    have : (n.natAbs : Int) = n := by omega
    rw [this]

theorem print_whole (n : Int) : (Number.whole n).print = (wholeNumeral n).chars := by
  rw [Number.print, Numeral.chars, wholeNumeral]
  by_cases hneg : n < 0
  · rw [if_pos hneg, decide_eq_true hneg, if_pos rfl]
    simp only [Numeral.fractionChars, Numeral.exponentChars, List.append_nil, List.cons_append,
      List.nil_append]
  · rw [if_neg hneg, decide_eq_false hneg, if_neg Bool.false_ne_true]
    simp only [Numeral.fractionChars, Numeral.exponentChars, List.append_nil, List.nil_append]

/-- A whole number reads back as itself. -/
theorem readNumber_whole {n : Int} (h : Number.InRange n) {rest : List Char}
    (hr : EndsNumber rest) :
    readNumber ((Number.whole n).print ++ rest) = .ok (.whole n, rest) := by
  rw [print_whole, Numeral.readNumber_chars (wholeNumeral_wellFormed n) hr,
    toNumber_wholeNumeral h]
  rfl

end ShiftMesh.Json
