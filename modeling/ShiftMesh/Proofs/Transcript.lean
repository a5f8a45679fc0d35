import Mathlib
import ShiftMesh.Command.Program
import ShiftMesh.Proofs.Container.Opening
import ShiftMesh.Proofs.Decimal.Plain
import ShiftMesh.Proofs.Report
import ShiftMesh.Proofs.Text.Parts

/-!
# ShiftMesh.Proofs.Transcript — what a run over lines or arguments writes before it stops

* `Makes`, `Refuses`: fields that make a coordinate, and why others make none; `parseCoordinate_eq_ok_iff`
  and `parseCoordinate_eq_error_iff`: the parser answers so.
* `Silent`: lines that ask for nothing.
* `Form`: how lines and arguments ask for coordinates.
* `Answered`: an evaluator answers coordinates in order, its state handed from one to the next.
* `StopsAt`: what follows the items that were answered, with the fault that it calls for.
* `Follows`: a transcript of items: answers to those that ask for something, up to the first one that is no
  coordinate or cannot be looked up.  `Follows.skip`, `Follows.answer`: one item; `Form.follows`: all of them.
* `Transforms`: an outcome that records such a transcript.
* `not_mem_answerLine`, `makes_answerLine`: the line of an answer is one line, and that of a coordinate makes it.
* `PlainFields`: fields that are found again between commas and between blanks; so arguments and lines with
  the same fields are transformed alike (`transformEach_onLines`, `Alike`).
* `transform_prefix_exact`: both ways to run, and the program around them.
-/

namespace ShiftMesh.Command

open Text (isBlank)

/-! ## Coordinates -/

/-- The field is a number, blanks around it aside. -/
def Spells (field : List Char) (x : Float) : Prop := Decimal.readDecimal (Text.trim field) = .ok x

/-- Two or three fields, all of them numbers, make a coordinate; a missing height is zero. -/
def Makes (fields : List (List Char)) (c : Coordinate Float) : Prop :=
  ∃ numbers, List.Forall₂ Spells fields numbers ∧
    (numbers = [c.x, c.y] ∧ c.z = 0.0 ∨ numbers = [c.x, c.y, c.z])

theorem readFields_eq_ok_iff : ∀ {fields : List (List Char)} {numbers : List Float},
    readFields fields = .ok numbers ↔ List.Forall₂ Spells fields numbers
  | [], numbers => by
    rw [readFields, List.forall₂_nil_left_iff]
    exact ⟨fun h => (Except.ok.inj h).symm, fun h => by rw [h]⟩
  | field :: rest, numbers => by
    rw [readFields, List.forall₂_cons_left_iff]
    cases hfield : Decimal.readDecimal (Text.trim field) with
    | error fault =>
      refine ⟨nofun, ?_⟩
      rintro ⟨x, xs, hx, -⟩
      rw [Spells, hfield] at hx
      cases hx
    | ok x =>
      cases hrest : readFields rest with
      | error fault =>
        refine ⟨nofun, ?_⟩
        rintro ⟨x', xs, -, hxs, -⟩
        rw [← readFields_eq_ok_iff, hrest] at hxs
        cases hxs
      | ok xs =>
        have hxs := readFields_eq_ok_iff.mp hrest
        refine ⟨fun h => ⟨x, xs, hfield, hxs, (Except.ok.inj h).symm⟩, ?_⟩
        rintro ⟨x', xs', hx', hxs', rfl⟩
        rw [Spells, hfield] at hx'
        rw [← readFields_eq_ok_iff, hrest] at hxs'
        cases hx'
        cases hxs'
        rfl

/-- The parser succeeds exactly with what the fields make. -/
theorem parseCoordinate_eq_ok_iff {fields : List (List Char)} {c : Coordinate Float} :
    parseCoordinate fields = .ok c ↔ Makes fields c := by
  rw [parseCoordinate]
  constructor
  · intro h
    cases hnumbers : readFields (fields.take 3) with
    | error fault =>
      rw [hnumbers] at h
      cases h
    | ok numbers =>
      have hspelled := readFields_eq_ok_iff.mp hnumbers
      have hlength := hspelled.length_eq
      rw [hnumbers] at h
      simp only at h
      split at h
      · -- two numbers, so no field was left out
        rw [List.length_take, List.length_cons, List.length_singleton] at hlength
        rw [List.take_of_length_le (by omega)] at hspelled
        cases h
        exact ⟨_, hspelled, Or.inl ⟨rfl, rfl⟩⟩
      · split_ifs at h with hcount
        rw [List.take_of_length_le hcount] at hspelled
        cases h
        exact ⟨_, hspelled, Or.inr rfl⟩
      · cases h
  · rintro ⟨numbers, hspelled, hnumbers⟩
    have hlength := hspelled.length_eq
    have hcount : fields.length ≤ 3 := by
      rcases hnumbers with ⟨rfl, -⟩ | rfl
      · exact hlength.trans_le (Nat.le_succ 2)
      · exact hlength.le
    rw [List.take_of_length_le hcount, readFields_eq_ok_iff.mpr hspelled]
    rcases hnumbers with ⟨rfl, hz⟩ | rfl
    · simp only [← hz]
    · simp only [if_pos hcount]


/-- Why fields make no coordinate: the first of the first three that is no number, else too few of them,
else a fourth one. -/
inductive Refuses : List (List Char) → CoordinateFault → Prop
  | invalidNumber {before : List (List Char)} {field : List Char} {rest : List (List Char)}
      {numbers : List Float} {fault : Decimal.ReadFault} :
      before.length < 3 → List.Forall₂ Spells before numbers →
      Decimal.readDecimal (Text.trim field) = .error fault →
      Refuses (before ++ field :: rest) (.invalidNumber field fault)
  | tooFew {fields : List (List Char)} {numbers : List Float} :
      List.Forall₂ Spells fields numbers → fields.length < 2 → Refuses fields (.tooFew fields.length)
  | tooMany {first rest : List (List Char)} {numbers : List Float} :
      List.Forall₂ Spells first numbers → first.length = 3 → rest ≠ [] → Refuses (first ++ rest) .tooMany

theorem readFields_eq_error_iff : ∀ {fields : List (List Char)} {fault : CoordinateFault},
    readFields fields = .error fault ↔ ∃ before field rest numbers cause, fields = before ++ field :: rest ∧
      List.Forall₂ Spells before numbers ∧ Decimal.readDecimal (Text.trim field) = .error cause ∧
        fault = .invalidNumber field cause
  | [], fault => by
    refine ⟨nofun, ?_⟩
    rintro ⟨before, field, rest, -, -, hfields, -⟩
    cases before <;> cases hfields
  | field :: rest, fault => by
    rw [readFields]
    cases hfield : Decimal.readDecimal (Text.trim field) with
    | error cause =>
      constructor
      · rintro ⟨⟩
        exact ⟨[], field, rest, [], cause, rfl, .nil, hfield, rfl⟩
      · rintro ⟨before, field', rest', numbers, cause', hfields, hbefore, hcause, rfl⟩
        cases hbefore with
        | nil =>
          cases hfields
          rw [hfield] at hcause
          cases hcause
          rfl
        | cons hspells _ =>
          cases hfields
          rw [Spells, hfield] at hspells
          cases hspells
    | ok x =>
      have hmap : (readFields rest).map (x :: ·) = .error fault ↔ readFields rest = .error fault := by
        cases readFields rest <;> simp [Except.map]
      simp only
      rw [hmap, readFields_eq_error_iff]
      constructor
      · rintro ⟨before, field', rest', numbers, cause, rfl, hbefore, hcause, hfault⟩
        exact ⟨field :: before, field', rest', x :: numbers, cause, rfl, .cons hfield hbefore, hcause, hfault⟩
      · rintro ⟨before, field', rest', numbers, cause, hfields, hbefore, hcause, hfault⟩
        cases hbefore with
        | nil =>
          cases hfields
          rw [hfield] at hcause
          cases hcause
        | @cons _ _ before numbers _ hbefore =>
          cases hfields
          exact ⟨before, field', rest', numbers, cause, rfl, hbefore, hcause, hfault⟩

/-- The parser fails exactly with what the fields are refused for. -/
theorem parseCoordinate_eq_error_iff {fields : List (List Char)} {fault : CoordinateFault} :
    parseCoordinate fields = .error fault ↔ Refuses fields fault := by
  constructor
  · intro h
    have hsplit := List.take_append_drop 3 fields
    rw [parseCoordinate] at h
    cases hnumbers : readFields (fields.take 3) with
    | error cause =>
      rw [hnumbers] at h
      cases h
      obtain ⟨before, field, rest, numbers, cause, htake, hbefore, hcause, rfl⟩ :=
        readFields_eq_error_iff.mp hnumbers
      have hcount := congrArg List.length htake
      rw [List.length_take, List.length_append, List.length_cons] at hcount
      rw [← hsplit, htake, List.append_assoc, List.cons_append]
      exact .invalidNumber (by omega) hbefore hcause
    | ok numbers =>
      have hspelled := readFields_eq_ok_iff.mp hnumbers
      have hlength := hspelled.length_eq
      rw [hnumbers] at h
      rw [List.length_take] at hlength
      simp only at h
      split at h
      · cases h
      · split_ifs at h with hcount
        cases h
        rw [List.length_cons, List.length_cons, List.length_singleton] at hlength
        have hrest : fields.drop 3 ≠ [] := fun hnil => hcount (List.drop_eq_nil_iff.mp hnil)
        rw [← hsplit]
        exact .tooMany hspelled (by rw [List.length_take]; omega) hrest
      · rename_i htwo hthree
        have hfew : numbers.length < 2 := by
          rcases numbers with _ | ⟨x, _ | ⟨y, _ | ⟨z, _ | _⟩⟩⟩
          · exact Nat.zero_lt_two
          · exact Nat.one_lt_two
          · exact absurd rfl (htwo x y)
          · exact absurd rfl (hthree x y z)
          · rw [List.length_cons, List.length_cons, List.length_cons, List.length_cons] at hlength
            omega
        cases h
        rw [List.take_of_length_le (by omega)] at hspelled
        rw [← hspelled.length_eq] at hfew ⊢
        exact .tooFew hspelled hfew
  · intro h
    cases h with
    | @invalidNumber before field rest numbers cause hcount hbefore hcause =>
      have hread : readFields ((before ++ field :: rest).take 3) = .error (.invalidNumber field cause) := by
        refine readFields_eq_error_iff.mpr
          ⟨before, field, rest.take (3 - before.length - 1), numbers, cause, ?_, hbefore, hcause, rfl⟩
        rw [List.take_append, List.take_of_length_le hcount.le, List.take_cons (by omega)]
      rw [parseCoordinate, hread]
    | @tooFew _ numbers hspelled hfew =>
      rw [parseCoordinate, List.take_of_length_le (by omega), readFields_eq_ok_iff.mpr hspelled]
      rw [hspelled.length_eq] at hfew ⊢
      rcases numbers with _ | ⟨x, _ | ⟨y, numbers⟩⟩
      · rfl
      · rfl
      · rw [List.length_cons, List.length_cons] at hfew
        omega
    | @tooMany first rest numbers hspelled hcount hrest =>
      have htake : (first ++ rest).take 3 = first := by rw [← hcount, List.take_left]
      have hmore : ¬ (first ++ rest).length ≤ 3 := by
        have := List.length_pos_iff.mpr hrest
        rw [List.length_append]
        omega
      obtain ⟨x, y, z, rfl⟩ := List.length_eq_three.mp (hspelled.length_eq.symm.trans hcount)
      rw [parseCoordinate, htake, readFields_eq_ok_iff.mpr hspelled]
      simp only [if_neg hmore]


/-! ## Lines that ask for nothing -/

/-- The line is blank, or its first character that is not blank starts a comment. -/
def Silent (line : List Char) : Prop :=
  (∀ c ∈ line, isBlank c = true) ∨
    ∃ blanks rest, line = blanks ++ '#' :: rest ∧ ∀ c ∈ blanks, isBlank c = true

/-- A blank at the start makes no difference. -/
theorem silent_cons_of_blank {c : Char} {rest : List Char} (hc : isBlank c = true) :
    Silent (c :: rest) ↔ Silent rest := by
  constructor
  · rintro (hblank | ⟨blanks, comment, hline, hblanks⟩)
    · exact Or.inl (List.forall_mem_cons.mp hblank).2
    · cases blanks with
      | nil =>
        injection hline with hsign
        rw [hsign] at hc
        exact absurd hc (by decide)
      | cons b blanks =>
        injection hline with _ hrest
        exact Or.inr ⟨blanks, comment, hrest, (List.forall_mem_cons.mp hblanks).2⟩
  · rintro (hblank | ⟨blanks, comment, hline, hblanks⟩)
    · exact Or.inl (List.forall_mem_cons.mpr ⟨hc, hblank⟩)
    · exact Or.inr ⟨c :: blanks, comment, by rw [hline]; rfl, List.forall_mem_cons.mpr ⟨hc, hblanks⟩⟩

theorem silent_cons_of_not_blank {c : Char} {rest : List Char} (hc : ¬ isBlank c = true) :
    Silent (c :: rest) ↔ c = '#' := by
  constructor
  · rintro (hblank | ⟨blanks, comment, hline, hblanks⟩)
    · exact absurd (hblank c List.mem_cons_self) hc
    · cases blanks with
      | nil => exact (List.cons_eq_cons.mp hline).1
      | cons b blanks =>
        rw [(List.cons_eq_cons.mp hline).1] at hc
        exact absurd (hblanks b List.mem_cons_self) hc
  · rintro rfl
    exact Or.inr ⟨[], rest, rfl, nofun⟩

theorem isSkipped_iff : ∀ {line : List Char}, isSkipped line = true ↔ Silent line
  | [] => ⟨fun _ => Or.inl nofun, fun _ => rfl⟩
  | c :: rest => by
    by_cases hc : isBlank c = true
    · rw [silent_cons_of_blank hc, ← isSkipped_iff, isSkipped, isSkipped, Text.trimStart,
        List.dropWhile_cons_of_pos hc]
      rfl
    · rw [silent_cons_of_not_blank hc, isSkipped, Text.trimStart, List.dropWhile_cons_of_neg hc]
      exact beq_iff_eq


instance : DecidablePred Silent := fun _ => decidable_of_iff _ isSkipped_iff

/-! ## Lines and arguments -/

/-- How items ask for coordinates: the fields of one that asks for something, and what a fault of the item
of a number is as an error. -/
structure Form where
  fields? : List Char → Option (List (List Char))
  error : ℕ → CoordinateFault → CommandError

namespace Form

/-- Lines have their fields between blanks, and some lines ask for nothing. -/
def lines : Form where
  fields? line := if Silent line then none else some (Text.fields line)
  error := .badLine

/-- Arguments have their fields between commas, and all of them ask for something. -/
def arguments : Form where
  fields? arg := some (arg.splitOn ',')
  error _ := .badArgument

variable (form : Form)

/-- What an item asks for, if it asks for anything. -/
def item? (n : ℕ) (item : List Char) : Option (Except CommandError (Coordinate Float)) :=
  (form.fields? item).map fun fields => (parseCoordinate fields).mapError (form.error n)

/-- What items ask for, numbered from `first` on. -/
def items : (first : ℕ) → List (List Char) → List (Except CommandError (Coordinate Float))
  | _, [] => []
  | n, item :: rest => (form.item? n item).toList ++ items (n + 1) rest

end Form

theorem fields?_of_silent {line : List Char} (h : Silent line) : Form.lines.fields? line = none := if_pos h

theorem fields?_of_not_silent {line : List Char} (h : ¬ Silent line) :
    Form.lines.fields? line = some (Text.fields line) := if_neg h

theorem ofLine?_eq (n : ℕ) (line : List Char) : ofLine? n line = Form.lines.item? n line := by
  rw [Form.item?]
  by_cases hsilent : Silent line
  · rw [ofLine?, if_pos (isSkipped_iff.mpr hsilent), fields?_of_silent hsilent]
    rfl
  · rw [ofLine?, if_neg (mt isSkipped_iff.mp hsilent), fields?_of_not_silent hsilent, Text.words_eq_fields,
      Option.map_some]
    cases parseCoordinate (Text.fields line) <;> rfl

theorem ofLines_eq : ∀ (first : ℕ) (lines : List (List Char)),
    ofLines first lines = Form.lines.items first lines
  | _, [] => rfl
  | n, line :: rest => by rw [ofLines, Form.items, ofLine?_eq, ofLines_eq (n + 1) rest]

theorem map_ofArgument_eq : ∀ (first : ℕ) (args : List (List Char)),
    args.map ofArgument = Form.arguments.items first args
  | _, [] => rfl
  | n, arg :: rest => by
    have harg : some (ofArgument arg) = Form.arguments.item? n arg := by
      rw [ofArgument, Text.split_eq_splitOnP]
      change _ = some ((parseCoordinate (arg.splitOnP (· == ','))).mapError CommandError.badArgument)
      cases parseCoordinate (arg.splitOnP (· == ',')) <;> rfl
    rw [Form.items, ← harg, List.map_cons, map_ofArgument_eq (n + 1) rest]
    rfl

/-! ## Runs -/

/-- What answers coordinates: a function of a state that it leaves changed. -/
abbrev Evaluator (σ : Type) := σ → Coordinate Float → Except MeshError (Option (Coordinate Float)) × σ

/-- The line of an answer: three numbers, infinities if there is no coordinate. -/
def answerLine : Option (Coordinate Float) → String
  | none => "inf inf inf"
  | some c =>
    let number := Decimal.Layout.plain.render
    number c.x ++ " " ++ number c.y ++ " " ++ number c.z

theorem answerText_eq (answer : Option (Coordinate Float)) : answerText answer = answerLine answer := by
  cases answer with
  | none => decide +kernel
  | some c => rfl

section Runs

variable {σ : Type} {form : Form} {apply : Evaluator σ}

/-- The evaluator answers coordinates one after the other, its state handed from one to the next. -/
inductive Answered (apply : Evaluator σ) :
    σ → List (Coordinate Float) → List (Option (Coordinate Float)) → σ → Prop
  | none (state : σ) : Answered apply state [] [] state
  | next {state after last : σ} {c : Coordinate Float} {answer : Option (Coordinate Float)}
      {cs : List (Coordinate Float)} {answers : List (Option (Coordinate Float))} :
      apply state c = (.ok answer, after) → Answered apply after cs answers last →
      Answered apply state (c :: cs) (answer :: answers) last

/-- What stands after the items that were answered, `number` being that of the next item, and the fault that
it calls for. -/
inductive StopsAt (form : Form) (apply : Evaluator σ)
    (state : σ) (number : ℕ) : List (List Char) → Option CommandError → Prop
  | finished : StopsAt form apply state number [] none
  | unreadable {item : List Char} {rest fields : List (List Char)} {fault : CoordinateFault} :
      form.fields? item = some fields → Refuses fields fault →
      StopsAt form apply state number (item :: rest) (some (form.error number fault))
  | failed {item : List Char} {rest fields : List (List Char)} {c : Coordinate Float} {e : MeshError} :
      form.fields? item = some fields → Makes fields c → (apply state c).1 = .error e →
      StopsAt form apply state number (item :: rest) (some (.lookup e))

/-- The transcript of a run over items, numbered from `first` on: the answers to those that ask for something,
up to the first one that is no coordinate or whose lookup fails. -/
def Follows (form : Form) (apply : Evaluator σ)
    (state : σ) (first : ℕ) (items : List (List Char)) (t : Transcript) : Prop :=
  ∃ before rest coordinates answers last, items = before ++ rest ∧
    List.Forall₂ Makes (before.filterMap form.fields?) coordinates ∧
    Answered apply state coordinates answers last ∧ t.lines = answers.map answerLine ∧
    StopsAt form apply last (first + before.length) rest t.fault

theorem follows_of_stopsAt {state : σ} {first : ℕ} {items : List (List Char)}
    {fault : Option CommandError} (h : StopsAt form apply state first items fault) :
    Follows form apply state first items ⟨[], fault⟩ :=
  ⟨[], items, [], [], state, rfl, .nil, .none state, rfl, h⟩

/-- An item that asks for nothing is passed over. -/
theorem Follows.skip {state : σ} {first : ℕ} {item : List Char} {rest : List (List Char)} {t : Transcript}
    (h : Follows form apply state (first + 1) rest t) (hnone : form.fields? item = none) :
    Follows form apply state first (item :: rest) t := by
  obtain ⟨before, left, cs, answers, last, rfl, hmade, hanswered, hlines, hstop⟩ := h
  refine ⟨item :: before, left, cs, answers, last, rfl, ?_, hanswered, hlines, ?_⟩
  · rwa [List.filterMap_cons_none hnone]
  · rwa [List.length_cons, Nat.add_comm before.length, ← Nat.add_assoc]

/-- An item that is answered adds its line, and hands the state on. -/
theorem Follows.answer {state after : σ} {first : ℕ} {item : List Char} {rest fields : List (List Char)}
    {c : Coordinate Float} {answer : Option (Coordinate Float)} {t : Transcript}
    (h : Follows form apply after (first + 1) rest t) (hfields : form.fields? item = some fields)
    (hmakes : Makes fields c) (happly : apply state c = (.ok answer, after)) :
    Follows form apply state first (item :: rest) ⟨answerLine answer :: t.lines, t.fault⟩ := by
  obtain ⟨before, left, cs, answers, last, rfl, hmade, hanswered, hlines, hstop⟩ := h
  refine ⟨item :: before, left, c :: cs, answer :: answers, last, rfl, ?_, .next happly hanswered, ?_, ?_⟩
  · rw [List.filterMap_cons_some hfields]
    exact .cons hmakes hmade
  · rw [List.map_cons, ← hlines]
  · rwa [List.length_cons, Nat.add_comm before.length, ← Nat.add_assoc]

theorem Form.items_cons_of_silent {item : List Char} (h : form.fields? item = none) (first : ℕ)
    (rest : List (List Char)) : form.items first (item :: rest) = form.items (first + 1) rest := by
  rw [items, item?, h]
  rfl

theorem Form.items_cons_of_error {item : List Char} {fields : List (List Char)} {fault : CoordinateFault}
    (h : form.fields? item = some fields) (hfault : parseCoordinate fields = .error fault) (first : ℕ)
    (rest : List (List Char)) :
    form.items first (item :: rest) = .error (form.error first fault) :: form.items (first + 1) rest := by
  rw [items, item?, h, Option.map_some, hfault]
  rfl

theorem Form.items_cons_of_ok {item : List Char} {fields : List (List Char)} {c : Coordinate Float}
    (h : form.fields? item = some fields) (hc : parseCoordinate fields = .ok c) (first : ℕ)
    (rest : List (List Char)) :
    form.items first (item :: rest) = .ok c :: form.items (first + 1) rest := by
  rw [items, item?, h, Option.map_some, hc]
  rfl

/-- What is corrected follows the items. -/
theorem Form.follows (form : Form) : ∀ (items : List (List Char)) (state : σ) (first : ℕ),
    Follows form apply state first items (transformEach apply state (form.items first items))
  | [], _, _ => follows_of_stopsAt .finished
  | item :: rest, state, first => by
    cases hfields : form.fields? item with
    | none =>
      rw [items_cons_of_silent hfields]
      exact (form.follows rest state (first + 1)).skip hfields
    | some fields =>
      cases hparse : parseCoordinate fields with
      | error fault =>
        rw [items_cons_of_error hfields hparse]
        exact follows_of_stopsAt (.unreadable hfields (parseCoordinate_eq_error_iff.mp hparse))
      | ok c =>
        have hmakes := parseCoordinate_eq_ok_iff.mp hparse
        rw [items_cons_of_ok hfields hparse, transformEach]
        rcases happly : apply state c with ⟨e | answer, after⟩
        · exact follows_of_stopsAt (.failed hfields hmakes (by rw [happly]))
        · simp only [answerText_eq]
          exact (form.follows rest after (first + 1)).answer hfields hmakes happly

/-- An outcome of a run over items: it records a transcript that follows them. -/
def Transforms (form : Form) (apply : Evaluator σ)
    (state : σ) (items : List (List Char)) (o : Outcome) : Prop :=
  ∃ t, Follows form apply state 1 items t ∧ o.Records t

theorem Form.transforms (form : Form) (state : σ) (items : List (List Char)) :
    Transforms form apply state items (transformAll apply state (form.items 1 items)) :=
  ⟨_, form.follows items state 1, records_outcome _⟩

end Runs


/-! ## Answers -/

/-- The line of an answer is one line. -/
theorem not_mem_answerLine (answer : Option (Coordinate Float)) : '\n' ∉ (answerLine answer).toList := by
  have hnumber : ∀ x : Float, '\n' ∉ (Decimal.Layout.plain.render x).toList := by
    intro x hmem
    have hunbroken := (Decimal.render_unbroken x).2 _ hmem
    revert hunbroken
    decide
  cases answer with
  | none => decide
  | some c => simp [answerLine, hnumber]

/-- The line of a coordinate makes that coordinate. -/
theorem makes_answerLine (c : Coordinate Float) : Makes (Text.fields (answerLine (some c)).toList) c := by
  obtain ⟨number, hnumber⟩ : ∃ number : Float → List Char,
      number = fun x => (Decimal.Layout.plain.render x).toList := ⟨_, rfl⟩
  have hunbroken : ∀ x, number x ≠ [] ∧ ∀ c ∈ number x, isBlank c = false := fun x =>
    hnumber ▸ Decimal.render_unbroken x
  have hspells : ∀ x, Spells (number x) x := fun x => by
    rw [Spells, Text.trim_of_unbroken (hunbroken x).2, hnumber]
    exact Decimal.readDecimal_render x
  have htext : (answerLine (some c)).toList = [' '].intercalate [number c.x, number c.y, number c.z] := by
    simp [answerLine, hnumber, List.intercalate_cons_cons]
  have hfields : Text.fields (answerLine (some c)).toList = [number c.x, number c.y, number c.z] := by
    rw [htext]
    refine Text.fields_intercalate ?_ ?_
    · simp [hunbroken]
    · simp only [List.forall_mem_cons]
      exact ⟨(hunbroken c.x).2, (hunbroken c.y).2, (hunbroken c.z).2, nofun⟩
  rw [hfields]
  exact ⟨[c.x, c.y, c.z], .cons (hspells c.x) (.cons (hspells c.y) (.cons (hspells c.z) .nil)), Or.inr rfl⟩

/-! ## Arguments as lines -/

/-- Fields that can be written with commas or with blanks between them: none is empty or holds either, and
the first one does not start a comment. -/
structure PlainFields (fields : List (List Char)) : Prop where
  nonempty : ∀ field ∈ fields, field ≠ []
  no_comma : ∀ field ∈ fields, ∀ c ∈ field, (c == ',') = false
  no_blank : ∀ field ∈ fields, ∀ c ∈ field, isBlank c = false
  first : ∃ c field rest, fields = (c :: field) :: rest ∧ c ≠ '#'

namespace PlainFields

variable {fields : List (List Char)}

theorem iff_all : PlainFields fields ↔ (fields.all fun field => !field.isEmpty && field.all fun c =>
    c != ',' && !isBlank c) = true ∧ ((fields.headD []).head?.any (· != '#')) = true := by
  constructor
  · intro h
    obtain ⟨c, field, rest, hfields, hc⟩ := h.first
    refine ⟨List.all_eq_true.mpr fun field hfield => ?_, by simpa [hfields] using hc⟩
    rw [Bool.and_eq_true, List.all_eq_true]
    refine ⟨by simpa using h.nonempty field hfield, fun d hd => ?_⟩
    simp [bne, h.no_comma field hfield d hd, h.no_blank field hfield d hd]
  · rintro ⟨hall, hfirst⟩
    have hfield : ∀ field ∈ fields, field ≠ [] ∧ ∀ c ∈ field, (c == ',') = false ∧ isBlank c = false := by
      intro field hmem
      simpa [bne] using List.all_eq_true.mp hall field hmem
    refine ⟨fun field hmem => (hfield field hmem).1, fun field hmem c hc => ((hfield field hmem).2 c hc).1,
      fun field hmem c hc => ((hfield field hmem).2 c hc).2, ?_⟩
    rcases fields with _ | ⟨_ | ⟨c, field⟩, rest⟩
    · cases hfirst
    · cases hfirst
    · exact ⟨c, field, rest, rfl, by simpa using hfirst⟩

instance : DecidablePred PlainFields := fun _ => decidable_of_iff _ iff_all.symm

theorem ne_nil (h : PlainFields fields) : fields ≠ [] := by
  obtain ⟨c, field, rest, rfl, -⟩ := h.first
  exact List.cons_ne_nil _ _

theorem argument (h : PlainFields fields) :
    Form.arguments.fields? ([','].intercalate fields) = some fields :=
  congrArg some (Text.splitOnP_intercalate rfl h.ne_nil h.no_comma)

theorem not_silent (h : PlainFields fields) : ¬ Silent ([' '].intercalate fields) := by
  obtain ⟨c, field, rest, rfl, hc⟩ := h.first
  have hblank : ¬ isBlank c = true := by
    rw [h.no_blank (c :: field) List.mem_cons_self c List.mem_cons_self]
    exact Bool.false_ne_true
  have hline : ∃ line, [' '].intercalate ((c :: field) :: rest) = c :: line := by
    cases rest with
    | nil => exact ⟨field, List.intercalate_singleton⟩
    | cons next rest => exact ⟨_, List.intercalate_cons_cons⟩
  obtain ⟨line, hline⟩ := hline
  rw [hline, silent_cons_of_not_blank hblank]
  exact hc

theorem line (h : PlainFields fields) : Form.lines.fields? ([' '].intercalate fields) = some fields := by
  rw [fields?_of_not_silent h.not_silent, Text.fields_intercalate h.nonempty h.no_blank]

end PlainFields


/-- The fault of an argument as that of a line. -/
def CommandError.onLine (number : ℕ) : CommandError → CommandError
  | .badArgument fault => .badLine number fault
  | e => e

/-- The transcript of arguments as that of lines, one for each argument and numbered from `first` on: a fault
is that of the line after those that were answered. -/
def Transcript.onLines (first : ℕ) (t : Transcript) : Transcript :=
  ⟨t.lines, t.fault.map (CommandError.onLine (first + t.lines.length))⟩

/-- Outcomes that record the same but for where the fault is. -/
theorem Outcome.Records.onLines {o o' : Outcome} {t : Transcript} {first : ℕ} (h : o.Records t)
    (h' : o'.Records (t.onLines first)) : o.stdout = o'.stdout ∧ o.exitCode = o'.exitCode := by
  refine ⟨String.toList_injective (h.written.trans h'.written.symm), ?_⟩
  cases hfault : t.fault with
  | none =>
    have hlines : (t.onLines first).fault = none := congrArg (Option.map _) hfault
    exact (h.finished hfault).1.trans (h'.finished hlines).1.symm
  | some e =>
    have hlines : (t.onLines first).fault = some (e.onLine (first + t.lines.length)) :=
      congrArg (Option.map _) hfault
    exact (h.stopped e hfault).1.trans (h'.stopped _ hlines).1.symm

section Alike

variable {σ : Type} {apply : Evaluator σ}

/-- The argument and the line have the same fields. -/
def SameFields (arg line : List Char) : Prop :=
  ∃ fields, Form.arguments.fields? arg = some fields ∧ Form.lines.fields? line = some fields

theorem sameFields_of_plain {coords : List (List (List Char))} (h : ∀ fields ∈ coords, PlainFields fields) :
    List.Forall₂ SameFields (coords.map ([','].intercalate ·)) (coords.map ([' '].intercalate ·)) := by
  rw [List.forall₂_map_left_iff, List.forall₂_map_right_iff, List.forall₂_same]
  exact fun fields hfields => ⟨fields, (h fields hfields).argument, (h fields hfields).line⟩

theorem transformEach_onLines {args lines : List (List Char)} (h : List.Forall₂ SameFields args lines) :
    ∀ (state : σ) (first : ℕ), transformEach apply state (Form.lines.items first lines) =
      (transformEach apply state (Form.arguments.items first args)).onLines first := by
  induction h with
  | nil => exact fun _ _ => rfl
  | @cons arg line args lines hsame _ ih =>
    intro state first
    obtain ⟨fields, harg, hline⟩ := hsame
    cases hparse : parseCoordinate fields with
    | error fault =>
      rw [Form.items_cons_of_error harg hparse, Form.items_cons_of_error hline hparse]
      rfl
    | ok c =>
      rw [Form.items_cons_of_ok harg hparse, Form.items_cons_of_ok hline hparse, transformEach, transformEach]
      rcases happly : apply state c with ⟨e | answer, after⟩
      · rfl
      · simp only [ih after (first + 1), Transcript.onLines, List.length_cons]
        rw [Nat.add_right_comm first 1, Nat.add_assoc first]

/-- The outcome of arguments and that of lines: the same is written, and the run over the lines stops at the
line of the argument at which the other one does, for the same reason. -/
def Alike (apply : Evaluator σ) (state : σ) (args lines : List (List Char)) (o o' : Outcome) : Prop :=
  o.stdout = o'.stdout ∧ o.exitCode = o'.exitCode ∧ ∃ t,
    Follows .arguments apply state 1 args t ∧ o.Records t ∧
    Follows .lines apply state 1 lines (t.onLines 1) ∧ o'.Records (t.onLines 1)

theorem alike_of_sameFields {args lines : List (List Char)} (h : List.Forall₂ SameFields args lines)
    (state : σ) :
    Alike apply state args lines (transformAll apply state (Form.arguments.items 1 args))
      (transformAll apply state (Form.lines.items 1 lines)) := by
  obtain ⟨t, ht⟩ : ∃ t, t = transformEach apply state (Form.arguments.items 1 args) := ⟨_, rfl⟩
  have hlines : transformEach apply state (Form.lines.items 1 lines) = t.onLines 1 := by
    rw [ht, transformEach_onLines h]
  have hrecords : (transformAll apply state (Form.arguments.items 1 args)).Records t := by
    rw [ht]
    exact records_outcome _
  have hrecords' : (transformAll apply state (Form.lines.items 1 lines)).Records (t.onLines 1) := by
    rw [← hlines]
    exact records_outcome _
  obtain ⟨hstdout, hexit⟩ := hrecords.onLines hrecords'
  refine ⟨hstdout, hexit, t, ?_, hrecords, ?_, hrecords'⟩
  · rw [ht]
    exact Form.arguments.follows args state 1
  · rw [← hlines]
    exact Form.lines.follows lines state 1

end Alike

/-! ## The program -/

open Container

/-- The evaluator of an open mesh in the direction of a request: its state is the triangle found last. -/
def meshEvaluator (mesh : OpenMesh) (inverse : Bool) : Evaluator (Option (CachedTriangle Float)) :=
  fun cache c =>
    let evaluation := mesh.source.transform cache (if inverse then .inverse else .forward) c
    (evaluation.answer, evaluation.cache)

/-- The setting asks for coordinates to be transformed, and its mesh opens. -/
def Asks (disk : Disk) (setting : Setting) (mesh : OpenMesh) (inverse : Bool)
    (coordinates : List (List Char)) : Prop :=
  ∃ network location texts, texts.map String.toList = coordinates ∧
    Request.ofArguments? setting.args = some (.transform network location inverse texts) ∧
    openMesh disk (optionsFor setting network) location = .ok mesh

section Program

variable {disk : Disk} {setting : Setting} {mesh : OpenMesh} {inverse : Bool}

/-- Without coordinates the program transforms the lines of its input. -/
theorem tinshift_lines (h : Asks disk setting mesh inverse []) {lines : List (List Char)}
    (hlines : Text.Lines setting.stdin.toList lines) : tinshift disk setting =
      transformAll (meshEvaluator mesh inverse) none (Form.lines.items 1 lines) := by
  obtain ⟨network, location, texts, htexts, hrequest, hmesh⟩ := h
  obtain rfl := List.map_eq_nil_iff.mp htexts
  obtain rfl := Text.lines_iff.mp hlines
  rw [tinshift, hrequest]
  simp only [withMesh, hmesh, List.isEmpty_nil, if_true, ofLines_eq]
  rfl

/-- With coordinates it transforms these. -/
theorem tinshift_arguments {coordinates : List (List Char)} (h : Asks disk setting mesh inverse coordinates)
    (hcoordinates : coordinates ≠ []) : tinshift disk setting =
      transformAll (meshEvaluator mesh inverse) none (Form.arguments.items 1 coordinates) := by
  obtain ⟨network, location, texts, rfl, hrequest, hmesh⟩ := h
  have hsome : texts.isEmpty = false := by simpa using hcoordinates
  rw [tinshift, hrequest, ← map_ofArgument_eq, List.map_map]
  simp only [withMesh, hmesh, hsome, Bool.false_eq_true, if_false]
  rfl

end Program

/-- **The transformation is exact up to the first fault.**  A run over lines answers those that are neither
blank nor comments, in order and with the evaluator's state handed on, up to the first one that is no
coordinate or whose lookup fails; it ends there with the fault, which names the line by its number among all
lines if it is no coordinate.  A coordinate is two or three numbers, and a missing height is zero.  A line is
written for each answer, and its three fields are the numbers of the answer, infinities if there is none.
The standard output is these lines; the exit code is zero, with nothing reported, if there is no fault, and
one otherwise, with the fault reported.  Arguments with commas are transformed as lines with the same fields
and blanks are, and stop at the same one.  The program does so with the mesh that it opened. -/
theorem transform_prefix_exact {σ : Type} (apply : Evaluator σ) (state : σ) :
    (∀ lines, Transforms .lines apply state lines (transformAll apply state (ofLines 1 lines))) ∧
    (∀ args, Transforms .arguments apply state args (transformAll apply state (args.map ofArgument))) ∧
    (∀ number fault,
      (CommandError.badLine number fault).chain = ("line " ++ toString number) :: fault.chain) ∧
    (∀ fault, (CommandError.badArgument fault).chain = fault.chain) ∧
    (∀ e, (CommandError.lookup e).chain = e.message :: e.causes) ∧
    (∀ fields c, parseCoordinate fields = .ok c ↔ Makes fields c) ∧
    (∀ fields fault, parseCoordinate fields = .error fault ↔ Refuses fields fault) ∧
    (∀ answer, '\n' ∉ (answerLine answer).toList) ∧
    (∀ c, Makes (Text.fields (answerLine (some c)).toList) c) ∧
    (∀ coords : List (List (List Char)), (∀ fields ∈ coords, PlainFields fields) →
      Alike apply state (coords.map ([','].intercalate ·)) (coords.map ([' '].intercalate ·))
        (transformAll apply state ((coords.map ([','].intercalate ·)).map ofArgument))
        (transformAll apply state (ofLines 1 (coords.map ([' '].intercalate ·))))) ∧
    ∀ (disk : Disk) (mesh : OpenMesh) (inverse : Bool),
      (∀ setting, Asks disk setting mesh inverse [] → ∃ lines, Text.Lines setting.stdin.toList lines ∧
        Transforms .lines (meshEvaluator mesh inverse) none lines (tinshift disk setting)) ∧
      (∀ setting args, Asks disk setting mesh inverse args → args ≠ [] →
        Transforms .arguments (meshEvaluator mesh inverse) none args (tinshift disk setting)) ∧
      ∀ setting setting' coords, (∀ fields ∈ coords, PlainFields fields) → coords ≠ [] →
        Asks disk setting mesh inverse (coords.map ([','].intercalate ·)) →
        Asks disk setting' mesh inverse [] →
        Text.Lines setting'.stdin.toList (coords.map ([' '].intercalate ·)) →
        Alike (meshEvaluator mesh inverse) none (coords.map ([','].intercalate ·))
          (coords.map ([' '].intercalate ·)) (tinshift disk setting) (tinshift disk setting') := by
  refine ⟨fun lines => ?_, fun args => ?_, fun _ _ => rfl, fun _ => rfl, fun _ => rfl,
    fun _ _ => parseCoordinate_eq_ok_iff, fun _ _ => parseCoordinate_eq_error_iff, not_mem_answerLine,
    makes_answerLine, fun coords hplain => ?_, fun disk mesh inverse => ⟨fun setting hasks => ?_,
      fun setting args hasks hargs => ?_,
      fun setting setting' coords hplain hcoords hargs hlines hstdin => ?_⟩⟩
  · rw [ofLines_eq]
    exact Form.lines.transforms state lines
  · rw [map_ofArgument_eq 1]
    exact Form.arguments.transforms state args
  · rw [ofLines_eq, map_ofArgument_eq 1]
    exact alike_of_sameFields (sameFields_of_plain hplain) state
  · have hlines := Text.lines_spec setting.stdin.toList
    rw [tinshift_lines hasks hlines]
    exact ⟨_, hlines, Form.lines.transforms none _⟩
  · rw [tinshift_arguments hasks hargs]
    exact Form.arguments.transforms none args
  · have hsome : coords.map ([','].intercalate ·) ≠ [] := mt List.map_eq_nil_iff.mp hcoords
    rw [tinshift_arguments hargs hsome, tinshift_lines hlines hstdin]
    exact alike_of_sameFields (sameFields_of_plain hplain) none

/-- An evaluator that keeps every second coordinate and fails at the fourth one. -/
def alternating : Evaluator ℕ := fun n c =>
  if n = 3 then (.error (.storage .notADatabase), n)
  else (.ok (if n % 2 = 0 then some c else none), n + 1)

/-- Two coordinates among a comment and a blank line, and a fifth line with a word. -/
def sampleLines : List (List Char) :=
  ["  # heights", "1 2", "", "\t3 4 5 ", "1 north", "6 7"].map String.toList

/-- Four coordinates. -/
def sampleArguments : List (List Char) := ["1,2", " 3, 4 ,5", "6,7", "8,9"].map String.toList

/-- The fields of two coordinates, and too many. -/
def sampleFields : List (List (List Char)) :=
  [["1", "2"], ["3", "4", "5"], ["6", "7", "8", "9"]].map (·.map String.toList)

/-- Coordinates are transformed by the quoted mesh. -/
def quotedSetting (coordinates : List String) (stdin : String) : Setting where
  args := ["transform", meshPath] ++ coordinates
  stdin := stdin

/-- The fields of a vertex, of a point with a height, and of no point at all. -/
def quotedFields : List (List (List Char)) :=
  [["0", "0"], ["0.25", "0.5", "7"], ["nan", "0"]].map (·.map String.toList)

theorem alternating_prefix_exact :
    Transforms .lines alternating 0 sampleLines
      ⟨1, "1 2 0\ninf inf inf\n",
        "Error: line 5\n\nCaused by:\n    0: invalid number \"north\"\n    1: invalid float literal\n"⟩ ∧
    Transforms .arguments alternating 0 sampleArguments
      ⟨1, "1 2 0\ninf inf inf\n6 7 0\n",
        "Error: sqlite error: file is not a database\n\nCaused by:\n    file is not a database\n"⟩ ∧
    (∀ fields ∈ sampleFields, PlainFields fields) ∧
    Alike alternating 0 (sampleFields.map ([','].intercalate ·)) (sampleFields.map ([' '].intercalate ·))
      ⟨1, "1 2 0\ninf inf inf\n", "Error: expected at most three values\n"⟩
      ⟨1, "1 2 0\ninf inf inf\n", "Error: line 3\n\nCaused by:\n    expected at most three values\n"⟩ ∧
    (∀ fields ∈ quotedFields, PlainFields fields) ∧
    ∃ mesh, openMesh quotedDisk {} meshPath = .ok mesh ∧
      tinshift quotedDisk (quotedSetting [] "# heights\n0 0\nnorth 1\n") = ⟨1, "1 2 1\n",
        "Error: line 3\n\nCaused by:\n    0: invalid number \"north\"\n    1: invalid float literal\n"⟩ ∧
      Transforms .lines (meshEvaluator mesh false) none (["# heights", "0 0", "north 1"].map String.toList)
        (tinshift quotedDisk (quotedSetting [] "# heights\n0 0\nnorth 1\n")) ∧
      tinshift quotedDisk (quotedSetting ["0,0", "0.25,0.5,7", "nan,0"] "") =
        ⟨0, "1 2 1\n1.4375 2.5 9.25\ninf inf inf\n", ""⟩ ∧
      Transforms .arguments (meshEvaluator mesh false) none
        (["0,0", "0.25,0.5,7", "nan,0"].map String.toList)
        (tinshift quotedDisk (quotedSetting ["0,0", "0.25,0.5,7", "nan,0"] "")) ∧
      Alike (meshEvaluator mesh false) none (quotedFields.map ([','].intercalate ·))
        (quotedFields.map ([' '].intercalate ·))
        (tinshift quotedDisk (quotedSetting ["0,0", "0.25,0.5,7", "nan,0"] ""))
        (tinshift quotedDisk (quotedSetting [] "0 0\r\n0.25 0.5 7\nnan 0")) := by
  have hplain : ∀ fields ∈ sampleFields, PlainFields fields := by decide
  have hplain' : ∀ fields ∈ quotedFields, PlainFields fields := by decide
  have hlines : transformAll alternating 0 (ofLines 1 sampleLines) = ⟨1, "1 2 0\ninf inf inf\n",
      "Error: line 5\n\nCaused by:\n    0: invalid number \"north\"\n    1: invalid float literal\n"⟩ := by
    decide +kernel
  have harguments : transformAll alternating 0 (sampleArguments.map ofArgument) =
      ⟨1, "1 2 0\ninf inf inf\n6 7 0\n",
        "Error: sqlite error: file is not a database\n\nCaused by:\n    file is not a database\n"⟩ := by
    decide +kernel
  have hcommas : transformAll alternating 0 ((sampleFields.map ([','].intercalate ·)).map ofArgument) =
      ⟨1, "1 2 0\ninf inf inf\n", "Error: expected at most three values\n"⟩ := by
    decide +kernel
  have hblanks : transformAll alternating 0 (ofLines 1 (sampleFields.map ([' '].intercalate ·))) =
      ⟨1, "1 2 0\ninf inf inf\n", "Error: line 3\n\nCaused by:\n    expected at most three values\n"⟩ := by
    decide +kernel
  have hinput : tinshift quotedDisk (quotedSetting [] "# heights\n0 0\nnorth 1\n") = ⟨1, "1 2 1\n",
      "Error: line 3\n\nCaused by:\n    0: invalid number \"north\"\n    1: invalid float literal\n"⟩ := by
    decide +kernel
  have hgiven : tinshift quotedDisk (quotedSetting ["0,0", "0.25,0.5,7", "nan,0"] "") =
      ⟨0, "1 2 1\n1.4375 2.5 9.25\ninf inf inf\n", ""⟩ := by
    decide +kernel
  obtain ⟨mesh, hmesh⟩ := quotedDisk_opens {}
  have hasks : ∀ coordinates stdin, Request.ofArguments? (["transform", meshPath] ++ coordinates) =
      some (.transform false meshPath false coordinates) →
      Asks quotedDisk (quotedSetting coordinates stdin) mesh false (coordinates.map String.toList) :=
    fun coordinates stdin hrequest => ⟨false, meshPath, coordinates, rfl, hrequest, hmesh⟩
  obtain ⟨hoflines, hofarguments, -, -, -, -, -, -, -, halike, hprogram⟩ :=
    transform_prefix_exact alternating 0
  obtain ⟨hstdin, hargs, hboth⟩ := hprogram quotedDisk mesh false
  refine ⟨?_, ?_, hplain, ?_, hplain', mesh, hmesh, hinput, ?_, hgiven, ?_, ?_⟩
  · rw [← hlines]
    exact hoflines sampleLines
  · rw [← harguments]
    exact hofarguments sampleArguments
  · rw [← hcommas, ← hblanks]
    exact halike sampleFields hplain
  · obtain ⟨lines, hfound, htransforms⟩ :=
      hstdin _ (hasks [] "# heights\n0 0\nnorth 1\n" (by decide +kernel))
    obtain rfl := Text.lines_iff.mp hfound
    exact htransforms
  · exact hargs _ _ (hasks _ _ (by decide +kernel)) (List.cons_ne_nil _ _)
  · exact hboth _ _ quotedFields hplain' (List.cons_ne_nil _ _) (hasks _ _ (by decide +kernel))
      (hasks [] _ (by decide +kernel)) (Text.lines_iff.mpr (by decide))

end ShiftMesh.Command
