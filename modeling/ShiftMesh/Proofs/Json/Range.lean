import ShiftMesh.Proofs.Json.Reading

/-!
# ShiftMesh.Proofs.Json.Range — the whole numbers of a document fit 64 bits

* `readNumber_sized`: a number that is read is a double or a whole number of 64 bits.
* `Value.All`, `State.All`: a property of all numbers of a value, and of a state of the reader.
* `next_all`: a step of the reader keeps it; `parse_sized`: hence the whole numbers of every document
  fit 64 bits.
-/

namespace ShiftMesh.Json

/-! ## Numbers -/

/-- A whole number fits 64 bits. -/
def Number.Sized (n : Number) : Prop := ∀ k, n = .whole k → Number.InRange k

theorem Number.sized_double (x : Float) : (Number.double x).Sized := nofun

theorem takeDigits_lt (ds : List ℕ) {s : ℕ} (hs : s < Nat.pow 2 64) :
    (WrittenNumber.takeDigits s ds).1 < Nat.pow 2 64 := by
  induction ds generalizing s with
  | nil => exact hs
  | cons d rest ih =>
    unfold WrittenNumber.takeDigits
    split_ifs with h
    · exact ih h
    · exact hs

theorem toNumber_sized {w : WrittenNumber} {n : Number} (h : w.toNumber = .ok n) : n.Sized := by
  have hlt : (WrittenNumber.takeDigits 0 w.whole).1 < Nat.pow 2 64 := takeDigits_lt _ (by decide)
  unfold WrittenNumber.toNumber at h
  extract_lets asDouble at h
  -- whatever is not kept as a whole number becomes a double
  have hdouble : ∀ m, asDouble = .ok m → m.Sized := by
    intro m hm
    unfold asDouble at hm
    split at hm
    · cases hm
    · cases hm
      exact Number.sized_double _
  split at h
  · rename_i m _ _ hdigits
    rw [hdigits] at hlt
    split_ifs at h with hnegative hrange
    · cases h
      rintro k ⟨⟩
      exact ⟨by omega, by omega⟩
    · exact hdouble n h
    · cases h
      rintro k ⟨⟩
      exact ⟨by omega, by exact_mod_cast hlt⟩
  · exact hdouble n h

theorem readUnsigned_sized {negative : Bool} {cs rest : List Char} {n : Number}
    (h : readUnsigned negative cs = .ok (n, rest)) : n.Sized := by
  unfold readUnsigned at h
  split at h
  · cases h
  · cases h
  · split at h
    · cases h
    · split at h
      · cases h
      · rename_i whole _ _ _ _ _ fraction _ _ _ exponent _ _
        cases hn : WrittenNumber.toNumber ⟨negative, whole, fraction, exponent⟩ with
        | error e =>
          rw [hn] at h
          cases h
        | ok m =>
          rw [hn] at h
          cases h
          exact toNumber_sized hn

theorem readNumber_sized {cs rest : List Char} {n : Number} (h : readNumber cs = .ok (n, rest)) :
    n.Sized := by
  unfold readNumber at h
  split at h <;> exact readUnsigned_sized h

/-- A number among tokens has the property. -/
def Token.All (P : Number → Prop) (t : Token) : Prop := ∀ n, t = .number n → P n

theorem nextToken_sized {cs rest : List Char} {t : Token} (h : nextToken cs = .ok (some (t, rest))) :
    t.All Number.Sized := by
  rintro n rfl
  fun_induction nextToken cs with
  | case11 rest' =>
    cases hs : readString rest' <;> rw [hs] at h <;> cases h
  | case12 =>
    rename_i ih
    exact ih h
  | case13 c rest' =>
    cases hn : readNumber (c :: rest') with
    | error e =>
      rw [hn] at h
      cases h
    | ok m =>
      rw [hn] at h
      cases h
      exact readNumber_sized hn
  | _ => cases h

theorem tokens_sized {cs : List Char} {ts : List Token} (h : tokens cs = .ok ts) :
    ∀ t ∈ ts, t.All Number.Sized := by
  have hwithin : ∀ (bound : ℕ) (cs : List Char) (ts : List Token), tokensWithin bound cs = .ok ts →
      ∀ t ∈ ts, t.All Number.Sized := by
    intro bound
    induction bound with
    | zero =>
      rintro cs ts ⟨⟩
      exact List.forall_mem_nil _
    | succ bound ih =>
      intro cs ts h
      unfold tokensWithin at h
      split at h
      · cases h
      · cases h
        exact List.forall_mem_nil _
      · rename_i t rest ht
        cases hrest : tokensWithin bound rest with
        | error e =>
          rw [hrest] at h
          cases h
        | ok others =>
          rw [hrest] at h
          cases h
          exact List.forall_mem_cons.mpr ⟨nextToken_sized ht, ih rest others hrest⟩
  exact hwithin _ _ _ h

/-! ## Values -/

variable {P : Number → Prop}

/-- All numbers of a value have a property. -/
inductive Value.All (P : Number → Prop) : Value → Prop
  | null : All P .null
  | bool (b : Bool) : All P (.bool b)
  | string (s : String) : All P (.string s)
  | number {n : Number} (h : P n) : All P (.number n)
  | array {items : List Value} (h : ∀ v ∈ items, All P v) : All P (.array items)
  | object {fields : Fields} (h : ∀ f ∈ fields, All P f.2) : All P (.object fields)

/-- All numbers of an open array or object have a property. -/
def Frame.All (P : Number → Prop) : Frame → Prop
  | .array items => ∀ v ∈ items, v.All P
  | .object fields _ => ∀ f ∈ fields, f.2.All P

namespace State

/-- All numbers that the reader has come by have a property. -/
def All (P : Number → Prop) : State → Prop
  | .value stack | .firstItem stack | .firstKey stack => ∀ f ∈ stack, f.All P
  | .nextKey fields stack | .colon fields _ stack =>
    (∀ f ∈ fields, f.2.All P) ∧ ∀ f ∈ stack, f.All P
  | .separator top stack => top.All P ∧ ∀ f ∈ stack, f.All P
  | .finished v => v.All P

variable {stack : List Frame} {s s' : State} {t : Token}

theorem deliver_all {v : Value} (hv : v.All P) (hstack : ∀ f ∈ stack, f.All P) :
    (deliver v stack).All P := by
  cases stack with
  | nil => exact hv
  | cons top stack =>
    obtain ⟨htop, hrest⟩ := List.forall_mem_cons.mp hstack
    cases top with
    | array items => exact ⟨List.forall_mem_cons.mpr ⟨hv, htop⟩, hrest⟩
    | object fields key =>
      refine ⟨fun f hf => ?_, hrest⟩
      rcases Fields.mem_set hf with rfl | hf
      · exact hv
      · exact htop f hf

theorem enter_all (hs : s.All P) (h : enter stack s = .ok s') : s'.All P := by
  unfold enter at h
  split_ifs at h
  cases h
  exact hs

theorem beginValue_all (hstack : ∀ f ∈ stack, f.All P) (ht : t.All P)
    (h : beginValue stack t = .ok s) : s.All P := by
  cases t with
  | null => cases h; exact deliver_all .null hstack
  | bool b => cases h; exact deliver_all (.bool b) hstack
  | string text => cases h; exact deliver_all (.string text) hstack
  | number n => cases h; exact deliver_all (.number (ht n rfl)) hstack
  | openArray => exact enter_all (s := .firstItem stack) hstack h
  | openObject => exact enter_all (s := .firstKey stack) hstack h
  | _ => cases h

/-- A step keeps what holds of all numbers so far, if it holds of that of the token. -/
theorem next_all (hs : s.All P) (ht : t.All P) (h : s.next t = .ok s') : s'.All P := by
  unfold next at h
  split at h
  · exact beginValue_all hs ht h
  · cases h
    exact deliver_all (.array (List.forall_mem_nil _)) hs
  · refine beginValue_all (List.forall_mem_cons.mpr ⟨?_, hs⟩) ht h
    exact List.forall_mem_nil _
  · cases h
    exact deliver_all (.object (List.forall_mem_nil _)) hs
  · cases h
    exact ⟨List.forall_mem_nil _, hs⟩
  · cases h
    exact hs
  · cases h
    exact List.forall_mem_cons.mpr hs
  · cases h
    exact List.forall_mem_cons.mpr hs
  · cases h
    exact deliver_all (.array fun v hv => hs.1 v (List.mem_reverse.mp hv)) hs.2
  · cases h
    exact hs
  · cases h
    exact deliver_all (.object hs.1) hs.2
  · cases h

theorem run_all {ts : List Token} (hs : s.All P) (hts : ∀ t ∈ ts, t.All P) (h : s.run ts = .ok s') :
    s'.All P := by
  induction ts generalizing s with
  | nil =>
    cases h
    exact hs
  | cons t rest ih =>
    obtain ⟨ht, hrest⟩ := List.forall_mem_cons.mp hts
    unfold run at h
    split at h
    · cases h
    · rename_i next hnext
      exact ih (next_all hs ht hnext) hrest h

end State

/-- The whole numbers of a document fit 64 bits. -/
theorem parse_sized {text : String} {v : Value} (h : parse text = .ok v) : v.All Number.Sized := by
  unfold parse at h
  split at h
  · cases h
  · rename_i ts hts
    split at h
    · cases h
    · rename_i s hs
      have hall : s.All Number.Sized :=
        State.run_all (s := .value []) (List.forall_mem_nil _) (tokens_sized hts) hs
      cases s with
      | finished w =>
        cases h
        exact hall
      | _ => cases h

theorem Value.All.of_get? {fields : Fields} {key : String} {v : Value} (h : (Value.object fields).All P)
    (hget : fields.get? key = some v) : v.All P := by
  cases h with
  | object h =>
    induction fields with
    | nil => cases hget
    | cons f rest ih =>
      rw [List.forall_mem_cons] at h
      unfold Fields.get? at hget
      split_ifs at hget with hkey
      · cases hget
        exact h.1
      · exact ih hget h.2

theorem Value.All.of_mem {items : List Value} {v : Value} (h : (Value.array items).All P)
    (hv : v ∈ items) : v.All P := by
  cases h with
  | array h => exact h v hv

/-- A non-negative whole number of a document is read. -/
theorem Value.All.nat?_whole {n : ℕ} (h : (Value.number (.whole n)).All Number.Sized) :
    (Value.number (.whole n)).nat? = some n := by
  cases h with
  | number h =>
    have hrange : 0 ≤ (n : ℤ) ∧ (n : ℤ) < (Nat.pow 2 64 : ℕ) := ⟨Int.natCast_nonneg n, (h n rfl).2⟩
    rw [Value.nat?, Value.number?, Option.bind_some, Number.toNat?, if_pos hrange, Int.toNat_natCast]

end ShiftMesh.Json
