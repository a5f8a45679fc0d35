/-!
# ShiftMesh.Proofs.Checks — checks in sequence, and the first offender

* `bind_eq_ok`, `unless_eq_ok`: checks in sequence that have all passed, one at a time; `bind_eq_error`,
  `unless_eq_error` tell which one ended a sequence.
* `Foremost`: an item with none of a kind before it; `Foremost.exists_first`: the first item of two kinds;
  `FirstAt`: the first item of a kind and its number.
* `FirstUnmet`: a fault that the first unmet of some conditions calls for; `FirstUnmet.of_bind`: the step
  from one part of a sequence to the rest; `ok_iff_of_firstUnmet`: a
  reader that meets all of them when it succeeds and reports the first unmet one when it fails succeeds
  exactly if all are met; `exact_of_firstUnmet`: and fails exactly with the fault of the first unmet one.
-/

namespace ShiftMesh

/-! ## Checks in sequence -/

section Sequence

variable {ε α β : Type} {x : Except ε α} {f : α → Except ε β} {b : β} {e : ε}

theorem bind_eq_ok (h : x >>= f = .ok b) : ∃ a, x = .ok a ∧ f a = .ok b := by
  cases x with
  | error e => cases h
  | ok a => exact ⟨a, rfl, h⟩

/-- A sequence fails at its first part or after it. -/
theorem bind_eq_error (h : x >>= f = .error e) : x = .error e ∨ ∃ a, x = .ok a ∧ f a = .error e := by
  cases x with
  | error e' =>
    cases h
    exact Or.inl rfl
  | ok a => exact Or.inr ⟨a, rfl, h⟩

theorem not_exists_ok (h : x = .error e) : ¬ ∃ a, x = .ok a := by
  rintro ⟨a, ha⟩
  rw [h] at ha
  cases ha

variable {c : Prop} [Decidable c] {e' : ε} {rest : Unit → Except ε β}

/-- A condition that would have ended the sequence does not hold. -/
theorem unless_eq_ok (h : (if c then throw e' >>= rest else rest ()) = .ok b) :
    ¬ c ∧ rest () = .ok b := by
  by_cases hc : c
  · rw [if_pos hc] at h
    cases h
  · rw [if_neg hc] at h
    exact ⟨hc, h⟩

/-- A sequence ends where a condition holds, or after it. -/
theorem unless_eq_error (h : (if c then throw e' >>= rest else rest ()) = .error e) :
    c ∧ e = e' ∨ ¬ c ∧ rest () = .error e := by
  by_cases hc : c
  · rw [if_pos hc] at h
    cases h
    exact Or.inl ⟨hc, rfl⟩
  · rw [if_neg hc] at h
    exact Or.inr ⟨hc, h⟩

end Sequence

/-! ## The first offender -/

/-- The row stands in the list, and none before it is of the kind `A`. -/
def Foremost {ρ : Type} (A : ρ → Prop) (rows : List ρ) (r : ρ) : Prop :=
  ∃ pre post, rows = pre ++ r :: post ∧ ∀ q ∈ pre, ¬ A q

theorem Foremost.mem {ρ : Type} {A : ρ → Prop} {rows : List ρ} {r : ρ} (h : Foremost A rows r) :
    r ∈ rows := by
  obtain ⟨pre, post, hrows, -⟩ := h
  rw [hrows]
  simp

theorem Foremost.mono {ρ : Type} {A B : ρ → Prop} (hAB : ∀ q, B q → A q) {rows : List ρ} {r : ρ}
    (h : Foremost A rows r) : Foremost B rows r := by
  obtain ⟨pre, post, hrows, hpre⟩ := h
  exact ⟨pre, post, hrows, fun q hq hB => hpre q hq (hAB q hB)⟩

/-- If some row is of a kind, there is a first one. -/
theorem exists_foremost {ρ : Type} {A : ρ → Prop} :
    ∀ {rows : List ρ}, (∃ r ∈ rows, A r) → ∃ r, Foremost A rows r ∧ A r
  | [], h => by
    obtain ⟨r, hr, -⟩ := h
    cases hr
  | q :: rows, h => by
    by_cases hq : A q
    · exact ⟨q, ⟨[], rows, rfl, by simp⟩, hq⟩
    · obtain ⟨r, hr, hA⟩ := h
      rcases List.mem_cons.mp hr with rfl | hr
      · exact absurd hA hq
      · obtain ⟨first, ⟨pre, post, hrows, hpre⟩, hfirst⟩ := exists_foremost ⟨r, hr, hA⟩
        exact ⟨first, ⟨q :: pre, post, by rw [hrows]; rfl, List.forall_mem_cons.mpr ⟨hq, hpre⟩⟩, hfirst⟩

/-- If a row of kind `B` stands before every row of kind `A`, the first row of either kind is a `B`. -/
theorem Foremost.exists_first {ρ : Type} {A B : ρ → Prop} {rows : List ρ} {r : ρ} (h : Foremost A rows r)
    (hr : B r) : ∃ first, Foremost (fun q => A q ∨ B q) rows first ∧ B first := by
  obtain ⟨pre, post, rfl, hpre⟩ := h
  have hexists : ∃ q ∈ pre ++ [r], A q ∨ B q := ⟨r, by simp, Or.inr hr⟩
  obtain ⟨first, ⟨pre', post', hsplit, hpre'⟩, hkind⟩ := exists_foremost hexists
  have hfirst : first ∈ pre ++ [r] := by rw [hsplit]; simp
  refine ⟨first, ⟨pre', post' ++ post, ?_, hpre'⟩, ?_⟩
  · rw [← List.cons_append, ← List.append_assoc, ← hsplit, List.append_assoc]
    rfl
  · rcases List.mem_append.mp hfirst with hmem | hmem
    · exact hkind.resolve_left (hpre first hmem)
    · rw [List.mem_singleton.mp hmem]
      exact hr

theorem foremost_cons {ρ : Type} {A : ρ → Prop} {rows : List ρ} {q r : ρ} :
    Foremost A (q :: rows) r ↔ r = q ∨ ¬ A q ∧ Foremost A rows r := by
  refine ⟨?_, ?_⟩
  · rintro ⟨pre, post, hrows, hpre⟩
    cases pre with
    | nil =>
      injection hrows with hq
      exact Or.inl hq.symm
    | cons q' pre =>
      injection hrows with hq hrows
      subst hq
      rw [List.forall_mem_cons] at hpre
      exact Or.inr ⟨hpre.1, pre, post, hrows, hpre.2⟩
  · rintro (rfl | ⟨hq, pre, post, rfl, hpre⟩)
    · exact ⟨[], rows, rfl, by simp⟩
    · exact ⟨q :: pre, post, rfl, List.forall_mem_cons.mpr ⟨hq, hpre⟩⟩

/-- There is one first row of a kind. -/
theorem Foremost.unique {ρ : Type} {A : ρ → Prop} {rows : List ρ} {r r' : ρ} (h : Foremost A rows r)
    (hr : A r) (h' : Foremost A rows r') (hr' : A r') : r = r' := by
  induction rows with
  | nil => cases h.mem
  | cons q rows ih =>
    rcases foremost_cons.mp h with rfl | ⟨hq, h⟩
    · rcases foremost_cons.mp h' with rfl | ⟨hq, -⟩
      · rfl
      · exact absurd hr hq
    · rcases foremost_cons.mp h' with rfl | ⟨-, h'⟩
      · exact absurd hr' hq
      · exact ih h h'

/-- The row of a kind with the least number. -/
structure FirstAt {ρ : Type} (A : ρ → Prop) (rows : List ρ) (i : Nat) (r : ρ) : Prop where
  here : rows[i]? = some r
  kind : A r
  before : ∀ k < i, ∀ q, rows[k]? = some q → ¬ A q

theorem FirstAt.unique {ρ : Type} {A : ρ → Prop} {rows : List ρ} {i i' : Nat} {r r' : ρ}
    (h : FirstAt A rows i r) (h' : FirstAt A rows i' r') : i = i' ∧ r = r' := by
  have hindex : i = i' := by
    rcases Nat.lt_trichotomy i i' with hlt | heq | hlt
    · exact absurd h.kind (h'.before i hlt r h.here)
    · exact heq
    · exact absurd h'.kind (h.before i' hlt r' h'.here)
  subst hindex
  exact ⟨rfl, Option.some_inj.mp (h.here.symm.trans h'.here)⟩

theorem FirstAt.zero {ρ : Type} {A : ρ → Prop} {rows : List ρ} {r : ρ} (h : A r) :
    FirstAt A (r :: rows) 0 r :=
  ⟨rfl, h, fun k hk => absurd hk (Nat.not_lt_zero k)⟩

theorem FirstAt.succ {ρ : Type} {A : ρ → Prop} {rows : List ρ} {i : Nat} {q r : ρ} (hq : ¬ A q)
    (h : FirstAt A rows i r) : FirstAt A (q :: rows) (i + 1) r := by
  refine ⟨h.here, h.kind, fun k hk q' hq' => ?_⟩
  cases k with
  | zero =>
    cases hq'
    exact hq
  | succ k => exact h.before k (Nat.lt_of_succ_lt_succ hk) q' hq'

/-! ## Conditions in order -/

section Conditions

variable {κ ε : Type} {met : κ → Prop} {calls : κ → ε → Prop}

/-- The fault that the first unmet of some conditions calls for. -/
def FirstUnmet (met : κ → Prop) (calls : κ → ε → Prop) (order : List κ) (fault : ε) : Prop :=
  ∃ c, Foremost (fun c => ¬ met c) order c ∧ ¬ met c ∧ calls c fault

variable {order : List κ} {c : κ} {fault : ε}

theorem FirstUnmet.here (hc : ¬ met c) (h : calls c fault) : FirstUnmet met calls (c :: order) fault :=
  ⟨c, foremost_cons.mpr (Or.inl rfl), hc, h⟩

theorem FirstUnmet.later (hc : met c) (h : FirstUnmet met calls order fault) :
    FirstUnmet met calls (c :: order) fault := by
  obtain ⟨c', hfirst, hc', hcalls⟩ := h
  exact ⟨c', foremost_cons.mpr (Or.inr ⟨not_not_intro hc, hfirst⟩), hc', hcalls⟩

variable {α : Type} {x : Except ε α}

/-- In a sequence whose first part fails only where a condition is unmet, and succeeds only where it is met,
the other conditions are those of the rest. -/
theorem FirstUnmet.of_bind {β : Type} {f : α → Except ε β} (h : x >>= f = .error fault)
    (herror : ∀ e, x = .error e → ¬ met c ∧ calls c e) (hok : ∀ a, x = .ok a → met c)
    (hrest : ∀ a, x = .ok a → f a = .error fault → FirstUnmet met calls order fault) :
    FirstUnmet met calls (c :: order) fault := by
  rcases bind_eq_error h with h | ⟨a, ha, h⟩
  · exact .here (herror fault h).1 (herror fault h).2
  · exact .later (hok a ha) (hrest a ha h)

/-- A reader that succeeds only if all conditions are met and fails only with what the first unmet one
calls for succeeds exactly if all are met. -/
theorem ok_iff_of_firstUnmet (hok : ∀ a, x = .ok a → ∀ c ∈ order, met c)
    (herror : ∀ e, x = .error e → FirstUnmet met calls order e) :
    (∃ a, x = .ok a) ↔ ∀ c ∈ order, met c := by
  cases x with
  | ok a => exact ⟨fun _ => hok a rfl, fun _ => ⟨a, rfl⟩⟩
  | error fault =>
    obtain ⟨c, hfirst, hc, -⟩ := herror fault rfl
    exact ⟨nofun, fun hmet => absurd (hmet c hfirst.mem) hc⟩

/-- If each condition calls for one fault, such a reader fails exactly with that of the first unmet one. -/
theorem exact_of_firstUnmet (hcalls : ∀ c e e', calls c e → calls c e' → e = e')
    (hok : ∀ a, x = .ok a → ∀ c ∈ order, met c)
    (herror : ∀ e, x = .error e → FirstUnmet met calls order e) :
    ((∃ a, x = .ok a) ↔ ∀ c ∈ order, met c) ∧
      ∀ e, x = .error e ↔ FirstUnmet met calls order e := by
  refine ⟨ok_iff_of_firstUnmet hok herror, fun e => ⟨herror e, ?_⟩⟩
  rintro ⟨c, hfirst, hc, he⟩
  cases x with
  | ok a => exact absurd (hok a rfl c hfirst.mem) hc
  | error fault =>
    obtain ⟨c', hfirst', hc', hfault⟩ := herror fault rfl
    rw [hfirst'.unique hc' hfirst hc] at hfault
    rw [hcalls c fault e hfault he]

end Conditions

end ShiftMesh
