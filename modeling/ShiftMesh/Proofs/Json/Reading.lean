import ShiftMesh.Proofs.Json.Text
import ShiftMesh.Json.Reader

/-!
# ShiftMesh.Proofs.Json.Reading — a printed value is read back

* `Fields.get?_set`, `Ascending.set`: setting a field, and the order of the keys.
* `Value.readBack`: the value with each number as its text is read; `Value.Writable` the values that
  have a text: writable numbers, keys in ascending order, and so many levels of nesting.
* `Writable.delivers`: the automaton hands a value's reading to what is open, whatever follows.
* `parse_print`: the text of a writable value is read as its reading.
-/

namespace ShiftMesh.Json

/-! ## Fields -/

namespace Fields

/-- The keys of fields are in ascending order. -/
def Ascending (fields : Fields) : Prop := fields.Pairwise fun f g => f.1 < g.1

theorem get?_set (fields : Fields) (k key : String) (v : Value) :
    (fields.set k v).get? key = if k = key then some v else fields.get? key := by
  induction fields with
  | nil => rfl
  | cons f rest ih =>
    obtain ⟨k', v'⟩ := f
    rw [set]
    by_cases hk : k = k'
    · rw [if_pos hk, get?, get?, hk]
      split_ifs <;> rfl
    · rw [if_neg hk]
      by_cases hlt : k < k'
      · rw [if_pos hlt, get?, get?]
      · rw [if_neg hlt, get?, get?, ih]
        by_cases hkey : k' = key
        · have hne : ¬ k = key := fun heq => hk (heq.trans hkey.symm)
          rw [if_pos hkey, if_neg hne, if_pos hkey]
        · rw [if_neg hkey, if_neg hkey]

/-- A key of the fields after setting one is that key or one of before. -/
theorem mem_set {fields : Fields} {k : String} {v : Value} {f : String × Value}
    (h : f ∈ fields.set k v) : f = (k, v) ∨ f ∈ fields := by
  induction fields with
  | nil => exact Or.inl (List.mem_singleton.mp h)
  | cons g rest ih =>
    obtain ⟨k', v'⟩ := g
    rw [set] at h
    split_ifs at h
    · exact (List.mem_cons.mp h).imp_right (List.mem_cons_of_mem _)
    · exact List.mem_cons.mp h
    · rcases List.mem_cons.mp h with rfl | h
      · exact Or.inr List.mem_cons_self
      · exact (ih h).imp_right (List.mem_cons_of_mem _)

theorem Ascending.set {fields : Fields} (h : fields.Ascending) (k : String) (v : Value) :
    (fields.set k v).Ascending := by
  induction fields with
  | nil => exact List.pairwise_singleton _ _
  | cons f rest ih =>
    obtain ⟨k', v'⟩ := f
    obtain ⟨hfirst, hrest⟩ := List.pairwise_cons.mp h
    rw [Fields.set]
    split_ifs with hk hlt
    · subst hk
      exact List.pairwise_cons.mpr ⟨hfirst, hrest⟩
    · refine List.pairwise_cons.mpr ⟨fun f hf => ?_, h⟩
      rcases List.mem_cons.mp hf with rfl | hf
      · exact hlt
      · exact String.lt_trans hlt (hfirst f hf)
    · have hgt : k' < k :=
        (lt_trichotomy k' k).resolve_right fun hor => hor.elim (fun heq => hk heq.symm) hlt
      refine List.pairwise_cons.mpr ⟨fun f hf => ?_, ih hrest⟩
      rcases mem_set hf with rfl | hf
      · exact hgt
      · exact hfirst f hf

theorem ascending_ofList (pairs : List (String × Value)) : (ofList pairs).Ascending := by
  have hfold : ∀ (fields : Fields), fields.Ascending →
      (pairs.foldl (fun fields p => fields.set p.1 p.2) fields).Ascending := by
    induction pairs with
    | nil => exact fun _ h => h
    | cons p rest ih => exact fun fields h => ih _ (h.set p.1 p.2)
  exact hfold [] List.Pairwise.nil

/-- A field whose key comes after all others is set at the end. -/
theorem set_of_lt {fields : Fields} {k : String} (v : Value) (h : ∀ f ∈ fields, f.1 < k) :
    fields.set k v = fields ++ [(k, v)] := by
  induction fields with
  | nil => rfl
  | cons f rest ih =>
    obtain ⟨k', v'⟩ := f
    have hlt : k' < k := h (k', v') List.mem_cons_self
    have hne : k ≠ k' := fun heq => String.lt_irrefl k (heq ▸ hlt)
    rw [set, if_neg hne, if_neg (String.lt_asymm hlt), ih fun g hg => h g (List.mem_cons_of_mem _ hg)]
    rfl

end Fields

/-! ## Readings -/

mutual

/-- A value with each number as its text is read. -/
def Value.readBack : Value → Value
  | .null => .null
  | .bool b => .bool b
  | .number n => .number n.readBack
  | .string s => .string s
  | .array items => .array (readBackItems items)
  | .object fields => .object (readBackFields fields)

/-- Items with each number as its text is read. -/
def readBackItems : List Value → List Value
  | [] => []
  | v :: rest => v.readBack :: readBackItems rest

/-- Fields with each number as its text is read. -/
def readBackFields : List (String × Value) → List (String × Value)
  | [] => []
  | (k, v) :: rest => (k, v.readBack) :: readBackFields rest

end

/-- The values that have a text which the nesting limit allows, with so many levels left. -/
inductive Writable : (levels : ℕ) → Value → Prop
  | null (n : ℕ) : Writable n .null
  | bool (n : ℕ) (b : Bool) : Writable n (.bool b)
  | string (n : ℕ) (s : String) : Writable n (.string s)
  | number (n : ℕ) {m : Number} (h : m.Writable) : Writable n (.number m)
  | array {n : ℕ} {items : List Value} (h : ∀ v ∈ items, Writable n v) :
    Writable (n + 1) (.array items)
  | object {n : ℕ} {fields : Fields} (hkeys : fields.Ascending)
    (h : ∀ f ∈ fields, Writable n f.2) : Writable (n + 1) (.object fields)

namespace Writable

variable {n : ℕ} {v : Value}

theorem strings (n : ℕ) (texts : List String) :
    Writable (n + 1) (.array (texts.map .string)) := by
  refine .array fun v hv => ?_
  obtain ⟨text, -, rfl⟩ := List.mem_map.mp hv
  exact .string n text

theorem optionalString (n : ℕ) (key : String) (text : Option String) :
    ∀ f ∈ (text.map fun t => (key, Value.string t)).toList, Writable n f.2 := by
  intro f hf
  obtain ⟨t, -, rfl⟩ := Option.map_eq_some_iff.mp (Option.mem_toList.mp hf)
  exact .string n t

theorem lexes (h : Writable n v) : Lexes v.chars v.tokens := by
  induction h with
  | null => exact .single (List.cons_ne_nil _ _) fun _ _ => rfl
  | bool n b => cases b <;> exact .single (List.cons_ne_nil _ _) fun _ _ => rfl
  | string n s => exact .single (List.cons_ne_nil _ _) fun rest _ => nextToken_quote s rest
  | @number n m h =>
    refine .single (fun hnil => ?_) fun rest hr => nextToken_number h hr
    have hread := nextToken_number h endsNumber_nil
    have hprint : m.print = [] := hnil
    rw [hprint] at hread
    cases hread
  | @array n items h ih =>
    have hall : Lexes ('[' :: (itemChars items ++ [']']))
        (.openArray :: (itemTokens items ++ [.closeArray])) :=
      ((lexes_items ih).append_cons .nil (by decide) fun _ => rfl).cons fun _ => rfl
    exact hall
  | @object n fields hkeys h ih =>
    have hall : Lexes ('\x7b' :: (fieldChars fields ++ ['\x7d']))
        (.openObject :: (fieldTokens fields ++ [.closeObject])) :=
      ((lexes_fields ih).append_cons .nil (by decide) fun _ => rfl).cons fun _ => rfl
    exact hall

/-! ## Runs of the automaton -/

/-- Read with so many levels left, the tokens of a value hand its reading to what is open. -/
def Delivers (n : ℕ) (v : Value) : Prop := ∀ stack ts, stack.length + n ≤ maxDepth →
  (State.value stack).run (v.tokens ++ ts) = (State.deliver v.readBack stack).run ts

theorem openArray_run {stack : List Frame} (hlevel : stack.length < maxDepth) (ts : List Token) :
    (State.value stack).run (.openArray :: ts) = (State.firstItem stack).run ts := by
  rw [State.run, State.next, State.beginValue, State.enter, if_pos hlevel]

theorem openObject_run {stack : List Frame} (hlevel : stack.length < maxDepth) (ts : List Token) :
    (State.value stack).run (.openObject :: ts) = (State.firstKey stack).run ts := by
  rw [State.run, State.next, State.beginValue, State.enter, if_pos hlevel]

/-- The tokens of a value do not start with the end of an array. -/
theorem tokens_head (h : Writable n v) :
    ∃ t ts, v.tokens = t :: ts ∧ t ≠ .closeArray := by
  cases h with
  | null => exact ⟨_, _, rfl, by decide⟩
  | bool n b => exact ⟨_, _, rfl, nofun⟩
  | string n s => exact ⟨_, _, rfl, nofun⟩
  | number n h => exact ⟨_, _, rfl, nofun⟩
  | array h => exact ⟨_, _, rfl, nofun⟩
  | object hkeys h => exact ⟨_, _, rfl, nofun⟩

theorem itemTokens_head {items : List Value} (h : ∀ v ∈ items, Writable n v) (hne : items ≠ []) :
    ∃ t ts, itemTokens items = t :: ts ∧ t ≠ .closeArray := by
  cases items with
  | nil => exact absurd rfl hne
  | cons v rest =>
    obtain ⟨t, ts, hhead, hclose⟩ := (h v List.mem_cons_self).tokens_head
    cases rest with
    | nil => exact ⟨t, ts, hhead, hclose⟩
    | cons w rest => exact ⟨t, _, by rw [itemTokens, hhead, List.cons_append], hclose⟩

/-- The first item of an array is read like any other. -/
theorem firstItem_run {t : Token} (ht : t ≠ .closeArray) (stack : List Frame) (ts : List Token) :
    (State.firstItem stack).run (t :: ts) = (State.value (.array [] :: stack)).run (t :: ts) := by
  have hnext : (State.firstItem stack).next t = (State.value (.array [] :: stack)).next t := by
    cases t <;> first | rfl | exact absurd rfl ht
  rw [State.run, State.run, hnext]

/-- The first key of an object is read like any other. -/
theorem firstKey_run {fields : Fields} (hne : fields ≠ []) (stack : List Frame) (ts : List Token) :
    (State.firstKey stack).run (fieldTokens fields ++ ts) =
      (State.nextKey [] stack).run (fieldTokens fields ++ ts) := by
  obtain ⟨⟨k, v⟩, rest, rfl⟩ := List.exists_cons_of_ne_nil hne
  cases rest with
  | nil => rfl
  | cons g rest => rfl

theorem run_items {items : List Value} (h : ∀ v ∈ items, Delivers n v) (hne : items ≠ [])
    (done : List Value) {stack : List Frame} (hdepth : stack.length + 1 + n ≤ maxDepth)
    (ts : List Token) :
    (State.value (.array done :: stack)).run (itemTokens items ++ .closeArray :: ts) =
      (State.deliver (.array (done.reverse ++ readBackItems items)) stack).run ts := by
  induction items generalizing done with
  | nil => exact absurd rfl hne
  | cons v rest ih =>
    have hv := h v List.mem_cons_self (.array done :: stack)
    cases rest with
    | nil =>
      rw [itemTokens, hv _ hdepth, readBackItems, readBackItems, ← List.reverse_cons]
      rfl
    | cons w rest =>
      have hrest := ih (fun w hw => h w (List.mem_cons_of_mem _ hw)) (List.cons_ne_nil _ _)
        (v.readBack :: done)
      have hsplit : done.reverse ++ readBackItems (v :: w :: rest) =
          (v.readBack :: done).reverse ++ readBackItems (w :: rest) := by
        rw [readBackItems, List.reverse_cons, List.append_assoc]
        rfl
      rw [itemTokens, List.append_assoc, hv _ hdepth, hsplit, ← hrest]
      rfl

theorem run_fields {fields : Fields} (h : ∀ f ∈ fields, Delivers n f.2) (hne : fields ≠ [])
    (hkeys : fields.Ascending) (done : Fields) (hdone : ∀ f ∈ done, ∀ g ∈ fields, f.1 < g.1)
    {stack : List Frame} (hdepth : stack.length + 1 + n ≤ maxDepth) (ts : List Token) :
    (State.nextKey done stack).run (fieldTokens fields ++ .closeObject :: ts) =
      (State.deliver (.object (done ++ readBackFields fields)) stack).run ts := by
  induction fields generalizing done with
  | nil => exact absurd rfl hne
  | cons f rest ih =>
    obtain ⟨k, v⟩ := f
    obtain ⟨hfirst, hascending⟩ := List.pairwise_cons.mp hkeys
    have hv := h (k, v) List.mem_cons_self (.object done k :: stack)
    have hset := Fields.set_of_lt v.readBack fun f hf => hdone f hf (k, v) List.mem_cons_self
    have hkey : ∀ ts', (State.nextKey done stack).run (.string k :: .colon :: (v.tokens ++ ts')) =
        (State.separator (.object (done ++ [(k, v.readBack)]) k) stack).run ts' := by
      intro ts'
      rw [← hset]
      exact hv ts' hdepth
    cases rest with
    | nil =>
      rw [fieldTokens, List.cons_append, List.cons_append, hkey, readBackFields, readBackFields]
      rfl
    | cons g rest =>
      have hdone' : ∀ f ∈ done ++ [(k, v.readBack)], ∀ g' ∈ g :: rest, f.1 < g'.1 := by
        intro f hf g' hg
        rcases List.mem_append.mp hf with hf | hf
        · exact hdone f hf g' (List.mem_cons_of_mem _ hg)
        · rw [List.mem_singleton.mp hf]
          exact hfirst g' hg
      have hrest := ih (fun f hf => h f (List.mem_cons_of_mem _ hf)) (List.cons_ne_nil _ _)
        hascending (done ++ [(k, v.readBack)]) hdone'
      have hsplit : done ++ readBackFields ((k, v) :: g :: rest) =
          done ++ [(k, v.readBack)] ++ readBackFields (g :: rest) := by
        rw [readBackFields, List.append_assoc]
        rfl
      rw [fieldTokens, List.cons_append, List.cons_append, List.append_assoc, hkey, hsplit, ← hrest]
      rfl

/-- The automaton hands the reading of a value to what is open, whatever follows. -/
theorem delivers (h : Writable n v) : Delivers n v := by
  induction h with
  | null => exact fun _ _ _ => rfl
  | bool n b => exact fun _ _ _ => rfl
  | string n s => exact fun _ _ _ => rfl
  | number n h => exact fun _ _ _ => rfl
  | @array n items h ih =>
    intro stack ts hdepth
    rw [Value.tokens, List.cons_append, List.append_assoc, openArray_run (by omega)]
    by_cases hne : items = []
    · subst hne
      rfl
    · obtain ⟨t, ts', hhead, hclose⟩ := itemTokens_head h hne
      have hdepth' : stack.length + 1 + n ≤ maxDepth := by omega
      have hitems := run_items ih hne [] hdepth' ts
      rw [hhead, List.cons_append] at hitems ⊢
      exact (firstItem_run hclose stack _).trans hitems
  | @object n fields hkeys h ih =>
    intro stack ts hdepth
    rw [Value.tokens, List.cons_append, List.append_assoc, openObject_run (by omega)]
    by_cases hne : fields = []
    · subst hne
      rfl
    · rw [firstKey_run hne]
      exact run_fields ih hne hkeys [] (fun f hf => absurd hf List.not_mem_nil) (by omega) ts

/-- The text of a writable value is read as its reading. -/
theorem parse_print (h : Writable maxDepth v) : parse (print v) = .ok v.readBack := by
  have hrun := h.delivers [] [] (by simp)
  rw [List.append_nil] at hrun
  rw [parse, print, String.toList_ofList, h.lexes.tokens_eq]
  simp only [hrun]
  rfl

end Writable

end ShiftMesh.Json
