import Mathlib
import ShiftMesh.Text.Blank

/-!
# ShiftMesh.Proofs.Text.Parts — the fields and the lines of a text

* `split_eq_splitOnP`: the parts between separators; `fields`: those between blanks that are not empty.
* `Lines`: a text made up of lines, each with its end; `lines_iff`: the lines of a text are those that it is
  made up of.
* `splitOnP_intercalate`, `fields_intercalate`: fields are found again between separators.
-/

namespace ShiftMesh.Text

/-! ## Fields -/

/-- Splitting is that of lists. -/
theorem split_eq_splitOnP (separates : Char → Bool) : ∀ cs, split separates cs = cs.splitOnP separates
  | [] => List.splitOnP_nil.symm
  | c :: rest => by
    rw [split, List.splitOnP_cons_eq_if_modifyHead, split_eq_splitOnP separates rest]
    cases hparts : rest.splitOnP separates with
    | nil => exact absurd hparts (List.splitOnP_ne_nil separates rest)
    | cons part parts => rfl

/-- The fields of a text between blanks. -/
def fields (cs : List Char) : List (List Char) := (cs.splitOnP isBlank).filter (· ≠ [])

theorem words_eq_fields (cs : List Char) : words cs = fields cs := by
  rw [words, fields, split_eq_splitOnP]
  refine List.filter_congr fun part _ => ?_
  cases part <;> rfl

/-- A text without blanks has none at its ends. -/
theorem trim_of_unbroken {cs : List Char} (h : ∀ c ∈ cs, isBlank c = false) : trim cs = cs := by
  have hstart : ∀ {ds : List Char}, (∀ c ∈ ds, isBlank c = false) → trimStart ds = ds := by
    intro ds hds
    cases ds with
    | nil => rfl
    | cons c ds =>
      rw [trimStart, List.dropWhile_cons_of_neg]
      rw [hds c List.mem_cons_self]
      exact Bool.false_ne_true
  rw [trim, hstart h, hstart fun c hc => h c (List.mem_reverse.mp hc), List.reverse_reverse]

/-! ## Lines -/

/-- A text and the lines that it is made up of.  A line ends at a line feed, with a carriage return before
it or not; what follows the last line feed is a line if it is not empty. -/
inductive Lines : List Char → List (List Char) → Prop
  | none : Lines [] []
  | last {line : List Char} : line ≠ [] → '\n' ∉ line → Lines line [line]
  | feed {line rest : List Char} {lines : List (List Char)} :
      '\n' ∉ line → line.getLast? ≠ some '\r' → Lines rest lines →
      Lines (line ++ '\n' :: rest) (line :: lines)
  | returnFeed {line rest : List Char} {lines : List (List Char)} :
      '\n' ∉ line → Lines rest lines → Lines (line ++ '\r' :: '\n' :: rest) (line :: lines)

theorem ne_feed {cs : List Char} (h : '\n' ∉ cs) : ∀ c ∈ cs, (c == '\n') = false := fun c hc => by
  rw [beq_eq_false_iff_ne]
  rintro rfl
  exact h hc

/-- The line before the first line feed. -/
theorem lines_append {line : List Char} (h : '\n' ∉ line) (rest : List Char) :
    lines (line ++ '\n' :: rest) = dropReturn line :: lines rest := by
  obtain ⟨part, parts, hparts⟩ := List.exists_cons_of_ne_nil (List.splitOnP_ne_nil (· == '\n') rest)
  simp only [lines, split_eq_splitOnP]
  rw [List.splitOnP_append_cons_of_forall_mem (ne_feed h) _ rfl, hparts]
  rfl

/-- A text without a line feed. -/
theorem lines_of_not_mem {cs : List Char} (h : '\n' ∉ cs) : lines cs = if cs.isEmpty then [] else [cs] := by
  simp only [lines, split_eq_splitOnP]
  rw [List.splitOnP_eq_singleton (ne_feed h)]
  rfl

theorem lines_spec (cs : List Char) : Lines cs (lines cs) := by
  induction hlength : cs.length using Nat.strong_induction_on generalizing cs with
  | _ n ih =>
    by_cases hfeed : '\n' ∈ cs
    · obtain ⟨line, rest, rfl, hline⟩ := List.eq_append_cons_of_mem hfeed
      have hshorter : rest.length < n := by
        simp only [List.length_append, List.length_cons] at hlength
        omega
      have hrest := ih rest.length hshorter rest rfl
      rw [lines_append hline, dropReturn]
      split_ifs with hreturn
      · obtain ⟨body, rfl⟩ := List.getLast?_eq_some_iff.mp hreturn
        rw [List.dropLast_concat, List.append_assoc]
        exact .returnFeed (fun hmem => hline (List.mem_append_left _ hmem)) hrest
      · exact .feed hline hreturn hrest
    · rw [lines_of_not_mem hfeed]
      cases cs with
      | nil => exact .none
      | cons c cs => exact .last (List.cons_ne_nil c cs) hfeed

/-- The lines of a text are those that it is made up of. -/
theorem lines_iff {cs : List Char} {found : List (List Char)} : Lines cs found ↔ lines cs = found := by
  constructor
  · intro h
    induction h with
    | none => rfl
    | @last line hne hline =>
      rw [lines_of_not_mem hline, if_neg (by simpa using hne)]
    | feed hline hreturn hrest ih => rw [lines_append hline, dropReturn, if_neg hreturn, ih]
    | @returnFeed line rest found hline hrest ih =>
      have hline' : '\n' ∉ line ++ ['\r'] := by simpa using hline
      have happend := lines_append hline' rest
      rw [List.append_assoc] at happend
      rw [List.singleton_append] at happend
      rw [happend, dropReturn, if_pos List.getLast?_concat, List.dropLast_concat, ih]
  · rintro rfl
    exact lines_spec cs

/-! ## Fields that are found again -/

/-- Fields are found again between separators. -/
theorem splitOnP_intercalate {separates : Char → Bool} {c : Char} (hc : separates c = true) :
    ∀ {fields : List (List Char)}, fields ≠ [] →
      (∀ field ∈ fields, ∀ d ∈ field, separates d = false) →
      ([c].intercalate fields).splitOnP separates = fields
  | [field], _, h => by
    rw [List.intercalate_singleton, List.splitOnP_eq_singleton (h field List.mem_cons_self)]
  | field :: next :: fields, _, h => by
    obtain ⟨hfield, hrest⟩ := List.forall_mem_cons.mp h
    rw [List.intercalate_cons_cons, List.append_assoc, List.singleton_append,
      List.splitOnP_append_cons_of_forall_mem hfield c hc,
      splitOnP_intercalate hc (List.cons_ne_nil _ _) hrest]

/-- Fields without blanks, none of them empty, are found again between blanks. -/
theorem fields_intercalate {fs : List (List Char)} (hne : ∀ field ∈ fs, field ≠ [])
    (hblank : ∀ field ∈ fs, ∀ c ∈ field, isBlank c = false) : fields ([' '].intercalate fs) = fs := by
  cases fs with
  | nil => rfl
  | cons field rest =>
    rw [fields, splitOnP_intercalate rfl (List.cons_ne_nil field rest) hblank, List.filter_eq_self]
    intro part hpart
    simpa using hne part hpart

end ShiftMesh.Text
