import Mathlib
import ShiftMesh.Command.Transform

/-!
# ShiftMesh.Proofs.Report — what a command leaves behind tells what it did

* `EndLines`: parts that end lines of a text, one after the other; `endLines_indented`: the lines of a
  wording do after it has been indented.
* `Reports`: the text of a failure: its wording first, and under it the lines of what lies beneath;
  `reports_reportText`: a report is such a text.
* `Outcome.Records`: the lines of a transcript in the standard output, and its fault in the exit code and
  in the error output; `records_outcome`: the outcome of a command does.
-/

namespace ShiftMesh.Command

/-! ## Lines under each other -/

/-- The parts end lines of a text, one after the other. -/
def EndLines : List (List Char) → List Char → Prop
  | [], _ => True
  | part :: parts, text => ∃ before after, text = before ++ part ++ '\n' :: after ∧ EndLines parts after

/-- More text before makes no difference. -/
theorem EndLines.append {parts : List (List Char)} {text : List Char} (h : EndLines parts text)
    (before : List Char) : EndLines parts (before ++ text) := by
  cases parts with
  | nil => trivial
  | cons part parts =>
    obtain ⟨before', after, rfl, hrest⟩ := h
    exact ⟨before ++ before', after, by simp only [List.append_assoc], hrest⟩

/-- The lines of a text after the first one, indented. -/
def indented (indent : List Char) (cs : List Char) : List Char :=
  cs.flatMap fun c => if c = '\n' then '\n' :: indent else [c]

theorem toList_indentRest (indent s : String) :
    (indentRest indent s).toList = indented indent.toList s.toList := by
  rw [indentRest, String.toList_ofList, indented]

/-- The first line of an indented text stands at its start, and the others follow. -/
theorem indented_lines (indent : List Char) {more : List (List Char)} {rest : List Char}
    (h : EndLines more rest) : ∀ cs : List Char, ∃ part parts after, cs.splitOn '\n' = part :: parts ∧
      indented indent cs ++ '\n' :: rest = part ++ '\n' :: after ∧ EndLines (parts ++ more) after
  | [] => ⟨[], [], rest, rfl, rfl, h⟩
  | c :: cs => by
    obtain ⟨part, parts, after, hsplit, htext, hparts⟩ := indented_lines indent h cs
    rw [List.splitOn] at hsplit ⊢
    rw [List.splitOnP_cons_eq_if_modifyHead, hsplit, indented, List.flatMap_cons, ← indented]
    by_cases hc : c = '\n'
    · have hnext : EndLines (part :: (parts ++ more)) (part ++ '\n' :: after) := ⟨[], after, rfl, hparts⟩
      refine ⟨[], part :: parts, indent ++ (part ++ '\n' :: after), by rw [if_pos (by simpa using hc)], ?_,
        hnext.append indent⟩
      rw [if_pos hc, List.append_assoc, htext]
      rfl
    · refine ⟨c :: part, parts, after, by rw [if_neg (by simpa using hc)]; rfl, ?_, hparts⟩
      rw [if_neg hc, List.append_assoc, htext]
      rfl

/-- The lines of a wording end lines of its indented text. -/
theorem endLines_indented (indent cs : List Char) {more : List (List Char)} {rest : List Char}
    (h : EndLines more rest) : EndLines (cs.splitOn '\n' ++ more) (indented indent cs ++ '\n' :: rest) := by
  obtain ⟨part, parts, after, hsplit, htext, hparts⟩ := indented_lines indent h cs
  rw [hsplit, htext]
  exact ⟨[], after, rfl, hparts⟩

/-- So do the lines of a cause, whatever stands before it. -/
theorem endLines_causeText (number : Option Nat) (cause : String) {more : List (List Char)}
    {rest : List Char} (h : EndLines more rest) :
    EndLines (cause.toList.splitOn '\n' ++ more) ((causeText number cause).toList ++ '\n' :: rest) := by
  cases number with
  | none =>
    rw [causeText, String.toList_append, toList_indentRest, List.append_assoc]
    exact (endLines_indented _ _ h).append _
  | some n =>
    rw [causeText]
    simp only [String.toList_append, toList_indentRest, List.append_assoc]
    exact (((endLines_indented _ _ h).append _).append _).append _

/-- The lines of several causes end lines, one cause under the other. -/
theorem endLines_numbered : ∀ (first : Nat) (causes : List String),
    EndLines (causes.flatMap (·.toList.splitOn '\n'))
      ((numbered first causes).flatMap (·.toList ++ ['\n']))
  | _, [] => trivial
  | n, cause :: causes => by
    rw [numbered, List.flatMap_cons, List.flatMap_cons, List.append_assoc, List.singleton_append]
    exact endLines_causeText (some n) cause (endLines_numbered (n + 1) causes)

/-! ## Reports -/

/-- A text that reports a failure: its wording after a mark, and under it, if anything lies beneath, the lines
of the wordings of that, in order. -/
def Reports (text : String) : (chain : List String) → Prop
  | [] => False
  | message :: causes => ∃ under, text.toList = "Error: ".toList ++ message.toList ++ '\n' :: under ∧
      (under = [] ↔ causes = []) ∧ EndLines (causes.flatMap (·.toList.splitOn '\n')) under

theorem toList_intercalate_lines : ∀ {lines : List String}, lines ≠ [] →
    ("\n".intercalate lines ++ "\n").toList = lines.flatMap (·.toList ++ ['\n'])
  | [line], _ => by simp
  | line :: next :: lines, _ => by
    have hrest := toList_intercalate_lines (List.cons_ne_nil next lines)
    rw [List.flatMap_cons, ← hrest]
    simp only [String.toList_append, String.toList_intercalate, List.map_cons,
      List.intercalate_cons_cons, List.append_assoc]
    rfl

/-- A report tells its chain. -/
theorem reports_reportText : ∀ {chain : List String}, chain ≠ [] → Reports (reportText chain ++ "\n") chain
  | [message], _ => ⟨[], by simp [reportText], by simp, trivial⟩
  | [message, cause], _ => by
    have hcause : EndLines (cause.toList.splitOn '\n') ((causeText none cause).toList ++ ['\n']) := by
      rw [← List.append_nil (cause.toList.splitOn '\n')]
      exact endLines_causeText none cause trivial
    refine ⟨"\nCaused by:\n".toList ++ ((causeText none cause).toList ++ ['\n']), ?_, ?_, ?_⟩
    · simp [reportText]
    · simp
    · rw [List.flatMap_cons, List.flatMap_nil, List.append_nil]
      exact hcause.append _
  | message :: cause :: next :: causes, _ => by
    have hlines := toList_intercalate_lines (List.cons_ne_nil (causeText (some 0) cause)
      (numbered 1 (next :: causes)))
    refine ⟨"\nCaused by:\n".toList ++
      (numbered 0 (cause :: next :: causes)).flatMap (·.toList ++ ['\n']), ?_, ?_, ?_⟩
    · rw [numbered, ← hlines]
      simp [reportText, numbered]
    · simp
    · exact (endLines_numbered 0 _).append _

theorem CommandError.chain_ne_nil (e : CommandError) : e.chain ≠ [] := by
  cases e with
  | badArgument fault => cases fault <;> exact List.cons_ne_nil _ _
  | _ => exact List.cons_ne_nil _ _

/-! ## Outcomes -/

/-- An outcome that records a transcript: the lines are in the standard output, each with a line feed at
its end.  Without a fault the exit code is zero and nothing is reported; with one it is one, and the fault is
reported. -/
structure Outcome.Records (o : Outcome) (t : Transcript) : Prop where
  written : o.stdout.toList = t.lines.flatMap fun line => line.toList ++ ['\n']
  finished : t.fault = none → o.exitCode = 0 ∧ o.stderr = ""
  stopped : ∀ e, t.fault = some e → o.exitCode = 1 ∧ Reports o.stderr e.chain

theorem toList_linesText (lines : List String) :
    (linesText lines).toList = lines.flatMap fun line => line.toList ++ ['\n'] := by
  rw [linesText, String.toList_join, List.flatMap_map]
  simp

theorem records_outcome (t : Transcript) : (outcome (linesText t.lines) t.fault).Records t := by
  obtain ⟨lines, fault⟩ := t
  cases fault with
  | none => exact ⟨toList_linesText lines, fun _ => ⟨rfl, rfl⟩, nofun⟩
  | some e =>
    refine ⟨toList_linesText lines, nofun, ?_⟩
    rintro e' ⟨⟩
    exact ⟨rfl, reports_reportText e.chain_ne_nil⟩

end ShiftMesh.Command
