/-
# A session at the prompt

A session takes the lines of the input one after the other and answers each as if
it were the only one. That nothing is left over from one line to the next, neither
an open string nor a count of lines, is a statement about the streams: whatever
was written so far, a line adds what it would add to empty streams. A session is
then a fold of these additions over its lines.

It is over when the lines are, or at a line that is no text. In both cases the
prompt was shown once more than there were answers. Faults end no session and
leave no trace in its status.
-/

import Lox.Proofs.Lines
import Lox.Proofs.Script

namespace Lox.CommandLine

open Process

/-- The streams after a line was answered: the prompt and the tokens of the line
are added to the one, and a message for its faults, if it has any, to the other. -/
def answered (streams : Streams) (source : String) : Streams :=
  streams.append
    ("> " ++ ("\n".intercalate ((scan dialect source).tokens.toList.map Token.text) ++ "\n"))
    (if (scan dialect source).state = .empty then "" else (scan dialect source).state.text ++ "\n")

/-! ## One line -/

/-- The tokens of a line are shown, and its faults are told after them. -/
theorem exec_answerLine (source : String) (streams : Streams) :
    (answerLine .working source).exec (streams.append promptMark "") =
      (.ok (), answered streams source) := by
  by_cases h : (scan dialect source).state = .empty
  · have hprint := exec_printTokens_of_empty h (streams.append promptMark "")
    apply (exec_tryCatch_of_ok hprint).trans
    rw [Streams.append_append, answered, if_pos h]
    rfl
  · have hprint := exec_printTokens_of_ne_empty h (streams.append promptMark "")
    apply (exec_tryCatch_of_error hprint).trans
    rw [exec_complain, Streams.append_append, Streams.append_append, String.append_empty,
      String.empty_append, answered, if_neg h]
    rfl

/-- On one output the step is its two parts one after the other. -/
theorem turn_device (device : Device) (line : Bytes) :
    turn (· device) line = (do answer device line; ask device : Process Unit) :=
  rfl

/-- A line that is a text is answered, and the next one is asked for. -/
theorem exec_turn (source : String) (streams : Streams) :
    (turn (· .working) (encoded source)).exec (streams.append promptMark "") =
      (.ok (), (answered streams source).append promptMark "") := by
  have hanswer : answer .working (encoded source) = answerLine .working source := by
    rw [answer, decode?_encoded]
  rw [turn_device, hanswer, exec_bind_of_ok (exec_answerLine source streams)]
  exact exec_print_working _ _

/-- After a line that is no text nothing is asked for. -/
theorem exec_turn_of_noText {line : Bytes} (h : ∀ source, line ≠ encoded source)
    (streams : Streams) :
    (turn (· .working) line).exec streams = (.error .noText, streams) := by
  have hanswer : answer .working line = throw .noText := by
    rw [answer, decode?_eq_none_iff.mpr h]
  rw [turn_device, hanswer]
  exact exec_bind_of_error (exec_throw _ _)

section Step

variable {input line : Bytes} {lines : List Bytes}

/-- A session begins when the first line was asked for. -/
theorem exec_runPrompt (input : Bytes) (streams : Streams) :
    (runPrompt .working input).exec streams =
      (takeTurns .working input).exec (streams.append promptMark "") :=
  exec_bind_of_ok (exec_print_working _ _)

/-- The first line is taken before the others. -/
theorem takeTurns_of_line (h : LinesOf input (line :: lines)) (device : Device) :
    takeTurns device input =
      (do turn (· device) line; takeTurns device lines.flatten : Process Nat) := by
  obtain ⟨hnext, -, hne⟩ := h.nextLine
  rw [takeTurns, dif_neg hne]
  simp only [hnext]

/-- A line that is a text is answered, and the session goes on with the other
lines. -/
theorem exec_runPrompt_of_text {source : String}
    (h : LinesOf input (encoded source :: lines)) (streams : Streams) :
    (runPrompt .working input).exec streams =
      (runPrompt .working lines.flatten).exec (answered streams source) := by
  rw [exec_runPrompt, takeTurns_of_line h, exec_bind_of_ok (exec_turn source streams),
    exec_runPrompt]

/-- A line that is no text ends the session after the prompt was shown. -/
theorem exec_runPrompt_of_noText (h : LinesOf input (line :: lines))
    (hline : ∀ source, line ≠ encoded source) (streams : Streams) :
    (runPrompt .working input).exec streams = (.error .noText, streams.append promptMark "") := by
  rw [exec_runPrompt, takeTurns_of_line h, exec_bind_of_error (exec_turn_of_noText hline _)]

/-- Without lines the session ends after the prompt was shown. -/
theorem exec_runPrompt_nil (streams : Streams) :
    (runPrompt .working []).exec streams = (.ok 0, streams.append promptMark "") := by
  rw [exec_runPrompt, takeTurns, dif_pos rfl]
  exact exec_pure _ _

end Step

/-! ## A session -/

/-- An input as a session takes it: lines that are texts, and the lines from the
first on that is none. -/
structure Handles (input : Bytes) (handled : List String) (left : List Bytes) : Prop where
  /-- They are the lines of the input. -/
  lines : LinesOf input (handled.map encoded ++ left)
  /-- What is left does not begin with a text. -/
  stops : ∀ line ∈ left.head?, ∀ source, line ≠ encoded source

/-- Every row of lines begins with texts, up to the first line that is none. -/
theorem exists_map_encoded_append (lines : List Bytes) :
    ∃ (handled : List String) (left : List Bytes), lines = handled.map encoded ++ left ∧
      ∀ line ∈ left.head?, ∀ source, line ≠ encoded source := by
  induction lines with
  | nil => exact ⟨[], [], rfl, fun _ => nofun⟩
  | cons line lines ih =>
      cases htext : decode? line with
      | none =>
          refine ⟨[], line :: lines, rfl, ?_⟩
          intro first hfirst
          rw [← Option.some.inj hfirst]
          exact decode?_eq_none_iff.mp htext
      | some source =>
          obtain ⟨handled, left, hlines, hleft⟩ := ih
          refine ⟨source :: handled, left, ?_, hleft⟩
          rw [decode?_eq_some_iff.mp htext, hlines]
          rfl

theorem exists_handles (input : Bytes) : ∃ handled left, Handles input handled left := by
  obtain ⟨lines, hlines⟩ := exists_linesOf input
  obtain ⟨handled, left, rfl, hleft⟩ := exists_map_encoded_append lines
  exact ⟨handled, left, hlines, hleft⟩

/-- The lines that are texts are answered in turn, whatever follows them. -/
theorem exec_runPrompt_append {input : Bytes} {handled : List String} {left : List Bytes}
    (h : LinesOf input (handled.map encoded ++ left)) (streams : Streams) :
    (runPrompt .working input).exec streams =
        (runPrompt .working left.flatten).exec (handled.foldl answered streams) ∧
      LinesOf left.flatten left := by
  induction handled generalizing input streams with
  | nil =>
      obtain rfl := h.flatten
      exact ⟨rfl, h⟩
  | cons source handled ih =>
      obtain ⟨-, hrest, -⟩ := h.nextLine
      have hsession := ih hrest (answered streams source)
      exact ⟨(exec_runPrompt_of_text h streams).trans hsession.1, hsession.2⟩

/-! ## Where the faults of a line are -/

theorem lineBehind_of_not_mem {text : List Char} (h : '\n' ∉ text) : lineBehind text = ⟨1⟩ := by
  rw [lineBehind, List.count_eq_zero.mpr h]

theorem lineBehind_of_line {text : List Char} (h : '\n' ∉ text.dropLast) :
    lineBehind text = ⟨if text.getLast? = some '\n' then 2 else 1⟩ := by
  cases hlast : text.getLast? with
  | none =>
      rw [List.getLast?_eq_none_iff.mp hlast]
      rfl
  | some last =>
      obtain ⟨body, rfl⟩ := List.getLast?_eq_some_iff.mp hlast
      rw [List.dropLast_concat] at h
      rw [lineBehind, List.count_append, List.count_eq_zero.mpr h, List.count_singleton]
      by_cases hnewline : last = '\n' <;> simp [hnewline]

/-- In a text of one line a character is reported on the first line, and a missing
quote on the line that the text ends on. -/
theorem mem_entries_of_line {dialect : Dialect} {source : String}
    (h : '\n' ∉ source.toList.dropLast) {report : Diagnostic}
    (hreport : report ∈ (scan dialect source).state.entries) :
    report = ⟨⟨1⟩, "Unexpected character."⟩ ∨
      report = ⟨⟨if source.toList.getLast? = some '\n' then 2 else 1⟩, "Unterminated String"⟩ := by
  simp only [scan_eq, List.mem_toArray] at hreport
  have hplace := place_of_mem_diagnosticsFrom (isCut_items dialect source.toList) hreport
  rw [flatMap_chars_items] at hplace
  rcases hplace with ⟨before, c, behind, htext, hplace⟩ | hplace
  · have hbefore : '\n' ∉ before := by
      intro hmem
      apply h
      rw [htext, List.dropLast_append_of_ne_nil (List.cons_ne_nil _ _)]
      exact List.mem_append_left _ hmem
    have hline : Line.first.after before = ⟨1⟩ := lineBehind_of_not_mem hbefore
    rw [hplace, hline]
    exact .inl rfl
  · have hline : Line.first.after source.toList = _ := lineBehind_of_line h
    rw [hplace, hline]
    exact .inr rfl

/-! ## The program -/

theorem runWith_prompt {parse : List String → Except UsageError Request} {invocation : Invocation}
    (h : parse invocation.arguments = .ok .prompt) :
    runWith parse invocation = outcome (runPrompt invocation.device invocation.input) := by
  rw [runWith, h]

/-- **Sessions.** Let the arguments be read as a call for the prompt, and let the
standard output take what is written. The input has lines, and in one way only, and
those before the first that is no text are handled. After any number of them the
streams are the fold of their answers, each made from its line alone, and the
session goes on with the other lines. In the end the prompt is shown once more. The
status is 0 if all lines were texts, whatever faults they have, and otherwise 1,
with the reason on the error stream. A fault in a line is on the first line or, if
it is a missing quote and a newline ends the line, on the second. -/
theorem run_prompt {parse : List String → Except UsageError Request} {invocation : Invocation}
    (h : parse invocation.arguments = .ok .prompt) (hdevice : invocation.device = .working) :
    (∃ handled left, Handles invocation.input handled left ∧
      ∀ lines, LinesOf invocation.input lines → lines = handled.map encoded ++ left) ∧
    ∀ handled left, Handles invocation.input handled left →
      (∀ first later, handled = first ++ later →
        (runPrompt .working invocation.input).exec .empty =
          (runPrompt .working (later.map encoded ++ left).flatten).exec
            (first.foldl answered .empty)) ∧
      runWith parse invocation =
        ⟨if left = [] then 0 else 1,
          (handled.foldl answered .empty).stdout ++ "> ",
          (handled.foldl answered .empty).stderr ++
            if left = [] then "" else "Error: stream did not contain valid UTF-8\n"⟩ ∧
      ∀ source ∈ handled, ∀ report ∈ (scan dialect source).state.entries,
        report = ⟨⟨1⟩, "Unexpected character."⟩ ∨
          report = ⟨⟨if source.toList.getLast? = some '\n' then 2 else 1⟩,
            "Unterminated String"⟩ := by
  constructor
  · obtain ⟨handled, left, hhandles⟩ := exists_handles invocation.input
    exact ⟨handled, left, hhandles, fun lines hlines => hhandles.lines.unique hlines⟩
  intro handled left hhandles
  have hlines := hhandles.lines
  refine ⟨?_, ?_, ?_⟩
  · rintro first later rfl
    rw [List.map_append, List.append_assoc] at hlines
    exact (exec_runPrompt_append hlines .empty).1
  · obtain ⟨hsession, hrest⟩ := exec_runPrompt_append hlines .empty
    rw [runWith_prompt h, hdevice]
    cases left with
    | nil =>
        apply (outcome_of_ok (hsession.trans (exec_runPrompt_nil _))).trans
        rfl
    | cons line left =>
        have hline := hhandles.stops line rfl
        apply (outcome_of_error (hsession.trans (exec_runPrompt_of_noText hrest hline _))).trans
        rw [if_neg (List.cons_ne_nil _ _), if_neg (List.cons_ne_nil _ _), Failure.report_noText]
        simp [Streams.append, promptMark]
  · intro source hsource report hreport
    have hline : encoded source ∈ handled.map encoded ++ left :=
      List.mem_append_left _ (List.mem_map_of_mem hsource)
    have hfeed := not_mem_dropLast_of_encoded (hlines.not_mem_dropLast _ hline)
    exact mem_entries_of_line hfeed hreport

/-- A line without faults, a line with an open string and a fault before it, a line
that is no text, and a line that is not looked at. -/
theorem run_prompt_invalid_line :
    Request.ofArguments [] = .ok .prompt ∧
      run ⟨[], ⟨[]⟩, [43, 10, 64, 34, 43, 10, 255, 10, 43], .working⟩ =
        ⟨1, "> PLUS + null\nEOF  null\n> EOF  null\n> ",
          "[line 1] Error: Unexpected character.\n[line 2] Error: Unterminated String\n" ++
            "Error: stream did not contain valid UTF-8\n"⟩ := by
  have hprompt : Request.ofArguments [] = .ok .prompt := by rfl
  have hlines : LinesOf ([43] ++ 10 :: ([64, 34, 43] ++ 10 :: ([255] ++ 10 :: [43])))
      [[43] ++ [10], [64, 34, 43] ++ [10], [255] ++ [10], [43]] := by
    apply LinesOf.line (by decide)
    apply LinesOf.line (by decide)
    apply LinesOf.line (by decide)
    exact .last (by decide) (by decide)
  have hinvalid : decode? [255, 10] = none := by decide
  have hhandles : Handles [43, 10, 64, 34, 43, 10, 255, 10, 43] ["+\n", "@\"+\n"]
      [[255, 10], [43]] := by
    refine ⟨hlines, ?_⟩
    intro line hline
    rw [← Option.some.inj hline]
    exact decode?_eq_none_iff.mp hinvalid
  have hrun := @run_prompt Request.ofArguments
    (Trial.invocation ⟨[], ⟨[]⟩, [43, 10, 64, 34, 43, 10, 255, 10, 43], .working⟩) hprompt rfl
  refine ⟨hprompt, (hrun.2 _ _ hhandles).2.1.trans ?_⟩
  cbv

end Lox.CommandLine
