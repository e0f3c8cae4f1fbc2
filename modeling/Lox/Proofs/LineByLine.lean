/-
# Scripts and sessions on the same text

A text can be given to the program as a script or typed in at the prompt. The
script is scanned as a whole and the session scans one line after the other, each
as if it were a text of its own. Only a string can tell the difference, by going
on over the end of a line.

This module says that nothing else can. If no line leaves a string open, the items
of the text are those of its lines, and what the script yields is what the lines
yield one after the other, each moved to its place. A script has faults exactly if
a session on the same text tells of some.
-/

import Lox.Proofs.Newline
import Lox.Proofs.Prompt

namespace Lox

universe u

/-! ## The lines of a text -/

/-- A text cut behind each line feed. Only the last line may lack one, and no line
is empty. -/
def cutLines : List Char → List (List Char)
  | [] => []
  | c :: text =>
    if c = '\n' then [c] :: cutLines text
    else
      match cutLines text with
      | [] => [[c]]
      | line :: lines => (c :: line) :: lines

/-- The lines of a source text. -/
def sourceLines (source : String) : List String := (cutLines source.toList).map String.ofList

theorem cutLines_newline {body : List Char} (h : '\n' ∉ body) (rest : List Char) :
    cutLines (body ++ '\n' :: rest) = (body ++ ['\n']) :: cutLines rest := by
  induction body with
  | nil => rfl
  | cons c body ih =>
      rw [List.mem_cons, not_or] at h
      obtain ⟨hc, hbody⟩ := h
      rw [List.cons_append, cutLines, if_neg (Ne.symm hc), ih hbody]
      rfl

theorem cutLines_of_not_mem {body : List Char} (hne : body ≠ []) (h : '\n' ∉ body) :
    cutLines body = [body] := by
  induction body with
  | nil => exact absurd rfl hne
  | cons c body ih =>
      rw [List.mem_cons, not_or] at h
      obtain ⟨hc, hbody⟩ := h
      rw [cutLines, if_neg (Ne.symm hc)]
      cases body with
      | nil => rfl
      | cons d body => rw [ih (List.cons_ne_nil _ _) hbody]

/-- A text is empty, or a line without a line feed, or a line and another text. -/
theorem line_induction {motive : List Char → Prop} (done : motive [])
    (last : ∀ body, body ≠ [] → '\n' ∉ body → motive body)
    (line : ∀ body rest, '\n' ∉ body → motive rest → motive (body ++ '\n' :: rest))
    (text : List Char) : motive text := by
  induction text using (measure List.length).wf.induction with
  | h text ih =>
      by_cases hfeed : '\n' ∈ text
      · obtain ⟨body, rest, rfl, hbody⟩ := List.eq_append_cons_of_mem hfeed
        have hshorter : rest.length < (body ++ '\n' :: rest).length := by simp; omega
        exact line body rest hbody (ih rest hshorter)
      · by_cases hempty : text = []
        · exact hempty ▸ done
        · exact last text hempty hfeed

/-! ## What a line yields -/

section Yield

variable {α : Type u} {yield? : Line → Item → Option α} {mark : α → Line} {place : α → Line → α}

/-- What can be collected line by line: it is marked with a line of its item, it is
the same on every line, and blanks have no part in it. -/
structure YieldsByLine (yield? : Line → Item → Option α) (mark : α → Line)
    (place : α → Line → α) : Prop where
  within : MarksWithin yield? mark
  moves : MovesWith yield? mark place
  blank : ∀ line c, yield? line (.blank c) = none

theorem yieldsByLine_token? :
    YieldsByLine (fun line item => item.token? line) Token.line Token.onLine :=
  ⟨Item.marksWithin_token?, Item.movesWith_token?, fun _ _ => rfl⟩

theorem yieldsByLine_diagnostic? :
    YieldsByLine (fun line item => item.diagnostic? line) Diagnostic.line Diagnostic.onLine :=
  ⟨Item.marksWithin_diagnostic?, Item.movesWith_diagnostic?, fun _ _ => rfl⟩

variable {dialect : Dialect} {body : List Char}

/-- Within a line everything is on that line. -/
theorem YieldsByLine.along_of_not_mem (h : YieldsByLine yield? mark place) (hbody : '\n' ∉ body)
    (n : Nat) :
    along yield? (Line.first.plus n) (items dialect body) =
      (along yield? .first (items dialect body)).map (place · ⟨1 + n⟩) := by
  rw [h.moves.along_plus]
  apply List.map_congr_left
  intro a ha
  have hbounds := h.within.bounds .first (items dialect body) a ha
  have hend : Line.first.after body = .first := CommandLine.lineBehind_of_not_mem hbody
  rw [flatMap_chars_items, hend] at hbounds
  have hmark : mark a = .first := congrArg Line.mk (Nat.le_antisymm hbounds.2 hbounds.1)
  rw [hmark]
  rfl

/-- The line feed of a line adds nothing. -/
theorem YieldsByLine.along_newline (h : YieldsByLine yield? mark place)
    (hclosed : IsClosed (items dialect body)) (line : Line) :
    along yield? line (items dialect (body ++ ['\n'])) =
      along yield? line (items dialect body) := by
  rw [items_append_newline hclosed, along_append, along, h.blank, items_nil]
  exact List.append_nil _

/-- What a text yields is what its lines yield, each on the line where it stands. -/
theorem YieldsByLine.along_cutLines (h : YieldsByLine yield? mark place) {text : List Char}
    (hclosed : ∀ line ∈ cutLines text, IsClosed (items dialect line)) (n : Nat) :
    along yield? (Line.first.plus n) (items dialect text) =
      ((cutLines text).zipIdx (1 + n)).flatMap fun numbered =>
        (along yield? .first (items dialect numbered.1)).map (place · ⟨numbered.2⟩) := by
  induction text using line_induction generalizing n with
  | done =>
      rw [items_nil]
      rfl
  | last body hne hbody =>
      rw [cutLines_of_not_mem hne hbody, h.along_of_not_mem hbody]
      exact (List.append_nil _).symm
  | line body rest hbody ih =>
      rw [cutLines_newline hbody] at hclosed ⊢
      obtain ⟨hfirst, hothers⟩ := List.forall_mem_cons.mp hclosed
      have hline := isClosed_of_append_newline hfirst
      have hnext : ((Line.first.plus n).after body).after (Item.blank '\n').chars =
          Line.first.plus (n + 1) := by
        have hend : Line.first.after body = .first := CommandLine.lineBehind_of_not_mem hbody
        rw [Line.after_plus, hend]
        rfl
      rw [items_append_newline hline, along_append, flatMap_chars_items, along, h.blank,
        hnext, ih hothers, List.zipIdx_cons, List.flatMap_cons, h.along_newline hline,
        h.along_of_not_mem hbody]
      rfl

end Yield

namespace CommandLine

/-! ## The session on a text -/

/-- The lines of a text are the lines that a session on the text reads. -/
theorem linesOf_sourceLines (source : String) :
    LinesOf (encoded source) ((sourceLines source).map encoded) := by
  have hlines (text : List Char) : LinesOf (encoded (String.ofList text))
      ((cutLines text).map fun line => encoded (String.ofList line)) := by
    induction text using line_induction with
    | done => exact .done
    | last body hne hbody =>
        rw [cutLines_of_not_mem hne hbody]
        exact .last (encoded_ne_nil hne) (newline_not_mem_encoded hbody)
    | line body rest hbody ih =>
        rw [cutLines_newline hbody, List.map_cons, ← List.singleton_append, encoded_append,
          encoded_append, encoded_append, encoded_newline]
        exact .line (newline_not_mem_encoded hbody) ih
  have hsource := hlines source.toList
  rw [String.ofList_toList] at hsource
  rwa [sourceLines, List.map_map]

/-- The answers to some lines tell of no faults exactly if none of the lines has any. -/
theorem stderr_foldl_answered_eq_empty_iff (lines : List String) (streams : Streams) :
    (lines.foldl answered streams).stderr = "" ↔
      streams.stderr = "" ∧ ∀ line ∈ lines, (scan dialect line).state = .empty := by
  induction lines generalizing streams with
  | nil => simp
  | cons line lines ih =>
      have hline : (answered streams line).stderr = "" ↔
          streams.stderr = "" ∧ (scan dialect line).state = .empty := by
        rw [answered, Streams.append, String.append_eq_empty_iff]
        split
        next hempty => simp [hempty]
        next hreports => simp [hreports, String.append_eq_empty_iff]
      rw [List.foldl_cons, ih, hline, List.forall_mem_cons, and_assoc]

/-- A session on a text takes all its lines. -/
theorem exec_runPrompt_encoded (source : String) :
    (runPrompt .working (encoded source)).exec .empty =
      (.ok 0, ((sourceLines source).foldl answered .empty).append promptMark "") := by
  have hlines : LinesOf (encoded source) ((sourceLines source).map encoded ++ []) := by
    rw [List.append_nil]
    exact linesOf_sourceLines source
  exact (exec_runPrompt_append hlines .empty).1.trans (exec_runPrompt_nil _)

/-- A session on a text leaves the error stream empty exactly if no line has faults. -/
theorem stderr_runPrompt_eq_empty_iff (source : String) :
    (outcome (runPrompt .working (encoded source))).stderr = "" ↔
      ∀ line ∈ sourceLines source, (scan dialect line).state = .empty := by
  rw [outcome_of_ok (exec_runPrompt_encoded source), Streams.append, String.append_empty,
    stderr_foldl_answered_eq_empty_iff]
  exact and_iff_right rfl

/-! ## The script of a text -/

/-- The status for faults is that of a script with faults. -/
theorem status_runScript_eq_iff {name source : String} :
    (outcome (runScript .working name (.ok source))).status = 65 ↔
      (scan dialect source).state ≠ .empty := by
  by_cases h : (scan dialect source).state = .empty
  · simp [outcome_of_ok (exec_runScript_of_empty h), h]
  · simp [outcome_of_ok (exec_runScript_of_ne_empty h), h, faultyScript]

/-! ## Both together -/

/-- What a text yields is what its lines yield, as strings and each on its line. -/
theorem along_sourceLines {α : Type} {yield? : Line → Item → Option α} {mark : α → Line}
    {place : α → Line → α} (hyield : YieldsByLine yield? mark place) {source : String}
    (hclosed : ∀ line ∈ sourceLines source, IsClosed (items dialect line.toList)) :
    along yield? .first (items dialect source.toList) =
      ((sourceLines source).zipIdx 1).flatMap fun numbered =>
        (along yield? .first (items dialect numbered.1.toList)).map (place · ⟨numbered.2⟩) := by
  have hlines : ∀ line ∈ cutLines source.toList, IsClosed (items dialect line) := by
    intro line hline
    have hstring := hclosed _ (List.mem_map_of_mem hline)
    rwa [String.toList_ofList] at hstring
  rw [sourceLines, List.zipIdx_map, List.flatMap_map]
  simp only [Prod.map, id, String.toList_ofList]
  exact hyield.along_cutLines hlines 0

/-- **Scripts and sessions agree.** Let no line of a text leave a string open when it
is scanned by itself. A session on the text takes its lines, and what they yield one
after the other, each on the line with its number, is what a scan of the whole text
yields, tokens and reports alike. Where outputs take what is written, the status of
the text as a script is 65 exactly if a session on the text writes something to the
error stream. -/
theorem scan_lineByLine {source : String}
    (h : ∀ line ∈ sourceLines source, ∀ report ∈ (scan dialect line).state.entries,
      report.message ≠ "Unterminated String") :
    Handles (encoded source) (sourceLines source) [] ∧
      (scan dialect source).tokens.toList.filter (·.kind ≠ .eof) =
        ((sourceLines source).zipIdx 1).flatMap (fun (line, number) =>
          ((scan dialect line).tokens.toList.filter (·.kind ≠ .eof)).map (·.onLine ⟨number⟩)) ∧
      (scan dialect source).state.entries.toList =
        ((sourceLines source).zipIdx 1).flatMap (fun (line, number) =>
          (scan dialect line).state.entries.toList.map (·.onLine ⟨number⟩)) ∧
      ∀ {parse : List String → Except UsageError Request} {script prompt : Invocation}
        {name : String}, parse script.arguments = .ok (.script name) →
        script.files.bytesAt script.input name = .ok (encoded source) →
        parse prompt.arguments = .ok .prompt → prompt.input = encoded source →
        script.device = .working → prompt.device = .working →
          ((runWith parse script).status = 65 ↔ (runWith parse prompt).stderr ≠ "") := by
  have hclosed : ∀ line ∈ sourceLines source, IsClosed (items dialect line.toList) := by
    intro line hline
    have hreports := h line hline
    simp only [← Array.mem_toList_iff, toList_entries_scan] at hreports
    exact isClosed_iff.mpr hreports
  have hentries : (scan dialect source).state.entries.toList =
      ((sourceLines source).zipIdx 1).flatMap fun numbered =>
        (scan dialect numbered.1).state.entries.toList.map (·.onLine ⟨numbered.2⟩) := by
    simp only [toList_entries_scan, diagnosticsFrom_eq_along]
    exact along_sourceLines yieldsByLine_diagnostic? hclosed
  have hfaults : (scan dialect source).state = .empty ↔
      ∀ line ∈ sourceLines source, (scan dialect line).state = .empty := by
    have hfirst := List.zipIdx_map_fst 1 (sourceLines source)
    rw [← hfirst, List.forall_mem_map]
    simp only [Log.eq_empty_iff, hentries, List.flatMap_eq_nil_iff, List.map_eq_nil_iff]
  refine ⟨?_, ?_, hentries, ?_⟩
  · refine ⟨?_, fun _ => nofun⟩
    rw [List.append_nil]
    exact linesOf_sourceLines source
  · simp only [toList_tokens_scan, filter_tokensFrom, tokensWithin_eq_along]
    exact along_sourceLines yieldsByLine_token? hclosed
  · intro parse script prompt name hscript hsource hprompt hinput hscriptDevice hpromptDevice
    rw [runWith_script hscript, FileSystem.read_of_encoded hsource, hscriptDevice,
      status_runScript_eq_iff, runWith_prompt hprompt, hpromptDevice, hinput, ne_eq, ne_eq,
      stderr_runPrompt_eq_empty_iff, hfaults]

/-- A number that a point follows at the end of its line, a fault before a comment
with a quote in it, an empty line, and a line without a line feed. -/
theorem scan_lineByLine_four :
    (∀ line ∈ sourceLines "3.\n@//\"\n\n5", ∀ report ∈ (scan dialect line).state.entries,
        report.message ≠ "Unterminated String") ∧
      sourceLines "3.\n@//\"\n\n5" = ["3.\n", "@//\"\n", "\n", "5"] ∧
      ((scan dialect "3.\n@//\"\n\n5").tokens.toList.filter (·.kind ≠ .eof)).map
        (fun token => (token.text, token.line)) =
          [("NUMBER 3 3.0", ⟨1⟩), ("DOT . null", ⟨1⟩), ("NUMBER 5 5.0", ⟨4⟩)] ∧
      (scan dialect "3.\n@//\"\n\n5").state.entries.toList = [⟨⟨2⟩, "Unexpected character."⟩] ∧
      (run ⟨["a"], ⟨[("a", encoded "3.\n@//\"\n\n5")]⟩, [], .working⟩).status = 65 ∧
      (run ⟨[], ⟨[]⟩, encoded "3.\n@//\"\n\n5", .working⟩).stderr =
        "[line 1] Error: Unexpected character.\n" := by
  have hclosed : ∀ line ∈ sourceLines "3.\n@//\"\n\n5",
      ∀ report ∈ (scan dialect line).state.entries, report.message ≠ "Unterminated String" := by
    decide +kernel
  have htold : (run ⟨[], ⟨[]⟩, encoded "3.\n@//\"\n\n5", .working⟩).stderr =
      "[line 1] Error: Unexpected character.\n" := by decide +kernel
  obtain ⟨-, htokens, hreports, hrun⟩ := scan_lineByLine hclosed
  have hstatus := @hrun Request.ofArguments
    (Trial.invocation ⟨["a"], ⟨[("a", encoded "3.\n@//\"\n\n5")]⟩, [], .working⟩)
    (Trial.invocation ⟨[], ⟨[]⟩, encoded "3.\n@//\"\n\n5", .working⟩) "a" rfl rfl rfl rfl rfl rfl
  refine ⟨hclosed, by decide +kernel, ?_, ?_, hstatus.mpr ?_, htold⟩
  · rw [htokens]
    decide +kernel
  · rw [hreports]
    decide +kernel
  · intro hnothing
    have hempty := htold.symm.trans hnothing
    revert hempty
    decide

end CommandLine

end Lox
