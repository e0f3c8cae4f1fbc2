/-
# Reports from single characters

The reports of a scan can be had without cutting the text into items. An
automaton goes through the characters one by one and only remembers whether it
is in a string, in a comment or in neither, which it knows from the quotes, the
double slashes and the line feeds. Numbers, names and operators mean nothing to
it: outside of strings and comments each character is expected or is not.

A scan reads whole items, so one of its steps is a run of the automaton. The
step lemma `reports_chars_append` gives that run for each class of items. It
starts and ends outside of strings and comments, also for a comment, whose
end the automaton only sees at the line feed behind it.
-/

import Lox.Proofs.Lexeme

namespace Lox

/-- Where in a source text a character can stand. -/
inductive Mode where
  /-- Outside of strings and comments. -/
  | code
  /-- Between two slashes and the end of the line. -/
  | comment
  /-- Between two quotes. -/
  | string
deriving DecidableEq

namespace Mode

/-- The characters of the operators and the punctuation of every dialect. -/
def punctuation : List Char :=
  ['(', ')', '{', '}', ',', '.', '-', '+', ';', '*', '/', '!', '=', '<', '>']

/-- Whether a character other than a quote may stand in code. -/
def IsExpected (dialect : Dialect) (c : Char) : Prop :=
  c ∈ [' ', '\t', '\r', '\n'] ∨ c.isAlpha = true ∨ c.isDigit = true ∨ c = '_' ∨
    c ∈ punctuation ∨ dialect.ternary = true ∧ c ∈ ['?', ':']

instance (dialect : Dialect) : DecidablePred (IsExpected dialect) :=
  fun _ => inferInstanceAs (Decidable (_ ∨ _))

/-- The reports of the automaton over a text that begins on the given line. -/
def reports (dialect : Dialect) : Mode → Line → List Char → List Diagnostic
  | string, line, [] => [⟨line, "Unterminated String"⟩]
  | code, _, [] | comment, _, [] => []
  | code, line, '"' :: rest => reports dialect string line rest
  | code, line, '/' :: '/' :: rest => reports dialect comment line rest
  | code, line, c :: rest =>
    (if IsExpected dialect c then [] else [⟨line, "Unexpected character."⟩]) ++
      reports dialect code (line.after [c]) rest
  | comment, line, c :: rest =>
    reports dialect (if c = '\n' then code else comment) (line.after [c]) rest
  | string, line, c :: rest =>
    reports dialect (if c = '"' then code else string) (line.after [c]) rest

variable {dialect : Dialect} {c : Char} {rest : List Char}

/-! ## Expected characters -/

theorem isExpected_of_isBlank (h : isBlank c = true) : IsExpected dialect c :=
  .inl (isBlank_iff.mp h)

theorem isExpected_of_continuesWord (h : continuesWord c = true) : IsExpected dialect c := by
  rcases continuesWord_iff.mp h with halpha | hunder | hdigit
  · exact .inr (.inl halpha)
  · exact .inr (.inr (.inr (.inl hunder)))
  · exact .inr (.inr (.inl hdigit))

theorem isExpected_of_mem_chars {which : Symbol} (h : which.isIn dialect = true)
    (hc : c ∈ which.chars) : IsExpected dialect c := by
  obtain ⟨ternary⟩ := dialect
  have hall : Symbol.all.all (fun symbol =>
      !symbol.isIn ⟨ternary⟩ || symbol.chars.all fun c => IsExpected ⟨ternary⟩ c) = true := by
    cases ternary <;> decide
  have hchars := List.all_eq_true.mp hall which which.mem_all
  rw [h, Bool.not_true, Bool.false_or] at hchars
  exact of_decide_eq_true (List.all_eq_true.mp hchars c hc)

/-- Each character that is expected begins an item of the language. -/
theorem not_isExpected_of_isMark (h : IsMark c) (hnone : Symbol.ofChar? dialect c = none) :
    ¬ IsExpected dialect c := by
  obtain ⟨ternary⟩ := dialect
  have hmarks : punctuation.all (fun c => (Symbol.ofChar? ⟨ternary⟩ c).isSome) = true := by
    cases ternary <;> decide
  have hconditional : ternary = true →
      ['?', ':'].all (fun c => (Symbol.ofChar? ⟨ternary⟩ c).isSome) = true := by
    rintro rfl
    decide
  have hword := Bool.eq_false_iff.mp h.not_startsWord
  rintro (hblank | halpha | hdigit | hunder | hmark | ⟨hternary, hmark⟩)
  · exact Bool.eq_false_iff.mp h.not_isBlank (isBlank_iff.mpr hblank)
  · exact hword (startsWord_iff.mpr (.inl halpha))
  · exact Bool.eq_false_iff.mp h.not_isDigit hdigit
  · exact hword (startsWord_iff.mpr (.inr hunder))
  · have hsome := List.all_eq_true.mp hmarks c hmark
    simp [hnone] at hsome
  · have hsome := List.all_eq_true.mp (hconditional hternary) c hmark
    simp [hnone] at hsome

/-! ## Ordinary characters -/

/-- Whether a character begins neither a string nor a comment. -/
structure IsOrdinary (c : Char) : Prop where
  ne_quote : c ≠ '"'
  ne_slash : c ≠ '/'

theorem isOrdinary_of_isBlank (h : isBlank c = true) : IsOrdinary c := by
  constructor <;> rintro rfl <;> cases h

theorem isOrdinary_of_continuesWord (h : continuesWord c = true) : IsOrdinary c := by
  refine ⟨(not_isBlank_of_continuesWord h).2, ?_⟩
  rintro rfl
  cases h

theorem isOrdinary_of_mem_chars {which : Symbol} (hwhich : which ≠ .slash)
    (hc : c ∈ which.chars) : IsOrdinary c := by
  have hall : Symbol.all.all (fun symbol =>
      symbol = .slash || symbol.chars.all fun c => c ≠ '"' ∧ c ≠ '/') = true := by decide
  have hchars := List.all_eq_true.mp hall which which.mem_all
  rw [decide_eq_false hwhich, Bool.false_or] at hchars
  obtain ⟨hquote, hslash⟩ := of_decide_eq_true (List.all_eq_true.mp hchars c hc)
  exact ⟨hquote, hslash⟩

/-- A number is written with characters that a word may have, and with a point. -/
theorem continuesWord_or_mem_dot {whole fraction : List Char}
    (hwhole : ∀ c ∈ whole, c.isDigit = true) (hfraction : ∀ c ∈ fraction, c.isDigit = true)
    (hc : c ∈ Decimal.written whole fraction) :
    continuesWord c = true ∨ c ∈ Symbol.dot.chars := by
  rcases Decimal.mem_written hc with hmem | rfl | hmem
  · exact .inl (continuesWord_of_isDigit (hwhole c hmem))
  · exact .inr List.mem_cons_self
  · exact .inl (continuesWord_of_isDigit (hfraction c hmem))

theorem isOrdinary_of_mem_written {whole fraction : List Char}
    (hwhole : ∀ c ∈ whole, c.isDigit = true) (hfraction : ∀ c ∈ fraction, c.isDigit = true)
    (hc : c ∈ Decimal.written whole fraction) : IsOrdinary c := by
  rcases continuesWord_or_mem_dot hwhole hfraction hc with hword | hdot
  · exact isOrdinary_of_continuesWord hword
  · have hother : Symbol.dot ≠ .slash := nofun
    exact isOrdinary_of_mem_chars hother hdot

/-! ## Steps and runs of the automaton -/

theorem reports_code_cons (line : Line) (hquote : c ≠ '"')
    (hslash : c = '/' → rest.head? ≠ some '/') :
    reports dialect code line (c :: rest) =
      (if IsExpected dialect c then [] else [⟨line, "Unexpected character."⟩]) ++
        reports dialect code (line.after [c]) rest := by
  rw [reports]
  · rintro rfl
    exact absurd rfl hquote
  · rintro left rfl rfl
    exact hslash rfl rfl

/-- Whether the automaton passes over a character in a mode: it stays in the mode
and reports nothing, whatever comes behind the character. -/
def Passes (dialect : Dialect) (mode : Mode) (c : Char) : Prop :=
  ∀ line rest, reports dialect mode line (c :: rest) = reports dialect mode (line.after [c]) rest

theorem reports_append {mode : Mode} {text : List Char} (h : ∀ c ∈ text, Passes dialect mode c)
    (line : Line) :
    reports dialect mode line (text ++ rest) = reports dialect mode (line.after text) rest := by
  induction text generalizing line with
  | nil => rfl
  | cons c text ih =>
      obtain ⟨hc, htext⟩ := List.forall_mem_cons.mp h
      rw [List.cons_append, hc, ih htext, ← Line.after_append]
      rfl

theorem passes_comment {body : List Char} (h : '\n' ∉ body) :
    ∀ c ∈ body, Passes dialect comment c := by
  intro c hc line rest
  have hstay : c ≠ '\n' := by
    rintro rfl
    exact h hc
  rw [reports, if_neg hstay]

theorem passes_string {body : List Char} (h : '"' ∉ body) :
    ∀ c ∈ body, Passes dialect string c := by
  intro c hc line rest
  have hstay : c ≠ '"' := by
    rintro rfl
    exact h hc
  rw [reports, if_neg hstay]

theorem passes_code (hexpected : IsExpected dialect c) (h : IsOrdinary c) :
    Passes dialect code c := by
  intro line rest
  rw [reports_code_cons line h.ne_quote (absurd · h.ne_slash), if_pos hexpected]
  rfl

theorem passes_of_isBlank (h : isBlank c = true) : Passes dialect code c :=
  passes_code (isExpected_of_isBlank h) (isOrdinary_of_isBlank h)

theorem passes_of_continuesWord (h : continuesWord c = true) : Passes dialect code c :=
  passes_code (isExpected_of_continuesWord h) (isOrdinary_of_continuesWord h)

theorem passes_of_mem_chars {which : Symbol} (h : which.isIn dialect = true)
    (hwhich : which ≠ .slash) (hc : c ∈ which.chars) : Passes dialect code c :=
  passes_code (isExpected_of_mem_chars h hc) (isOrdinary_of_mem_chars hwhich hc)

theorem passes_of_mem_written {whole fraction : List Char}
    (hwhole : ∀ c ∈ whole, c.isDigit = true) (hfraction : ∀ c ∈ fraction, c.isDigit = true)
    (hc : c ∈ Decimal.written whole fraction) : Passes dialect code c := by
  rcases continuesWord_or_mem_dot hwhole hfraction hc with hword | hdot
  · exact passes_of_continuesWord hword
  · have hin : Symbol.dot.isIn dialect = true := rfl
    exact passes_of_mem_chars hin nofun hdot

/-- Where a comment ends, the automaton goes on as if it had left it already. -/
theorem reports_comment_eq_code (line : Line) (h : ∀ c ∈ rest.head?, c = '\n') :
    reports dialect comment line rest = reports dialect code line rest := by
  cases rest with
  | nil => rfl
  | cons c rest =>
      obtain rfl := h c rfl
      have hfeed : Passes dialect code '\n' := passes_of_isBlank rfl
      rw [hfeed, reports, if_pos rfl]

/-- The automaton reads an item as the scan does. It reports what the scan
reports and is in code again on the line where the item ends. -/
theorem reports_chars_append {item : Item} (h : item.StandsBefore dialect rest) (line : Line) :
    reports dialect code line (item.chars ++ rest) =
      (item.diagnostic? line).toList ++ reports dialect code (line.after item.chars) rest := by
  obtain ⟨hwf, hend⟩ := h
  cases item with
  | blank c =>
      apply reports_append
      intro d hd
      obtain rfl := List.mem_singleton.mp hd
      exact passes_of_isBlank hwf
  | comment body =>
      have hline : line.after (Item.comment body).chars = line.after body := by
        rw [Item.chars, Line.after_cons, Line.after_cons]
        rfl
      rw [hline, ← reports_comment_eq_code _ hend, ← reports_append (passes_comment hwf) line]
      rfl
  | symbol which =>
      -- A slash is passed over for what stands behind it, all others for what they are.
      by_cases hwhich : which = .slash
      · subst hwhich
        have hsecond : rest.head? ≠ some '/' := by
          intro hhead
          exact hend '/' hhead (.inr ⟨rfl, rfl⟩)
        have hslash : IsExpected dialect '/' := isExpected_of_mem_chars hwf List.mem_cons_self
        have hread : reports dialect code line ('/' :: rest) =
            reports dialect code (line.after ['/']) rest := by
          rw [reports_code_cons line (by decide) fun _ => hsecond, if_pos hslash]
          rfl
        exact hread
      · exact reports_append (fun _ => passes_of_mem_chars hwf hwhich) line
  | string body =>
      have hline : line.after (Item.string body).chars = (line.after body).after ['"'] := by
        rw [Item.chars, Line.after_cons, ← Line.after_append]
        rfl
      have hread : reports dialect string line (body ++ '"' :: rest) =
          reports dialect code ((line.after body).after ['"']) rest := by
        rw [reports_append (passes_string hwf), reports, if_pos rfl]
      rw [hline, ← hread, Item.chars, List.cons_append, List.append_assoc]
      rfl
  | number whole fraction =>
      obtain ⟨-, hwhole, hfraction⟩ := hwf
      exact reports_append (fun _ => passes_of_mem_written hwhole hfraction) line
  | word letters =>
      cases letters with
      | nil => exact hwf.elim
      | cons c letters =>
          obtain ⟨hfirst, hothers⟩ := hwf
          have hword : ∀ d ∈ c :: letters, continuesWord d = true :=
            List.forall_mem_cons.mpr ⟨continuesWord_of_startsWord hfirst, hothers⟩
          exact reports_append (fun d hd => passes_of_continuesWord (hword d hd)) line
  | unterminated body =>
      obtain rfl : rest = [] := hend
      have hline : line.after (Item.unterminated body).chars = line.after body := by
        rw [Item.chars, Line.after_cons]
        rfl
      have hread : reports dialect string line (body ++ []) =
          [⟨line.after body, "Unterminated String"⟩] := reports_append (passes_string hwf) line
      rw [Item.diagnostic?, hline]
      exact hread
  | illegal c =>
      obtain ⟨hmark, hnone⟩ := hwf
      have hslash : c = '/' → rest.head? ≠ some '/' := by
        rintro rfl
        cases hnone
      have hread : reports dialect code line (c :: rest) =
          ⟨line, "Unexpected character."⟩ :: reports dialect code (line.after [c]) rest := by
        rw [reports_code_cons line hmark.ne_quote hslash,
          if_neg (not_isExpected_of_isMark hmark hnone)]
        rfl
      exact hread

/-- A run of the automaton over the items of a text, one after the other. -/
theorem reports_flatMap_chars {row : List Item} (h : IsCut dialect row) (line : Line) :
    reports dialect code line (row.flatMap Item.chars) = diagnosticsFrom line row := by
  induction row generalizing line with
  | nil => rfl
  | cons item row ih =>
      obtain ⟨hstands, hrow⟩ := h
      rw [List.flatMap_cons, reports_chars_append hstands, ih hrow]
      rfl

end Mode

/-- **The reports of a scan are those of the automaton.** In order, each with its
line and its message, they are what the automaton reports that starts in code on
the first line. A scan is free of faults exactly if the automaton reports nothing. -/
theorem scan_modeReports (dialect : Dialect) (source : String) :
    (scan dialect source).state.entries.toList =
        Mode.reports dialect .code .first source.toList ∧
      ((scan dialect source).state.isEmpty = true ↔
        Mode.reports dialect .code .first source.toList = []) := by
  have hreports : Mode.reports dialect .code .first source.toList = diagnostics dialect source := by
    have hrun := Mode.reports_flatMap_chars (isCut_items dialect source.toList) .first
    rwa [flatMap_chars_items] at hrun
  rw [scan_eq, hreports]
  refine ⟨List.toList_toArray, ?_⟩
  rw [Log.isEmpty, List.isEmpty_toArray, List.isEmpty_iff]

end Lox
