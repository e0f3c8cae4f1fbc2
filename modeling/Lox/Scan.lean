/-
# Scanning

A scan goes through a source text once, item by item. It collects a token for
every item that has one and reports a fault for every item that is one, and
always ends with a token for the end of the text.

Who asks for a scan also says what a report does. The scan threads the caller's
state through its reports and never looks at it, so the tokens, and the reports
themselves, are the same for every caller. `scanWith_eq` is that statement: a
scan is the list of tokens of its source, and the caller's state after the list
of diagnostics of its source.
-/

import Lox.Item
import Lox.Diagnostic

namespace Lox

universe u

namespace Item

/-- The token of an item that begins on the given line. Blanks, comments and
faulty items have none, nor would a number whose characters could not be read. -/
def token? (line : Line) (item : Item) : Option Token :=
  let lexeme := String.ofList item.chars
  match item with
  | symbol which => some ⟨.symbol which, lexeme, none, line⟩
  | string body => some ⟨.string, lexeme, some (.str (String.ofList body)), line⟩
  | number _ _ =>
    (Binary64.ofText? item.chars).map fun value => ⟨.number, lexeme, some (.num value), line⟩
  | word _ => some ⟨(Keyword.ofText? lexeme).elim .identifier .keyword, lexeme, none, line⟩
  | blank _ | comment _ | unterminated _ | illegal _ => none

/-- The diagnostic for an item that begins on the given line. A character is
reported where it stands, a missing quote where the text ends. -/
def diagnostic? (line : Line) (item : Item) : Option Diagnostic :=
  match item with
  | unterminated _ => some (.ofFault (line.after item.chars) .unterminatedString)
  | illegal c => some (.ofFault line (.unexpectedCharacter c))
  | _ => none

end Item

/-- What a scan yields: the tokens, and the caller's state after all reports. -/
structure Scan (σ : Type u) where
  /-- The tokens, the last of them for the end of the text. -/
  tokens : Array Token
  /-- The state that the reports have led to. -/
  state : σ

/-- Scans what is left of a source text from the given line on, after the tokens
and the reports that came before. -/
def scanFrom {σ : Type u} (dialect : Dialect) (report : σ → Diagnostic → σ) (line : Line)
    (source : List Char) (tokens : Array Token) (state : σ) : Scan σ :=
  match h : Item.next? dialect source with
  | none => ⟨tokens.push (.eof line), state⟩
  | some (item, rest) =>
    have := Item.length_lt_of_next? h
    scanFrom dialect report (line.after item.chars) rest
      ((item.token? line).elim tokens tokens.push) ((item.diagnostic? line).elim state (report state))
termination_by source.length

/-- Scans a source text and reports each fault to the caller's state. -/
def scanWith {σ : Type u} (dialect : Dialect) (report : σ → Diagnostic → σ) (state : σ)
    (source : String) : Scan σ :=
  scanFrom dialect report .first source.toList #[] state

/-- Scans a source text and adds its faults to a log. -/
def scanInto (dialect : Dialect) (log : Log) (source : String) : Scan Log :=
  scanWith dialect Log.report log source

/-- Scans a source text and logs its faults. -/
def scan (dialect : Dialect) (source : String) : Scan Log := scanInto dialect .empty source

/-! ## The tokens and the diagnostics of a text -/

/-- The tokens of a row of items that begins on the given line, and the one for
the end. -/
def tokensFrom (line : Line) : List Item → List Token
  | [] => [.eof line]
  | item :: rest => (item.token? line).toList ++ tokensFrom (line.after item.chars) rest

/-- The diagnostics of a row of items that begins on the given line. -/
def diagnosticsFrom (line : Line) : List Item → List Diagnostic
  | [] => []
  | item :: rest => (item.diagnostic? line).toList ++ diagnosticsFrom (line.after item.chars) rest

/-- The tokens of a source text. -/
def tokens (dialect : Dialect) (source : String) : List Token :=
  tokensFrom .first (items dialect source.toList)

/-- The diagnostics of a source text. -/
def diagnostics (dialect : Dialect) (source : String) : List Diagnostic :=
  diagnosticsFrom .first (items dialect source.toList)

private theorem scanFrom_eq {σ : Type u} (dialect : Dialect) (report : σ → Diagnostic → σ)
    (source : List Char) : ∀ (line : Line) (earlier : Array Token) (state : σ),
    scanFrom dialect report line source earlier state =
      ⟨earlier ++ (tokensFrom line (items dialect source)).toArray,
        (diagnosticsFrom line (items dialect source)).foldl report state⟩ := by
  induction source using (measure List.length).wf.induction with
  | h source ih =>
    intro line earlier state
    rw [scanFrom]
    split
    next h => simp [items_of_next?_eq_none h, tokensFrom, diagnosticsFrom]
    next item rest h =>
      simp only [items_of_next?_eq_some h, ih rest (Item.length_lt_of_next? h)]
      congr 1
      · cases htoken : item.token? line <;> simp [tokensFrom, htoken]
      · cases hreport : item.diagnostic? line <;> simp [diagnosticsFrom, hreport]

/-- A scan yields the tokens of its source, and folds the report over the
diagnostics of its source, whatever the report does. -/
theorem scanWith_eq {σ : Type u} (dialect : Dialect) (report : σ → Diagnostic → σ) (state : σ)
    (source : String) :
    scanWith dialect report state source =
      ⟨(tokens dialect source).toArray, (diagnostics dialect source).foldl report state⟩ := by
  simp [scanWith, scanFrom_eq, tokens, diagnostics]

/-- A scan into a new log yields the tokens of its source, and the log holds the
diagnostics of its source and nothing else. -/
theorem scan_eq (dialect : Dialect) (source : String) :
    scan dialect source =
      ⟨(tokens dialect source).toArray, ⟨(diagnostics dialect source).toArray⟩⟩ := by
  have hlog : (diagnostics dialect source).foldl Log.report Log.empty =
      ⟨(diagnostics dialect source).toArray⟩ := by
    rw [Log.mk.injEq, Log.foldl_report]
    simp [Log.empty]
  rw [scan, scanInto, scanWith_eq, hlog]

/-- The tokens of a scan are those of the items of its source. -/
theorem toList_tokens_scan (dialect : Dialect) (source : String) :
    (scan dialect source).tokens.toList = tokensFrom .first (items dialect source.toList) := by
  rw [scan_eq]
  rfl

/-- The log of a scan holds the diagnostics of the items of its source. -/
theorem toList_entries_scan (dialect : Dialect) (source : String) :
    (scan dialect source).state.entries.toList =
      diagnosticsFrom .first (items dialect source.toList) := by
  rw [scan_eq]
  rfl

end Lox
