/-
# Diagnostics

Scanning meets two faults: a string whose closing quote is missing, and a
character with which no token begins. Neither stops the scan. Each is handed on
as a diagnostic, a line and a message, to whatever the caller wants done with
it; the usual choice is a log, which keeps them all in order.
-/

import Lox.Token.Basic

namespace Lox

/-- What can be wrong with a source text. -/
inductive Fault where
  /-- A string has no closing quote. -/
  | unterminatedString
  /-- No token begins with this character. -/
  | unexpectedCharacter (c : Char)
deriving DecidableEq

namespace Fault

/-- The message for a fault. It does not name the character. -/
def message : Fault → String
  | unterminatedString => "Unterminated String"
  | unexpectedCharacter _ => "Unexpected character."

/-- The structure of a fault. -/
def form : Fault → Form
  | unterminatedString => .atom "UnterminatedString"
  | unexpectedCharacter c => .tuple "UnexpectedCharacter" [.atom (Text.quotedChar c)]

end Fault

/-- A message about a line of the source text. -/
structure Diagnostic where
  /-- The line that the message is about. -/
  line : Line
  /-- What is wrong there. -/
  message : String
deriving DecidableEq

namespace Diagnostic

/-- The diagnostic for a fault on a line. -/
def ofFault (line : Line) (fault : Fault) : Diagnostic := ⟨line, fault.message⟩

/-- A diagnostic as text. -/
def text (diagnostic : Diagnostic) : String :=
  "[line " ++ toString diagnostic.line ++ "] Error: " ++ diagnostic.message

/-- The structure of a diagnostic. -/
def form (diagnostic : Diagnostic) : Form :=
  .record "ScanError"
    [.labelled "line" diagnostic.line.form,
     .labelled "message" (.atom (Text.quoted diagnostic.message))]

end Diagnostic

/-- The diagnostics reported so far, in order. -/
structure Log where
  /-- The entries, oldest first. -/
  entries : Array Diagnostic
deriving DecidableEq

namespace Log

/-- The log without entries. -/
def empty : Log := ⟨#[]⟩

/-- The log with one entry. -/
def singleton (diagnostic : Diagnostic) : Log := ⟨#[diagnostic]⟩

/-- The log with one more entry. -/
def report (log : Log) (diagnostic : Diagnostic) : Log := ⟨log.entries.push diagnostic⟩

/-- The number of entries. -/
def size (log : Log) : Nat := log.entries.size

/-- Whether nothing was reported. -/
def isEmpty (log : Log) : Bool := log.entries.isEmpty

/-- The log as text, one entry to a line, with nothing after the last. -/
def text (log : Log) : String := "\n".intercalate (log.entries.toList.map Diagnostic.text)

theorem isEmpty_iff {log : Log} : log.isEmpty = true ↔ log = empty := by
  rw [isEmpty, Array.isEmpty_iff, empty, mk.injEq]

theorem eq_empty_iff {log : Log} : log = empty ↔ log.entries.toList = [] := by
  rw [← isEmpty_iff, isEmpty, Array.isEmpty_iff, Array.toList_eq_nil_iff]

/-- Reporting a list of diagnostics adds them at the end. -/
theorem foldl_report (log : Log) (diagnostics : List Diagnostic) :
    (diagnostics.foldl report log).entries = log.entries ++ diagnostics.toArray := by
  induction diagnostics generalizing log with
  | nil => simp
  | cons diagnostic rest ih => simp [ih, report]

end Log

end Lox
