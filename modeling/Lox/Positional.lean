/-
# Scanning by positions

A scan needs no list of characters to be taken apart. This module gives the
reader that works on the stored text: one cursor stays where a lexeme begins, a
second moves on, and the lexeme is cut out between their byte positions. The
quotes of a string are cut off by position too, and lines are counted in a word
of limited size.

None of this is defined everywhere. A stretch can be asked for that is none, a
counter can be full, the characters of a number might denote nothing, and a loop
might go round without moving. The reader guards each of these steps and breaks
down where a guard fails.
-/

import Lox.Scan
import Lox.Cursor

namespace Lox

universe u

namespace Positional

/-- What would break off a reader that works by positions. -/
inductive Breakdown where
  /-- A line feed was to be taken and the line counter was at its limit. -/
  | lineLimit
  /-- A stretch was asked for between cursors over different texts, or from a
  cursor with more left than its text has. -/
  | foreignCursor
  /-- A stretch was asked for that ends before it begins, or one end of which is
  no boundary of a character of the text. -/
  | noStretch
  /-- The lexeme of a number denotes no number. -/
  | noNumber
  /-- A turn of the main loop took no character. -/
  | noProgress
deriving DecidableEq

/-- The greatest line that a cursor may be on, half of what 64 bits can count. -/
def lineLimit : Nat := Nat.pow 2 63

/-- What a turn of the main loop leads to. -/
structure Turn where
  /-- The cursor behind the characters that were taken. -/
  current : Cursor
  /-- The token that was found, if there is one. -/
  token : Option Token
  /-- The report that was made, if there is one. -/
  report : Option Diagnostic

/-! ## Guarded steps -/

/-- Breaks down if the next character would take the line counter beyond its limit. -/
def checkLine (cursor : Cursor) : Except Breakdown Unit :=
  if cursor.peek? = some '\n' ∧ lineLimit ≤ cursor.line.number then .error .lineLimit else .ok ()

/-- The next character, and the cursor behind it. -/
def next (cursor : Cursor) : Except Breakdown (Option Char × Cursor) := do
  checkLine cursor
  return cursor.next

/-- Takes the next character if it is the expected one, and tells whether it was. -/
def advanceIf (cursor : Cursor) (expected : Char) : Except Breakdown (Bool × Cursor) := do
  if cursor.peek? = some expected then
    let (_, behind) ← next cursor
    return (true, behind)
  else
    return (false, cursor)

/-- Takes characters as long as they satisfy a condition. -/
def advanceWhile (cursor : Cursor) (condition : Char → Bool) : Except Breakdown Cursor :=
  match h : cursor.rest with
  | [] => .ok cursor
  | c :: _ =>
    have : cursor.next.2.rest.length < cursor.rest.length := by simp [Cursor.rest_next, h]
    if condition c then do
      checkLine cursor
      advanceWhile cursor.next.2 condition
    else .ok cursor
termination_by cursor.rest.length

/-- The text from one cursor to another over the same source. -/
def stretch (start current : Cursor) : Except Breakdown (List Char) :=
  if start.source = current.source ∧ Utf8.size start.rest ≤ Utf8.size start.source ∧
      Utf8.size current.rest ≤ Utf8.size current.source then
    (start.sliceUntil? current).elim (.error .noStretch) .ok
  else .error .foreignCursor

/-- A lexeme without its first and its last byte. -/
def unquoted (lexeme : List Char) : Except Breakdown (List Char) :=
  if Utf8.size lexeme = 0 then .error .noStretch
  else (Utf8.slice? 1 (Utf8.size lexeme - 1) lexeme).elim (.error .noStretch) .ok

/-! ## The reader -/

/-- The turn that found a token between the two cursors. -/
def addToken (start current : Cursor) (kind : Kind) (payload : Option Payload) :
    Except Breakdown Turn := do
  let lexeme ← stretch start current
  return ⟨current, some ⟨kind, String.ofList lexeme, payload, start.line⟩, none⟩

/-- Reads a string whose opening quote was taken. -/
def readString (start current : Cursor) : Except Breakdown Turn := do
  let current ← advanceWhile current (· != '"')
  if current.isAtEnd then
    return ⟨current, none, some (.ofFault current.line .unterminatedString)⟩
  else
    let (_, current) ← next current
    let lexeme ← stretch start current
    let body ← unquoted lexeme
    addToken start current .string (some (.str (String.ofList body)))

/-- Takes a point and the digits behind it, if there are any. -/
def advanceFraction (current : Cursor) : Except Breakdown Cursor := do
  if current.peek? = some '.' ∧ current.peekSecond?.any Char.isDigit then
    let (_, behind) ← next current
    advanceWhile behind Char.isDigit
  else
    return current

/-- Takes what is left of a number whose first digit was taken. -/
def advanceNumber (current : Cursor) : Except Breakdown Cursor := do
  let current ← advanceWhile current Char.isDigit
  advanceFraction current

/-- Reads a number whose first digit was taken. -/
def readNumber (start current : Cursor) : Except Breakdown Turn := do
  let current ← advanceNumber current
  let lexeme ← stretch start current
  match Binary64.ofText? lexeme with
  | none => throw .noNumber
  | some value => addToken start current .number (some (.num value))

/-- Reads a word whose first letter was taken. -/
def readWord (start current : Cursor) : Except Breakdown Turn := do
  let current ← advanceWhile current continuesWord
  let lexeme ← stretch start current
  addToken start current
    ((Keyword.ofText? (String.ofList lexeme)).elim .identifier .keyword) none

/-- Reads what begins with a slash that was taken: a comment up to the end of its
line, or the symbol. -/
def readSlash (start current : Cursor) : Except Breakdown Turn := do
  let (found, current) ← advanceIf current '/'
  if found then
    let current ← advanceWhile current (· != '\n')
    return ⟨current, none, none⟩
  else
    addToken start current (.symbol .slash) none

/-- Reads what begins with a character that is no blank, quote, digit, letter or
slash, and was taken. -/
def readSymbol (dialect : Dialect) (c : Char) (start current : Cursor) :
    Except Breakdown Turn := do
  match Symbol.ofChar? dialect c with
  | none => return ⟨current, none, some (.ofFault start.line (.unexpectedCharacter c))⟩
  | some single =>
    match single.withEqual? with
    | none => addToken start current (.symbol single) none
    | some double =>
      let (found, current) ← advanceIf current '='
      addToken start current (.symbol (if found then double else single)) none

/-- Reads what begins with a character that was taken. -/
def readFrom (dialect : Dialect) (c : Char) (start current : Cursor) : Except Breakdown Turn :=
  if isBlank c then .ok ⟨current, none, none⟩
  else if c = '"' then readString start current
  else if c.isDigit then readNumber start current
  else if startsWord c then readWord start current
  else if c = '/' then readSlash start current
  else readSymbol dialect c start current

/-- Takes one turn of the main loop. There is none at the end of the text. -/
def takeTurn (dialect : Dialect) (start : Cursor) : Except Breakdown (Option Turn) := do
  match ← next start with
  | (none, _) => return none
  | (some c, current) =>
    let turn ← readFrom dialect c start current
    return some turn

/-- Scans what is left behind a cursor, after the tokens and the reports that came
before. -/
def scanFrom {σ : Type u} (dialect : Dialect) (report : σ → Diagnostic → σ) (start : Cursor)
    (tokens : Array Token) (state : σ) : Except Breakdown (Scan σ) :=
  match takeTurn dialect start with
  | .error breakdown => .error breakdown
  | .ok none => .ok ⟨tokens.push (.eof start.line), state⟩
  | .ok (some turn) =>
    if turn.current.rest.length < start.rest.length then
      scanFrom dialect report turn.current (turn.token.elim tokens tokens.push)
        (turn.report.elim state (report state))
    else .error .noProgress
termination_by start.rest.length

/-- Scans a source text by positions and reports each fault to the caller's state. -/
def scanWith {σ : Type u} (dialect : Dialect) (report : σ → Diagnostic → σ) (state : σ)
    (source : String) : Except Breakdown (Scan σ) :=
  scanFrom dialect report (.start source) #[] state

end Positional

end Lox
