/-
# Cursors

A cursor is a position in a source text together with the line it is on. It
keeps the whole text and what is left of it, and every movement is made of one
step, `next`, which takes a character and counts the line if that character ends
one. Position, line and the rest of the text can then not drift apart.

Positions are told in bytes. A stretch between two cursors is cut out by those
positions alone, and there is none if the second cursor stands before the first.

Two cursors are compared by their texts and by what is left of them. The line
takes no part: it follows from those two.
-/

import Lox.Line
import Lox.Text.Form
import Lox.Text.Quoted
import Lox.Text.Utf8
import Lox.Token.Basic

namespace Lox

/-- A position in a source text. -/
structure Cursor where
  /-- The whole text. -/
  source : List Char
  /-- What is left of it. -/
  rest : List Char
  /-- The line of the next character. -/
  line : Line

namespace Cursor

/-- The beginning of a source text. -/
def start (source : String) : Cursor := ⟨source.toList, source.toList, .first⟩

/-- The position in bytes. -/
def offset (cursor : Cursor) : Nat := Utf8.size cursor.source - Utf8.size cursor.rest

/-- Whether nothing is left. -/
def isAtEnd (cursor : Cursor) : Bool := cursor.rest.isEmpty

/-- The next character, left where it is. -/
def peek? (cursor : Cursor) : Option Char := cursor.rest.head?

/-- The character after the next one, left where it is. -/
def peekSecond? (cursor : Cursor) : Option Char := cursor.rest.tail.head?

/-- The next character, and the cursor behind it. At the end there is none, and
the cursor stays. -/
def next (cursor : Cursor) : Option Char × Cursor :=
  match cursor.rest with
  | [] => (none, cursor)
  | c :: rest =>
    (some c, ⟨cursor.source, rest, if c = '\n' then cursor.line.plus 1 else cursor.line⟩)

theorem rest_next (cursor : Cursor) : cursor.next.2.rest = cursor.rest.tail := by
  unfold next
  split <;> simp_all

/-- The character after `count` others, and the cursor behind it; at the end if
the text does not reach that far. -/
def nth (cursor : Cursor) (count : Nat) : Option Char × Cursor :=
  match cursor.next, count with
  | (none, last), _ => (none, last)
  | (some c, behind), 0 => (some c, behind)
  | (some _, behind), count + 1 => behind.nth count

/-- All characters that are left, and the cursor at the end. -/
def collect (cursor : Cursor) : List Char × Cursor :=
  match h : cursor.rest with
  | [] => ([], cursor)
  | c :: _ =>
    have : cursor.next.2.rest.length < cursor.rest.length := by simp [rest_next, h]
    let (others, last) := cursor.next.2.collect
    (c :: others, last)
termination_by cursor.rest.length

/-- Takes the next character if it is the expected one, and tells whether it was. -/
def advanceIf (cursor : Cursor) (expected : Char) : Bool × Cursor :=
  if cursor.peek? = some expected then (true, cursor.next.2) else (false, cursor)

/-- Takes characters as long as they satisfy a condition. -/
def advanceWhile (cursor : Cursor) (condition : Char → Bool) : Cursor :=
  match h : cursor.rest with
  | [] => cursor
  | c :: _ =>
    have : cursor.next.2.rest.length < cursor.rest.length := by simp [rest_next, h]
    if condition c then cursor.next.2.advanceWhile condition else cursor
termination_by cursor.rest.length

/-- The text from one cursor to another over the same source; none if the other
stands before it. -/
def sliceUntil? (cursor other : Cursor) : Option (List Char) :=
  Utf8.slice? cursor.offset other.offset cursor.source

/-- Whether two cursors stand at one place in one text. -/
def equal (a b : Cursor) : Bool := a.source == b.source && a.rest == b.rest

private def placeForms (cursor : Cursor) : List Form :=
  [.labelled "line" cursor.line.form, .labelled "offset" (.atom (toString cursor.offset))]

/-- The structure of a cursor. The rest of the text is usually too long to show. -/
def form (cursor : Cursor) : Form := .record "Cursor" cursor.placeForms

/-- The structure of a cursor, the rest of the text included. -/
def fullForm (cursor : Cursor) : Form :=
  .record "Cursor"
    (cursor.placeForms ++
      [.labelled "rest" (.atom (Text.quoted (String.ofList cursor.rest)))])

end Cursor

end Lox
