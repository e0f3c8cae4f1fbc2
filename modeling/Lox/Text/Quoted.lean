/-
# Quoted texts

A quoted text stands between two delimiters and shows every character of the
text on one line. The delimiter itself and the backslash are written after a
backslash, the common controls by a letter, and any other character that would
not show by its number in hexadecimal.
-/

import Lox.Text.Printable

namespace Lox

namespace Text

/-- The controls that are written as a letter after a backslash. -/
def controlLetter? : Char → Option Char
  | '\n' => some 'n'
  | '\r' => some 'r'
  | '\t' => some 't'
  | '\x00' => some '0'
  | _ => none

/-- A character by its number, as in `\u{7f}`. -/
def numbered (c : Char) : List Char :=
  ['\\', 'u', '{'] ++ Nat.toDigits 16 c.toNat ++ ['}']

/-- One character as it stands between two delimiters. -/
def escape (delimiter c : Char) : List Char :=
  if c = '\\' ∨ c = delimiter then ['\\', c]
  else
    match controlLetter? c with
    | some letter => ['\\', letter]
    | none => if isPrintable c then [c] else numbered c

/-- A text between two delimiters. -/
def quotedWith (delimiter : Char) (text : List Char) : String :=
  String.ofList (delimiter :: text.flatMap (escape delimiter) ++ [delimiter])

/-- A text in double quotes. -/
def quoted (text : String) : String := quotedWith '"' text.toList

/-- A single character in single quotes. -/
def quotedChar (c : Char) : String := quotedWith '\'' [c]

end Text

end Lox
