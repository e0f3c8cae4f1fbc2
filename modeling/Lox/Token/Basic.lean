/-
# Tokens

A token keeps the stretch of source text it was read from, its lexeme, beside
its kind, and the line on which the lexeme begins. Tokens for strings and numbers
also carry what the lexeme denotes: what stands between the quotes, or the number.

Two tokens are compared by all four fields, numbers as arithmetic compares
them, so a token whose number is a NaN is not equal even to itself.
-/

import Lox.Line
import Lox.Numeric.Layout
import Lox.Text.Form
import Lox.Text.Quoted
import Lox.Token.Kind

namespace Lox

/-- What the lexeme of a token denotes. -/
inductive Payload where
  /-- A string, verbatim. -/
  | str (body : String)
  /-- A number. -/
  | num (value : Binary64)
deriving DecidableEq

namespace Payload

/-- A payload as text: a string as it is, a number in the general layout. -/
def text : Payload → String
  | str body => body
  | num value => value.general

/-- Equality of payloads, numbers compared as numbers. -/
def equal : Payload → Payload → Bool
  | str a, str b => a == b
  | num a, num b => a.equal b
  | _, _ => false

/-- The structure of a payload. -/
def form : Payload → Form
  | str body => .tuple "Str" [.atom (Text.quoted body)]
  | num value => .tuple "Number" [.atom value.general]

end Payload

/-- The structure of a line number. -/
def Line.form (line : Line) : Form := .tuple "Line" [.atom (toString line)]

/-- A token of the language. Any combination of fields is a token; which of them
a scan yields is a property of scanning. -/
structure Token where
  /-- What the token is. -/
  kind : Kind
  /-- The source text of the token. -/
  lexeme : String
  /-- What the lexeme denotes, for strings and numbers. -/
  payload : Option Payload
  /-- The line on which the lexeme begins. -/
  line : Line
deriving DecidableEq

namespace Token

/-- The token at the end of a source text, on the line where the text ends. -/
def eof (line : Line) : Token := ⟨.eof, "", none, line⟩

/-- A token as text: kind, lexeme and payload, with a word for a missing one.
The line is not shown. -/
def text (token : Token) : String :=
  token.kind.name ++ " " ++ token.lexeme ++ " " ++ token.payload.elim "null" Payload.text

/-- Equality of payloads that may be missing. -/
def payloadEqual : Option Payload → Option Payload → Bool
  | none, none => true
  | some a, some b => a.equal b
  | _, _ => false

/-- Equality of tokens, numbers compared as numbers. -/
def equal (a b : Token) : Bool :=
  a.kind == b.kind && a.lexeme == b.lexeme && payloadEqual a.payload b.payload &&
    a.line == b.line

/-- The structure of a token. -/
def form (token : Token) : Form :=
  .record "Token"
    [.labelled "kind" (.atom token.kind.mixedName),
     .labelled "lexeme" (.atom (Text.quoted token.lexeme)),
     .labelled "literal" (.optional (token.payload.map Payload.form)),
     .labelled "line" token.line.form]

end Token

end Lox
