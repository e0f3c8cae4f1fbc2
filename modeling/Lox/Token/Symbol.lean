/-
# Operators and punctuation

A symbol is a token whose text is fixed. Most are a single character; four may
have an equals sign after them, which makes another symbol. No symbol has more
than two characters.

The two characters of the conditional operator are symbols in one dialect only.
-/

import Lox.Dialect

namespace Lox

/-- The operators and the punctuation, single characters first. -/
inductive Symbol where
  | leftParen | rightParen | leftBrace | rightBrace | comma | dot | minus | plus | semicolon
  | slash | star | question | colon
  | bang | bangEqual | equal | equalEqual | greater | greaterEqual | less | lessEqual
deriving DecidableEq

namespace Symbol

/-- Every symbol, in the order of the type. -/
def all : List Symbol :=
  [leftParen, rightParen, leftBrace, rightBrace, comma, dot, minus, plus, semicolon, slash, star,
   question, colon, bang, bangEqual, equal, equalEqual, greater, greaterEqual, less, lessEqual]

/-- The characters of a symbol. -/
def chars : Symbol → List Char
  | leftParen => ['('] | rightParen => [')'] | leftBrace => ['{'] | rightBrace => ['}']
  | comma => [','] | dot => ['.'] | minus => ['-'] | plus => ['+'] | semicolon => [';']
  | slash => ['/'] | star => ['*'] | question => ['?'] | colon => [':']
  | bang => ['!'] | bangEqual => ['!', '='] | equal => ['='] | equalEqual => ['=', '=']
  | greater => ['>'] | greaterEqual => ['>', '='] | less => ['<'] | lessEqual => ['<', '=']

/-- The English words that name a symbol. -/
def words : Symbol → List String
  | leftParen => ["left", "paren"] | rightParen => ["right", "paren"]
  | leftBrace => ["left", "brace"] | rightBrace => ["right", "brace"]
  | comma => ["comma"] | dot => ["dot"] | minus => ["minus"] | plus => ["plus"]
  | semicolon => ["semicolon"] | slash => ["slash"] | star => ["star"]
  | question => ["question"] | colon => ["colon"]
  | bang => ["bang"] | bangEqual => ["bang", "equal"]
  | equal => ["equal"] | equalEqual => ["equal", "equal"]
  | greater => ["greater"] | greaterEqual => ["greater", "equal"]
  | less => ["less"] | lessEqual => ["less", "equal"]

/-- Whether a symbol belongs to a dialect. -/
def isIn (dialect : Dialect) : Symbol → Bool
  | question | colon => dialect.ternary
  | _ => true

/-- The symbol that a character is by itself. -/
def ofChar? (dialect : Dialect) (c : Char) : Option Symbol :=
  all.find? fun symbol => symbol.chars == [c] && symbol.isIn dialect

/-- The symbol that a symbol and an equals sign after it make together. -/
def withEqual? : Symbol → Option Symbol
  | bang => some bangEqual
  | equal => some equalEqual
  | greater => some greaterEqual
  | less => some lessEqual
  | _ => none

theorem mem_all (symbol : Symbol) : symbol ∈ all := by cases symbol <;> decide

/-- No symbol is written as another one. -/
theorem chars_injective {a b : Symbol} (h : a.chars = b.chars) : a = b :=
  have distinct : ∀ a ∈ all, ∀ b ∈ all, a.chars = b.chars → a = b := by decide
  distinct a (mem_all a) b (mem_all b) h

/-- The symbol with an equals sign is written as its name says. -/
theorem chars_withEqual {a b : Symbol} (h : a.withEqual? = some b) :
    b.chars = a.chars ++ ['='] := by
  have together : ∀ a ∈ all, ∀ b ∈ a.withEqual?, b.chars = a.chars ++ ['='] := by decide
  exact together a (mem_all a) b h

end Symbol

end Lox
