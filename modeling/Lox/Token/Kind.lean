/-
# Kinds of tokens

A token's kind is a symbol, a reserved word, one of the three classes whose text
varies, or the end of the text. Every kind has a name made of English words. It
is shown in one of two ways, in capitals with underlines between the words, or
with a capital at the start of each word and nothing between them.
-/

import Lox.Token.Symbol
import Lox.Token.Keyword

namespace Lox

/-- The kinds of tokens. -/
inductive Kind where
  | symbol (which : Symbol)
  | identifier
  | string
  | number
  | keyword (which : Keyword)
  | eof
deriving DecidableEq

namespace Kind

/-- Every kind: symbols, the classes with varying text, reserved words, and the
end. -/
def all : List Kind :=
  Symbol.all.map symbol ++ [identifier, string, number] ++ Keyword.all.map keyword ++ [eof]

/-- The English words that name a kind. -/
def words : Kind → List String
  | symbol which => which.words
  | identifier => ["identifier"]
  | string => ["string"]
  | number => ["number"]
  | keyword which => [which.text]
  | eof => ["eof"]

/-- A word with a capital first letter. -/
def capitalized (word : List Char) : List Char := (word.take 1).map Char.toUpper ++ word.drop 1

/-- The name of a kind in capitals, as in `LEFT_PAREN`. -/
def name (kind : Kind) : String :=
  "_".intercalate (kind.words.map fun word => String.ofList (word.toList.map Char.toUpper))

/-- The name of a kind in mixed case, as in `LeftParen`. -/
def mixedName (kind : Kind) : String :=
  String.join (kind.words.map fun word => String.ofList (capitalized word.toList))

/-- The kind with the given name in capitals. -/
def ofName? (text : String) : Option Kind := all.find? fun kind => kind.name == text

theorem mem_all (kind : Kind) : kind ∈ all := by
  cases kind with
  | symbol which => simp [all, Symbol.mem_all]
  | keyword which => simp [all, Keyword.mem_all]
  | identifier | string | number | eof => simp [all]

end Kind

end Lox
