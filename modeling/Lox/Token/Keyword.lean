/-
# Reserved words

A reserved word is recognised in its exact spelling only. A longer word that
starts with one, or the same letters in another case, is an ordinary name.
-/

namespace Lox

/-- The reserved words. -/
inductive Keyword where
  | andKw | classKw | elseKw | falseKw | funKw | forKw | ifKw | nilKw | orKw | printKw | returnKw
  | superKw | thisKw | trueKw | varKw | whileKw
deriving DecidableEq

namespace Keyword

/-- Every reserved word, in the order of the type. -/
def all : List Keyword :=
  [andKw, classKw, elseKw, falseKw, funKw, forKw, ifKw, nilKw, orKw, printKw, returnKw, superKw,
   thisKw, trueKw, varKw, whileKw]

/-- The spelling of a reserved word. -/
def text : Keyword → String
  | andKw => "and" | classKw => "class" | elseKw => "else" | falseKw => "false" | funKw => "fun"
  | forKw => "for" | ifKw => "if" | nilKw => "nil" | orKw => "or" | printKw => "print"
  | returnKw => "return" | superKw => "super" | thisKw => "this" | trueKw => "true"
  | varKw => "var" | whileKw => "while"

/-- The reserved word with the given spelling. -/
def ofText? (text : String) : Option Keyword := all.find? fun keyword => keyword.text == text

theorem mem_all (keyword : Keyword) : keyword ∈ all := by cases keyword <;> decide

/-- Looking up a text finds exactly the reserved word that is spelled so. -/
theorem ofText?_eq_some_iff {text : String} {keyword : Keyword} :
    ofText? text = some keyword ↔ keyword.text = text := by
  constructor
  · intro h
    simpa using List.find?_some h
  · rintro rfl
    have found : ∀ keyword ∈ all, ofText? keyword.text = some keyword := by decide
    exact found keyword (mem_all keyword)

end Keyword

end Lox
