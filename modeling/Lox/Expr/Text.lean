/-
# Expressions as text

An expression is written with a bracket around every node that has children: the
name of the node, and its children, with a space before each. The name is the
text of the operator, for a ternary the texts of both its operators together,
and a word for a grouping. A literal is written as its value.

The structure of an expression can be shown as well, with every field by name.
-/

import Lox.Expr.Basic

namespace Lox

namespace Expr

/-- A name and the texts of some children in brackets. -/
def bracketed (name : List Char) (children : List (List Char)) : List Char :=
  '(' :: (name ++ children.flatMap (' ' :: ·) ++ [')'])

/-- The characters of an expression. -/
def chars : Expr → List Char
  | binary left operator right => bracketed operator.lexeme.toList [left.chars, right.chars]
  | grouping inner => bracketed ['g', 'r', 'o', 'u', 'p'] [inner.chars]
  | literal value => value.chars
  | unary operator operand => bracketed operator.lexeme.toList [operand.chars]
  | ternary question condition thenBranch colon elseBranch =>
    bracketed (question.lexeme.toList ++ colon.lexeme.toList)
      [condition.chars, thenBranch.chars, elseBranch.chars]

/-- The characters of an expression with others after them, which takes no more
steps than there are characters. -/
def charsBefore : Expr → List Char → List Char
  | binary left operator right, rest =>
    '(' :: (operator.lexeme.toList ++
      ' ' :: left.charsBefore (' ' :: right.charsBefore (')' :: rest)))
  | grouping inner, rest =>
    '(' :: (['g', 'r', 'o', 'u', 'p'] ++ ' ' :: inner.charsBefore (')' :: rest))
  | literal value, rest => value.chars ++ rest
  | unary operator operand, rest =>
    '(' :: (operator.lexeme.toList ++ ' ' :: operand.charsBefore (')' :: rest))
  | ternary question condition thenBranch colon elseBranch, rest =>
    '(' :: (question.lexeme.toList ++ (colon.lexeme.toList ++
      ' ' :: condition.charsBefore (' ' :: thenBranch.charsBefore (' ' ::
        elseBranch.charsBefore (')' :: rest)))))

theorem charsBefore_eq (expr : Expr) (rest : List Char) :
    expr.charsBefore rest = expr.chars ++ rest := by
  induction expr generalizing rest with
  | literal value => rfl
  | binary left operator right ihLeft ihRight =>
    simp [charsBefore, chars, bracketed, ihLeft, ihRight]
  | grouping inner ih => simp [charsBefore, chars, bracketed, ih]
  | unary operator operand ih => simp [charsBefore, chars, bracketed, ih]
  | ternary question condition thenBranch colon elseBranch ihCondition ihThen ihElse =>
    simp [charsBefore, chars, bracketed, ihCondition, ihThen, ihElse]

/-- An expression as text. -/
def text (expr : Expr) : String := String.ofList (expr.charsBefore [])

theorem text_eq (expr : Expr) : expr.text = String.ofList expr.chars := by
  rw [text, charsBefore_eq, List.append_nil]

/-- The structure of an expression. -/
def form : Expr → Form
  | binary left operator right =>
    .record "Binary"
      [.labelled "left" left.form, .labelled "operator" operator.form,
       .labelled "right" right.form]
  | grouping inner => .record "Grouping" [.labelled "expression" inner.form]
  | literal value => .record "Literal" [.labelled "value" value.form]
  | unary operator operand =>
    .record "Unary" [.labelled "operator" operator.form, .labelled "right" operand.form]
  | ternary question condition thenBranch colon elseBranch =>
    .record "Ternary"
      [.labelled "question" question.form, .labelled "condition" condition.form,
       .labelled "then_branch" thenBranch.form, .labelled "colon" colon.form,
       .labelled "else_branch" elseBranch.form]

end Expr

end Lox
