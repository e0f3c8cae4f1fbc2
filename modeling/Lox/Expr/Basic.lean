/-
# Expressions

An expression is a tree whose inner nodes keep the operator tokens they came
from, and whose leaves are literal values. A node without its children is a
`Node`; an expression in the order in which it is read from its root is a list
of nodes, each before its children and the children from left to right.
-/

import Lox.Value

namespace Lox

/-- The expressions of the language. -/
inductive Expr where
  | binary (left : Expr) (operator : Token) (right : Expr)
  | grouping (inner : Expr)
  | literal (value : Value)
  | unary (operator : Token) (operand : Expr)
  | ternary (question : Token) (condition thenBranch : Expr) (colon : Token) (elseBranch : Expr)
deriving DecidableEq

/-- What a node of an expression is, apart from its children. -/
inductive Node where
  | binary (operator : Token)
  | grouping
  | literal (value : Value)
  | unary (operator : Token)
  | ternary (question colon : Token)
deriving DecidableEq

namespace Expr

/-- The node at the root of an expression. -/
def root : Expr → Node
  | binary _ operator _ => .binary operator
  | grouping _ => .grouping
  | literal value => .literal value
  | unary operator _ => .unary operator
  | ternary question _ _ colon _ => .ternary question colon

/-- The nodes of an expression, each before its children. -/
def preorder : Expr → List Node
  | binary left operator right => .binary operator :: (left.preorder ++ right.preorder)
  | grouping inner => .grouping :: inner.preorder
  | literal value => [.literal value]
  | unary operator operand => .unary operator :: operand.preorder
  | ternary question condition thenBranch colon elseBranch =>
    .ternary question colon ::
      (condition.preorder ++ thenBranch.preorder ++ elseBranch.preorder)

/-- Equality of expressions: the same tree, with equal tokens and equal values
at its nodes. -/
def equal : Expr → Expr → Bool
  | binary left operator right, binary left' operator' right' =>
    left.equal left' && operator.equal operator' && right.equal right'
  | grouping inner, grouping inner' => inner.equal inner'
  | literal value, literal value' => value.equal value'
  | unary operator operand, unary operator' operand' =>
    operator.equal operator' && operand.equal operand'
  | ternary question condition thenBranch colon elseBranch,
    ternary question' condition' thenBranch' colon' elseBranch' =>
    question.equal question' && condition.equal condition' && thenBranch.equal thenBranch' &&
      colon.equal colon' && elseBranch.equal elseBranch'
  | _, _ => false

end Expr

end Lox
