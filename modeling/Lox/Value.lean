/-
# Literal values

A literal in an expression is a number, a string, a truth value or nil. Four kinds
of token stand for literals by themselves: numbers and strings through what they
carry, and the three reserved words through what they are.
-/

import Lox.Token.Basic

namespace Lox

/-- The value of a literal. -/
inductive Value where
  | number (value : Binary64)
  | str (body : String)
  | boolean (value : Bool)
  | nil
deriving DecidableEq

namespace Value

/-- The value that the payload of a token denotes. -/
def ofPayload : Payload → Value
  | .str body => str body
  | .num value => number value

/-- The literal that a token stands for. A token of kind string or number without
a payload stands for none. -/
def ofToken? (token : Token) : Option Value :=
  match token.kind with
  | .number | .string => token.payload.map ofPayload
  | .keyword .trueKw => some (boolean true)
  | .keyword .falseKw => some (boolean false)
  | .keyword .nilKw => some nil
  | _ => none

/-- The characters of a value: a number in the plain layout, a string as it is. -/
def chars : Value → List Char
  | number value => value.chars .plain
  | str body => body.toList
  | boolean value => if value then ['t', 'r', 'u', 'e'] else ['f', 'a', 'l', 's', 'e']
  | nil => ['n', 'i', 'l']

/-- A value as text. -/
def text (value : Value) : String := String.ofList value.chars

/-- Equality of values, numbers compared as numbers. -/
def equal : Value → Value → Bool
  | number a, number b => a.equal b
  | str a, str b => a == b
  | boolean a, boolean b => a == b
  | nil, nil => true
  | _, _ => false

/-- The structure of a value. -/
def form : Value → Form
  | number value => .tuple "Number" [.atom value.general]
  | str body => .tuple "Str" [.atom (Text.quoted body)]
  | boolean value => .tuple "Boolean" [.atom (if value then "true" else "false")]
  | nil => .atom "Nil"

end Value

end Lox
