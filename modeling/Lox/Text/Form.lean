/-
# Structural forms

The structural form of a value shows how the value is built: which constructor,
and which parts, by position or by name. It is what a reader looks at to find
out what a value is, where the text of a token or an expression only shows what
it stands for.

A form is kept as a tree and laid out in one of two ways: on one line, or with
one part to a line, indented by depth and each followed by a comma.
-/

namespace Lox

/-- The structure of a value, ready to be shown. -/
inductive Form where
  /-- A value without parts, as its text. -/
  | atom (text : String)
  /-- A part that has a name. -/
  | labelled (label : String) (value : Form)
  /-- A constructor with parts in round brackets. -/
  | tuple (name : String) (parts : List Form)
  /-- A constructor with parts in braces. -/
  | record (name : String) (parts : List Form)

namespace Form

mutual

/-- A form on one line. -/
def inline : Form → String
  | atom text => text
  | labelled label value => label ++ ": " ++ value.inline
  | tuple name parts => name ++ "(" ++ ", ".intercalate (inlineAll parts) ++ ")"
  | record name parts => name ++ " \x7b " ++ ", ".intercalate (inlineAll parts) ++ " \x7d"

/-- Each form of a list on a line. -/
def inlineAll : List Form → List String
  | [] => []
  | form :: forms => form.inline :: inlineAll forms

end

/-- The blanks before a part at the given depth. -/
def indentation (depth : Nat) : String := String.ofList (List.replicate (4 * depth) ' ')

mutual

/-- A form with one part to a line, itself at the given depth. -/
def indented (depth : Nat) : Form → String
  | atom text => text
  | labelled label value => label ++ ": " ++ value.indented depth
  | tuple name parts =>
    name ++ "(\n" ++ "".intercalate (indentedAll (depth + 1) parts) ++ indentation depth ++ ")"
  | record name parts =>
    name ++ " \x7b\n" ++ "".intercalate (indentedAll (depth + 1) parts) ++ indentation depth ++
      "\x7d"

/-- Each form of a list on lines of its own. -/
def indentedAll (depth : Nat) : List Form → List String
  | [] => []
  | form :: forms =>
    (indentation depth ++ form.indented depth ++ ",\n") :: indentedAll depth forms

end

/-- The form of a value that may be missing. -/
def optional : Option Form → Form
  | none => atom "None"
  | some form => tuple "Some" [form]

end Form

end Lox
