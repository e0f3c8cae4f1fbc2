/-
# What the command line asks for

The program takes at most one argument, the name of a script, and one option,
which asks for help. Arguments are read from left to right. Two hyphens alone
end the options; a single hyphen is a name like any other.

The first thing that is wrong decides, with one exception: a name that is empty
is noticed only when it is needed, at the end or before help is given, so that a
fault in a later argument comes before it.

A complaint repeats the argument that it is about as a terminal would show it, so
that no control in an argument acts on the terminal.
-/

import Lox.Text.Similarity
import Lox.Text.Terminal

namespace Lox.CommandLine

/-- What can be wrong with the arguments. -/
inductive UsageError where
  /-- There is no such option with one hyphen. -/
  | unknownFlag (flag : Char)
  /-- There is no such option with two hyphens. Whether a name came before it
  shows in how the use of the program is summed up. -/
  | unknownOption (option : String) (named : Bool)
  /-- The option for help takes no value. -/
  | valueForHelp (value : String)
  /-- There is a name already. -/
  | extraArgument (argument : String)
  /-- The name is empty. -/
  | emptyName
deriving DecidableEq

/-- What the program is asked to do. -/
inductive Request where
  /-- Show how the program is used. -/
  | help
  /-- Scan the named script. -/
  | script (name : String)
  /-- Scan what is typed in, line by line. -/
  | prompt
deriving DecidableEq

/-- The text of the help. -/
def helpText : String :=
  "Scans Lox source code and prints its tokens, one per line\n\n" ++
  "Usage: rlox [FILE]\n\n" ++
  "Arguments:\n  [FILE]  Script to scan. Starts an interactive prompt if omitted\n\n" ++
  "Options:\n  -h, --help  Print help\n"

namespace UsageError

/-- The hint that an argument may be meant as a name. -/
def asName (argument : String) : String :=
  let shown := Text.Terminal.visible argument
  "\n\n  tip: to pass '" ++ shown ++ "' as a value, use '-- " ++ shown ++ "'"

/-- The complaint about an argument that does not belong. -/
def unexpected (argument : String) : String :=
  "unexpected argument '" ++ Text.Terminal.visible argument ++ "' found"

/-- The name of the script in a summary: in angle brackets if it counts as given. -/
def fileMark (named : Bool) : String := if named then "<FILE>" else "[FILE]"

/-- What is wrong, with a hint if there is one. -/
def complaint : UsageError → String
  | unknownFlag flag =>
    let argument := String.ofList ['-', flag]
    unexpected argument ++ asName argument
  | unknownOption option _ =>
    unexpected ("--" ++ option) ++
      if Text.alike option.toList "help".toList then
        "\n\n  tip: a similar argument exists: '--help'"
      else asName ("--" ++ option)
  | valueForHelp value =>
    "unexpected value '" ++ Text.Terminal.visible value ++
      "' for '--help' found; no more were expected"
  | extraArgument argument => unexpected argument
  | emptyName => "a value is required for '[FILE]' but none was supplied"

/-- How the program is used, as far as it bears on the fault. -/
def usage? : UsageError → Option String
  | unknownFlag _ | extraArgument _ => some (fileMark false)
  | unknownOption option named =>
    some ((if Text.alike option.toList "help".toList then "--help " else "") ++ fileMark named)
  | valueForHelp _ => some ("--help " ++ fileMark false)
  | emptyName => none

/-- The whole text shown for a fault. -/
def text (error : UsageError) : String :=
  "error: " ++ error.complaint ++ "\n\n" ++
    error.usage?.elim "" (fun usage => "Usage: rlox " ++ usage ++ "\n\n") ++
    "For more information, try '--help'.\n"

/-! ### No control in an argument reaches the terminal -/

open Text.Terminal

theorem allShown_asName (argument : String) : allShown (asName argument) = true := by
  have shown := allShown_visible argument
  apply allShown_append _ (by decide)
  apply allShown_append _ shown
  apply allShown_append _ (by decide)
  exact allShown_append (by decide) shown

theorem allShown_unexpected (argument : String) : allShown (unexpected argument) = true := by
  apply allShown_append _ (by decide)
  exact allShown_append (by decide) (allShown_visible argument)

theorem allShown_fileMark (named : Bool) : allShown (fileMark named) = true := by
  cases named <;> decide

theorem allShown_complaint (error : UsageError) : allShown error.complaint = true := by
  cases error with
  | unknownFlag flag => exact allShown_append (allShown_unexpected _) (allShown_asName _)
  | unknownOption option named =>
    apply allShown_append (allShown_unexpected _)
    split
    · decide
    · exact allShown_asName _
  | valueForHelp value =>
    apply allShown_append _ (by decide)
    exact allShown_append (by decide) (allShown_visible value)
  | extraArgument argument => exact allShown_unexpected argument
  | emptyName => decide

theorem allShown_of_usage {error : UsageError} {usage : String} (h : error.usage? = some usage) :
    allShown usage = true := by
  cases error with
  | unknownFlag | extraArgument =>
    rw [← Option.some.inj h]
    exact allShown_fileMark false
  | unknownOption option named =>
    rw [← Option.some.inj h]
    refine allShown_append ?_ (allShown_fileMark named)
    split <;> decide
  | valueForHelp value =>
    rw [← Option.some.inj h]
    exact allShown_append (by decide) (allShown_fileMark false)
  | emptyName => cases h

/-- A terminal shows the text for a fault as it is, whatever the arguments are. -/
theorem visible_text (error : UsageError) : visible error.text = error.text := by
  apply visible_eq_self
  have usage :
      allShown (error.usage?.elim "" fun usage => "Usage: rlox " ++ usage ++ "\n\n") = true := by
    cases h : error.usage? with
    | none => rfl
    | some usage =>
      apply allShown_append _ (by decide)
      exact allShown_append (by decide) (allShown_of_usage h)
  apply allShown_append _ (by decide)
  apply allShown_append _ usage
  apply allShown_append _ (by decide)
  exact allShown_append (by decide) error.allShown_complaint

end UsageError

namespace Request

/-- The request when all arguments were read. -/
def ofName : Option String → Except UsageError Request
  | none => .ok prompt
  | some "" => .error .emptyName
  | some name => .ok (script name)

/-- The request for help, unless the name before it is empty. -/
def helpAfter (name : Option String) : Except UsageError Request :=
  if name = some "" then .error .emptyName else .ok help

/-- The request when an option with two hyphens was read: only help is known. -/
def ofOption (name : Option String) (option : List Char) : Except UsageError Request :=
  let word := String.ofList (option.takeWhile (· != '='))
  match option.dropWhile (· != '=') with
  | [] => if word = "help" then helpAfter name else .error (.unknownOption word name.isSome)
  | _ :: value =>
    if word = "help" then .error (.valueForHelp (String.ofList value))
    else .error (.unknownOption word name.isSome)

/-- Reads the arguments that are left, with the name found so far. Once the
options have ended, every argument is a name. -/
def read (optionsEnded : Bool) (name : Option String) : List String → Except UsageError Request
  | [] => ofName name
  | argument :: rest =>
    match optionsEnded, argument.toList with
    | false, ['-', '-'] => read true name rest
    | false, '-' :: '-' :: option => ofOption name option
    | false, '-' :: flag :: _ =>
      if flag = 'h' then helpAfter name else .error (.unknownFlag flag)
    | _, _ =>
      if name.isSome then .error (.extraArgument argument) else read optionsEnded (some argument) rest

/-- The request that the arguments make. -/
def ofArguments (arguments : List String) : Except UsageError Request :=
  read false none arguments

end Request

end Lox.CommandLine
