/-
# Running the program

The program scans a script and prints its tokens, one to a line. It does so even
if the script is faulty, and then tells what is wrong on the error stream. At
the prompt every line of the input is a script of its own, scanned without
regard to the lines around it. A session is one step, `turn`, over and over.

Faults in a script, a script that cannot be read and an output that takes nothing
are failures of one and the same process. They are told apart only where they are
taken care of: a script with faults ends with a status of its own, a line with
faults does not end the session, and every other failure ends the program.
-/

import Lox.Scan
import Lox.CommandLine.Directory
import Lox.CommandLine.Process
import Lox.CommandLine.Request

namespace Lox.CommandLine

/-- What the program is started with. -/
structure Invocation where
  /-- The arguments. -/
  arguments : List String
  /-- The files. -/
  files : FileSystem
  /-- The standard input. -/
  input : Bytes
  /-- The standard output. -/
  device : Device

/-- What the program leaves behind. -/
structure Outcome where
  /-- The exit status. -/
  status : Nat
  /-- What was written to the standard output. -/
  stdout : String
  /-- What was written to the error stream. -/
  stderr : String
deriving DecidableEq

/-- The exit status for a script with faults. -/
def faultyScript : Nat := 65

/-- The dialect that the program scans. -/
def dialect : Dialect := ⟨false⟩

/-- The tokens of a scan as they are printed. -/
def listing {σ : Type _} (result : Scan σ) : String :=
  "\n".intercalate (result.tokens.toList.map Token.text) ++ "\n"

open Process

/-- What a process leaves behind that the program consists of. Its result is the
exit status. -/
def outcome (process : Process Nat) : Outcome :=
  match process.exec .empty with
  | (.ok status, streams) => ⟨status, streams.stdout, streams.stderr⟩
  | (.error failure, streams) => ⟨1, streams.stdout, streams.stderr ++ failure.report⟩

theorem outcome_of_ok {process : Process Nat} {status : Nat} {streams : Streams}
    (h : process.exec .empty = (.ok status, streams)) :
    outcome process = ⟨status, streams.stdout, streams.stderr⟩ := by
  rw [outcome, h]

theorem outcome_of_error {process : Process Nat} {failure : Failure} {streams : Streams}
    (h : process.exec .empty = (.error failure, streams)) :
    outcome process = ⟨1, streams.stdout, streams.stderr ++ failure.report⟩ := by
  rw [outcome, h]

/-- Scans a source text and prints its tokens. Faults are a failure, but one that
comes after all tokens are printed. -/
def printTokens (device : Device) (source : String) : Process Unit := do
  let result := scan dialect source
  print device (listing result)
  if result.state.isEmpty then return ()
  else throw (.faults result.state)

/-- Scans a script that was read, or fails if it could not be. The result is the
exit status. -/
def runScript (device : Device) (name : String) (content : Except ReadFailure String) :
    Process Nat := do
  match content with
  | .error reason => throw (.unread name reason)
  | .ok source =>
    tryCatch (do printTokens device source; return 0) fun
      | .faults log => do
        complain (log.text ++ "\n")
        return faultyScript
      | failure => throw failure

/-! ## The prompt -/

/-- What is shown before each line. -/
def promptMark : String := "> "

/-- Scans a line of the input. No failure in it is a failure of the session. -/
def answerLine (device : Device) (source : String) : Process Unit :=
  tryCatch (printTokens device source) fun failure => complain (failure.text ++ "\n")

/-- The next line of an input, its newline byte included, and what follows it.
The last line may lack a newline byte. -/
def nextLine (input : Bytes) : Bytes × Bytes :=
  match input.dropWhile (· != 10) with
  | [] => (input, [])
  | newline :: rest => (input.takeWhile (· != 10) ++ [newline], rest)

theorem length_nextLine_lt {input : Bytes} (h : input ≠ []) :
    (nextLine input).2.length < input.length := by
  have hdrop : (input.dropWhile (· != 10)).length ≤ input.length :=
    (List.dropWhile_suffix _).length_le
  have hpos := List.length_pos_iff.mpr h
  unfold nextLine
  split
  next => exact hpos
  next newline rest hrest =>
    rw [hrest, List.length_cons] at hdrop
    exact hdrop

/-- Asks for a line. -/
def ask (device : Device) : Process Unit := print device promptMark

/-- Answers a line as it was read. A line that is no text is a failure. -/
def answer (device : Device) (line : Bytes) : Process Unit :=
  match decode? line with
  | none => throw .noText
  | some source => answerLine device source

/-- One step of a session, from one line to the next: the line is answered, and the
next one is asked for. How the two are carried out is left to whoever keeps the
session going. -/
def turn {m : Type → Type} [Monad m] (perform : (Device → Process Unit) → m Unit) (line : Bytes) :
    m Unit := do
  perform (answer · line)
  perform ask

/-- Takes the lines of an input in turn until it ends. The result is the exit status. -/
def takeTurns (device : Device) (input : Bytes) : Process Nat :=
  if h : input = [] then return 0
  else do
    turn (· device) (nextLine input).1
    have := length_nextLine_lt h
    takeTurns device (nextLine input).2
termination_by input.length

/-- Asks for the first line and takes the lines of the input in turn. -/
def runPrompt (device : Device) (input : Bytes) : Process Nat := do
  ask device
  takeTurns device input

/-! ## The program -/

/-- Runs the program, with the given reading of the arguments. Help that cannot be
written is not an error. -/
def runWith (parse : List String → Except UsageError Request) (invocation : Invocation) : Outcome :=
  match parse invocation.arguments with
  | .error error => ⟨2, "", error.text⟩
  | .ok .help => ⟨0, if invocation.device = .full then "" else helpText, ""⟩
  | .ok (.script name) =>
    outcome (runScript invocation.device name (invocation.files.read invocation.input name))
  | .ok .prompt => outcome (runPrompt invocation.device invocation.input)

/-- What the program is tried on: the files are those of one directory. -/
structure Trial where
  /-- The arguments. -/
  arguments : List String
  /-- The directory that the program is started in. -/
  directory : Directory
  /-- The standard input. -/
  input : Bytes
  /-- The standard output. -/
  device : Device

/-- A trial as the program sees it. -/
def Trial.invocation (trial : Trial) : Invocation :=
  ⟨trial.arguments, trial.directory.fileSystem, trial.input, trial.device⟩

/-- Runs the program on a trial. -/
def run (trial : Trial) : Outcome := runWith Request.ofArguments trial.invocation

end Lox.CommandLine
