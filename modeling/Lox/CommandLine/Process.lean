/-
# Processes

A process writes to two output streams and ends with a result or with a failure.
A failure ends what follows it and takes nothing back: what was written stays
written. Whoever starts a process may take care of its failures, of some kinds or
of all, and a failure that nobody takes care of ends the program.

`exec` runs a process from what was written so far. The equations beside it say
what each way of putting processes together makes of the streams, so a process
can be followed step by step without a look at how it is represented.
-/

import Lox.Diagnostic
import Lox.CommandLine.FileSystem

namespace Lox.CommandLine

/-- What the standard output is connected to. -/
inductive Device where
  /-- Everything written arrives. -/
  | working
  /-- Nothing can be written. -/
  | full
deriving DecidableEq

/-- What was written to the two output streams. -/
structure Streams where
  /-- What was written to the standard output. -/
  stdout : String
  /-- What was written to the error stream. -/
  stderr : String
deriving DecidableEq

namespace Streams

/-- The streams before anything is written. -/
def empty : Streams := ⟨"", ""⟩

/-- The streams with more written to both. -/
def append (streams : Streams) (stdout stderr : String) : Streams :=
  ⟨streams.stdout ++ stdout, streams.stderr ++ stderr⟩

/-- What is written in two steps can be written in one. -/
theorem append_append (streams : Streams) (stdout stderr stdout' stderr' : String) :
    (streams.append stdout stderr).append stdout' stderr' =
      streams.append (stdout ++ stdout') (stderr ++ stderr') := by
  simp only [append, String.append_assoc]

end Streams

/-- Why a process failed. -/
inductive Failure where
  /-- The named script could not be read. -/
  | unread (name : String) (reason : ReadFailure)
  /-- Nothing can be written to the standard output. -/
  | deviceFull
  /-- A line of the standard input is no text. -/
  | noText
  /-- The source text has faults. -/
  | faults (log : Log)

namespace Failure

/-- A failure in words. -/
def text : Failure → String
  | unread name _ => "Could not read " ++ name
  | deviceFull => "No space left on device (os error 28)"
  | noText => ReadFailure.invalidText.text
  | faults log => log.text

/-- What lies behind a failure, if it is known. -/
def cause? : Failure → Option String
  | unread _ reason => some reason.text
  | deviceFull | noText | faults _ => none

/-- A text with its lines set in by four blanks. -/
def setIn (text : String) : String :=
  "    " ++ String.ofList
    (text.toList.flatMap fun c => if c = '\n' then "\n    ".toList else [c])

/-- What is written about a failure that ends the program. -/
def report (failure : Failure) : String :=
  "Error: " ++ failure.text ++
    failure.cause?.elim "" (fun cause => "\n\nCaused by:\n" ++ setIn cause) ++ "\n"

theorem report_unread (name : String) (reason : ReadFailure) :
    (unread name reason).report =
      "Error: Could not read " ++ name ++ "\n\nCaused by:\n" ++ setIn reason.text ++ "\n" := by
  have hstart : "Error: " ++ "Could not read " = "Error: Could not read " := rfl
  show "Error: " ++ ("Could not read " ++ name) ++ ("\n\nCaused by:\n" ++ setIn reason.text) ++
    "\n" = _
  rw [← String.append_assoc, ← String.append_assoc, hstart]

theorem report_noText : noText.report = "Error: stream did not contain valid UTF-8\n" := rfl

end Failure

/-- A process with a result. -/
abbrev Process := ExceptT Failure (StateM Streams)

namespace Process

variable {α β : Type}

/-- Runs a process from what was written so far. -/
def exec (process : Process α) (streams : Streams) : Except Failure α × Streams :=
  (ExceptT.run process).run streams

/-- Writes to the standard output. -/
def print (device : Device) (text : String) : Process Unit :=
  match device with
  | .working => modify fun streams => streams.append text ""
  | .full => throw .deviceFull

/-- Writes to the error stream. -/
def complain (text : String) : Process Unit := modify fun streams => streams.append "" text

@[simp]
theorem exec_pure (a : α) (streams : Streams) : (pure a : Process α).exec streams = (.ok a, streams) :=
  rfl

@[simp]
theorem exec_throw (failure : Failure) (streams : Streams) :
    (throw failure : Process α).exec streams = (.error failure, streams) :=
  rfl

@[simp]
theorem exec_print_working (text : String) (streams : Streams) :
    (print .working text).exec streams = (.ok (), streams.append text "") :=
  rfl

@[simp]
theorem exec_print_full (text : String) (streams : Streams) :
    (print .full text).exec streams = (.error .deviceFull, streams) :=
  rfl

@[simp]
theorem exec_complain (text : String) (streams : Streams) :
    (complain text).exec streams = (.ok (), streams.append "" text) :=
  rfl

/-- What follows a process starts from what the process has written. -/
theorem exec_bind_of_ok {process : Process α} {next : α → Process β} {streams later : Streams} {a : α}
    (h : process.exec streams = (.ok a, later)) :
    (process >>= next).exec streams = (next a).exec later := by
  rw [exec] at h
  rw [exec, ExceptT.run_bind, StateT.run_bind, h]
  rfl

/-- Nothing follows a process that fails. -/
theorem exec_bind_of_error {process : Process α} {next : α → Process β} {streams later : Streams}
    {failure : Failure} (h : process.exec streams = (.error failure, later)) :
    (process >>= next).exec streams = (.error failure, later) := by
  rw [exec] at h
  rw [exec, ExceptT.run_bind, StateT.run_bind, h]
  rfl

theorem exec_tryCatch_of_ok {process : Process α} {handler : Failure → Process α}
    {streams later : Streams} {a : α} (h : process.exec streams = (.ok a, later)) :
    (tryCatch process handler).exec streams = (.ok a, later) := by
  rw [exec] at h
  rw [exec, ExceptT.run_tryCatch, StateT.run_bind, h]
  rfl

/-- A failure is taken care of where the process has left the streams. -/
theorem exec_tryCatch_of_error {process : Process α} {handler : Failure → Process α}
    {streams later : Streams} {failure : Failure}
    (h : process.exec streams = (.error failure, later)) :
    (tryCatch process handler).exec streams = (handler failure).exec later := by
  rw [exec] at h
  rw [exec, ExceptT.run_tryCatch, StateT.run_bind, h]
  rfl

end Process

end Lox.CommandLine
