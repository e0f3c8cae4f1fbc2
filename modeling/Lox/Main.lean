/-
# The program

The outer layer: it reads arguments, files and the standard input, writes what
the library answers, and ends with the status the library gives. Lines are
answered as they come in, so the prompt can be used by hand: the step is that of
every session, and only the line is read here.
-/

import Lox.CommandLine.Session

namespace Lox.CommandLine

/-- Writes a text at once, and tells whether the output takes it. -/
def put (stream : IO.FS.Stream) (text : String) : IO Device := do
  try
    stream.putStr text
    stream.flush
    pure .working
  catch _ => pure .full

/-- The number by which the system knows an error. Some calls give it with its
sign turned. -/
def errorNumber (code : UInt32) : UInt32 := if code < 0x80000000 then code else -code

/-- What the system says about a path that it gives no bytes for. -/
def reasonOf (error : IO.Error) : String :=
  match error with
  | .noFileOrDirectory .. => Directory.PathFailure.missing.text
  | .inappropriateType _ code details | .invalidArgument _ code details
  | .resourceExhausted _ code details | .permissionDenied _ code details =>
    match errorNumber code with
    | 20 => Directory.PathFailure.notDirectory.text
    | 21 => Directory.PathFailure.isDirectory.text
    | 36 => Directory.PathFailure.nameTooLong.text
    | number => details ++ " (os error " ++ toString number ++ ")"
  | _ => toString error

/-- The bytes at a path, as the system gives them. -/
def bytesOnDisk (path : String) : IO (Except String Bytes) := do
  try
    let content ← IO.FS.readBinFile path
    pure (.ok content.toList)
  catch error => pure (.error (reasonOf error))

/-- The files as far as a request looks at them. -/
def filesFor (request : Except UsageError Request) : IO FileSystem := do
  match request with
  | .ok (.script name) =>
    let content ← bytesOnDisk name
    pure ⟨fun _ _ => content⟩
  | _ => pure ⟨fun _ _ => .ok []⟩

/-- The next line of an input, its newline included; empty at the end. -/
partial def readLine (input : IO.FS.Stream) (line : ByteArray) : IO ByteArray := do
  let byte ← input.read 1
  if byte.isEmpty then pure line
  else if byte == ⟨#[10]⟩ then pure (line ++ byte)
  else readLine input (line ++ byte)

/-- Writes an outcome to the two output streams and yields its status. Only the
attempt shows what the standard output is connected to. -/
def finish (outcome : Device → Outcome) : IO UInt32 := do
  let device ← put (← IO.getStdout) (outcome .working).stdout
  let outcome := outcome device
  let _ ← put (← IO.getStderr) outcome.stderr
  pure (UInt32.ofNat outcome.status)

/-- Carries out a process on the two output streams. Its failure ends the program
with a status. -/
def perform (process : Device → Process Unit) : ExceptT UInt32 IO Unit := do
  let status ← finish fun device => outcome (do process device; return 0)
  if status ≠ 0 then throw status

/-- Takes the lines of the standard input in turn until it ends. -/
partial def converse : ExceptT UInt32 IO Unit := do
  let line ← readLine (← IO.getStdin) .empty
  unless line.isEmpty do
    turn perform line.toList
    converse

/-- Runs the program with the given arguments. -/
def start (arguments : List String) : IO UInt32 := do
  match Request.ofArguments arguments with
  | .ok .prompt =>
    match ← (do perform ask; converse).run with
    | .ok () => pure 0
    | .error status => pure status
  | request =>
    let files ← filesFor request
    finish fun device => runWith Request.ofArguments ⟨arguments, files, [], device⟩

end Lox.CommandLine

/-- Starts the program. -/
def main (arguments : List String) : IO UInt32 := Lox.CommandLine.start arguments
