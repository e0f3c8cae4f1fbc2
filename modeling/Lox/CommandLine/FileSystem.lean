/-
# Reading a script

A script is named by a path, and what a path leads to is the system's to say: the
bytes of a file, or a reason why there are none to be had. The program hands the
path on as it is and takes the answer as it comes, so the answers are a parameter
here. A path can lead to anything that has bytes, to the standard input as well,
and what is read there depends on what is typed in.

The program itself asks one thing of the bytes, that they encode a text.
-/

namespace Lox.CommandLine

/-- The bytes of a file or of an input stream. -/
abbrev Bytes := List UInt8

/-- Bytes as text, if they encode one. -/
def decode? (bytes : Bytes) : Option String := String.fromUTF8? ⟨bytes.toArray⟩

/-- Why a script could not be read. -/
inductive ReadFailure where
  /-- The system gives no bytes, for a reason in its own words. -/
  | refused (reason : String)
  /-- The bytes encode no text. -/
  | invalidText
deriving DecidableEq

namespace ReadFailure

/-- A reason for failure in words. -/
def text : ReadFailure → String
  | refused reason => reason
  | invalidText => "stream did not contain valid UTF-8"

end ReadFailure

/-- What the system answers when it is asked for the bytes at a path. -/
structure FileSystem where
  /-- The bytes at a path, given what is on the standard input, or the reason why
  there are none. -/
  bytesAt (input : Bytes) (path : String) : Except String Bytes

namespace FileSystem

/-- The text of a script. -/
def read (files : FileSystem) (input : Bytes) (path : String) : Except ReadFailure String :=
  match files.bytesAt input path with
  | .error reason => .error (.refused reason)
  | .ok content => (decode? content).elim (.error .invalidText) .ok

/-- What is read at a path has nothing to do with the standard input. This holds of
every stored file, and fails of a path that leads to the standard input itself. -/
def IgnoresInput (files : FileSystem) (path : String) : Prop :=
  ∀ input other, files.bytesAt input path = files.bytesAt other path

end FileSystem

end Lox.CommandLine
