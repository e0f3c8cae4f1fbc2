/-
# A directory by itself

A file system that is small enough to write down: one directory with files in it
and nothing around it. A path is a row of names with slashes between them, read
from left to right. A path that leaves the directory ends somewhere among
directories that hold no file.

What the program does is stated for every file system. This one is for running it
on given files.
-/

import Lox.CommandLine.FileSystem
import Lox.Text.Utf8

namespace Lox.CommandLine

/-- A directory with files in it. -/
structure Directory where
  /-- The files, by name. Of several with one name the last is there. -/
  files : List (String × Bytes)

/-- The parts of a path between its slashes. -/
def components : List Char → List (List Char)
  | [] => [[]]
  | c :: path =>
    match components path with
    | [] => [[c]]
    | part :: parts => if c = '/' then [] :: part :: parts else (c :: part) :: parts

namespace Directory

/-- Why a path leads to no file. -/
inductive PathFailure where
  /-- There is nothing of that name. -/
  | missing
  /-- The path leads to a directory. -/
  | isDirectory
  /-- The path goes on after a file. -/
  | notDirectory
  /-- The path, or a name in it, is too long. -/
  | nameTooLong
deriving DecidableEq

/-- A reason for failure as a system words it. -/
def PathFailure.text : PathFailure → String
  | missing => "No such file or directory (os error 2)"
  | isDirectory => "Is a directory (os error 21)"
  | notDirectory => "Not a directory (os error 20)"
  | nameTooLong => "File name too long (os error 36)"

/-- A place that a path can lead to. -/
inductive Place where
  /-- The directory that the program was started in. -/
  | here
  /-- Some other directory. -/
  | elsewhere
  /-- A file with its content. -/
  | file (content : Bytes)

/-- The longest name that a file can have, in bytes. -/
def longestName : Nat := 255

/-- The longest path that is followed, in bytes. -/
def longestPath : Nat := 4095

/-- Follows one component of a path. -/
def follow (directory : Directory) (place : Place) (component : List Char) :
    Except PathFailure Place :=
  match place with
  | .file _ => .error .notDirectory
  | .here | .elsewhere =>
    if component = [] ∨ component = ['.'] then .ok place
    else if component = ['.', '.'] then .ok .elsewhere
    else if longestName < Utf8.size component then .error .nameTooLong
    else
      match place, directory.files.reverse.lookup (String.ofList component) with
      | .here, some content => .ok (.file content)
      | _, _ => .error .missing

/-- The place that a path leads to. A path that is too long leads nowhere, and
one that begins with a slash does not begin in the directory. -/
def find (directory : Directory) (path : String) : Except PathFailure Place :=
  if longestPath < Utf8.size path.toList then .error .nameTooLong
  else
    (components path.toList).foldlM directory.follow
      (if path.toList.head? = some '/' then .elsewhere else .here)

/-- The content of the file that a path leads to. -/
def contentAt (directory : Directory) (path : String) : Except PathFailure Bytes :=
  match directory.find path with
  | .error failure => .error failure
  | .ok (.file content) => .ok content
  | .ok _ => .error .isDirectory

/-- The directory as a file system. No path in it leads to the standard input. -/
def fileSystem (directory : Directory) : FileSystem where
  bytesAt _ path := (directory.contentAt path).mapError PathFailure.text

theorem ignoresInput_fileSystem (directory : Directory) (path : String) :
    directory.fileSystem.IgnoresInput path :=
  fun _ _ => rfl

end Directory

end Lox.CommandLine
