/-
# What becomes of a script

Three things can go wrong with a script: it cannot be read, its tokens cannot be
written, or it has faults. All three are failures of one process, so which of them
is told is a question of order. Nothing is written before the script is read, and
the tokens are written before the faults are looked at. A script that cannot be
read therefore leaves the standard output untouched, an output that takes nothing
hides the faults, and faults keep no token from being printed.

Each step of the process is described by what it does from any streams, once for
each way it can end. The statement about the program puts these together.
-/

import Lox.CommandLine.Session
import Lox.Proofs.Input

namespace Lox.CommandLine

open Process

/-! ## Reading -/

namespace FileSystem

variable {files : FileSystem} {input : Bytes} {path : String}

/-- What keeps the system from giving bytes keeps the script from being read. -/
theorem read_of_refused {reason : String} (h : files.bytesAt input path = .error reason) :
    files.read input path = .error (.refused reason) := by
  rw [read, h]

theorem read_of_invalid {content : Bytes} (h : files.bytesAt input path = .ok content)
    (hcontent : ∀ source, content ≠ encoded source) :
    files.read input path = .error .invalidText := by
  rw [read, h]
  simp only [decode?_eq_none_iff.mpr hcontent, Option.elim_none]

theorem read_of_encoded {source : String} (h : files.bytesAt input path = .ok (encoded source)) :
    files.read input path = .ok source := by
  rw [read, h]
  simp only [decode?_encoded, Option.elim_some]

/-- A path that has nothing to do with the standard input leads to the same text
whatever is typed in. -/
theorem IgnoresInput.read_eq (h : files.IgnoresInput path) (other : Bytes) :
    files.read other path = files.read input path := by
  rw [read, read, h other input]

end FileSystem

/-! ## Printing -/

theorem exec_printTokens_full (source : String) (streams : Streams) :
    (printTokens .full source).exec streams = (.error .deviceFull, streams) :=
  exec_bind_of_error (exec_print_full _ _)

/-- The tokens are printed and nothing else happens if there are no faults. -/
theorem exec_printTokens_of_empty {source : String} (h : (scan dialect source).state = .empty)
    (streams : Streams) :
    (printTokens .working source).exec streams =
      (.ok (), streams.append (listing (scan dialect source)) "") := by
  rw [printTokens, exec_bind_of_ok (exec_print_working _ _), if_pos (Log.isEmpty_iff.mpr h)]
  exact exec_pure _ _

/-- The tokens are printed before the faults are a failure. -/
theorem exec_printTokens_of_ne_empty {source : String} (h : (scan dialect source).state ≠ .empty)
    (streams : Streams) :
    (printTokens .working source).exec streams =
      (.error (.faults (scan dialect source).state),
        streams.append (listing (scan dialect source)) "") := by
  have hreports : ¬(scan dialect source).state.isEmpty = true := fun hempty =>
    h (Log.isEmpty_iff.mp hempty)
  rw [printTokens, exec_bind_of_ok (exec_print_working _ _), if_neg hreports]
  exact exec_throw _ _

/-! ## Running -/

section Run

variable {streams : Streams} {name source : String}

theorem exec_runScript_error (device : Device) (reason : ReadFailure) :
    (runScript device name (.error reason)).exec streams = (.error (.unread name reason), streams) :=
  exec_throw _ _

/-- An output that takes nothing hides the faults of a script. -/
theorem exec_runScript_full :
    (runScript .full name (.ok source)).exec streams = (.error .deviceFull, streams) := by
  have hprint := exec_printTokens_full source streams
  exact exec_tryCatch_of_error (exec_bind_of_error hprint)

theorem exec_runScript_of_empty (h : (scan dialect source).state = .empty) :
    (runScript .working name (.ok source)).exec streams =
      (.ok 0, streams.append (listing (scan dialect source)) "") := by
  have hprint := exec_printTokens_of_empty h streams
  exact exec_tryCatch_of_ok (exec_bind_of_ok hprint)

/-- The faults of a script are told after its tokens. -/
theorem exec_runScript_of_ne_empty (h : (scan dialect source).state ≠ .empty) :
    (runScript .working name (.ok source)).exec streams =
      (.ok faultyScript, streams.append (listing (scan dialect source))
        ((scan dialect source).state.text ++ "\n")) := by
  have hprint := exec_printTokens_of_ne_empty h streams
  apply (exec_tryCatch_of_error (exec_bind_of_error hprint)).trans
  apply (exec_bind_of_ok (exec_complain _ _)).trans
  rw [Streams.append_append, String.append_empty, String.empty_append]
  exact exec_pure _ _

end Run

/-- What becomes of a script rests on what is read and on the output. -/
theorem runWith_script {parse : List String → Except UsageError Request} {invocation : Invocation}
    {name : String} (h : parse invocation.arguments = .ok (.script name)) :
    runWith parse invocation =
      outcome (runScript invocation.device name (invocation.files.read invocation.input name)) := by
  rw [runWith, h]

/-- A script that cannot be read ends the program before anything is written, and the
output has no part in it. -/
theorem runWith_script_of_unread {parse : List String → Except UsageError Request}
    {invocation : Invocation} {name : String} {reason : ReadFailure}
    (h : parse invocation.arguments = .ok (.script name))
    (hread : invocation.files.read invocation.input name = .error reason) :
    runWith parse invocation =
      ⟨1, "", "Error: Could not read " ++ name ++ "\n\nCaused by:\n" ++
        Failure.setIn reason.text ++ "\n"⟩ := by
  rw [runWith_script h, hread, outcome_of_error (exec_runScript_error _ _), Failure.report_unread]
  rfl

/-- **Scripts.** Let the arguments be read as the name of a script, and let the system
have any files. If it gives no bytes for the name, or bytes that encode no text,
nothing but the reason is written, on the error stream, and the status is 1, whatever
the output is. If the bytes encode a text and nothing can be written to the standard
output, the status is 1 and what is told is the same for every text. Otherwise all
tokens are written, with or without faults; without faults the error stream stays
empty and the status is 0, and with faults they are told there and the status is 65.
The standard input has no part in any of this, unless it is what the name leads to. -/
theorem run_script {parse : List String → Except UsageError Request} {invocation : Invocation}
    {name : String} (h : parse invocation.arguments = .ok (.script name)) :
    (∀ reason, invocation.files.bytesAt invocation.input name = .error reason →
        runWith parse invocation =
          ⟨1, "", "Error: Could not read " ++ name ++ "\n\nCaused by:\n" ++
            Failure.setIn reason ++ "\n"⟩) ∧
      (∀ content, invocation.files.bytesAt invocation.input name = .ok content →
        (∀ source, content ≠ encoded source) →
          runWith parse invocation =
            ⟨1, "", "Error: Could not read " ++ name ++ "\n\nCaused by:\n" ++
              "    stream did not contain valid UTF-8" ++ "\n"⟩) ∧
      (∀ source, invocation.files.bytesAt invocation.input name = .ok (encoded source) →
        (invocation.device = .full →
          runWith parse invocation =
            ⟨1, "", "Error: No space left on device (os error 28)\n"⟩) ∧
        (invocation.device = .working → (scan dialect source).state = .empty →
          runWith parse invocation =
            ⟨0, "\n".intercalate ((scan dialect source).tokens.toList.map Token.text) ++ "\n",
              ""⟩) ∧
        (invocation.device = .working → (scan dialect source).state ≠ .empty →
          runWith parse invocation =
            ⟨65, "\n".intercalate ((scan dialect source).tokens.toList.map Token.text) ++ "\n",
              (scan dialect source).state.text ++ "\n"⟩)) ∧
      (invocation.files.IgnoresInput name →
        ∀ input, runWith parse { invocation with input := input } = runWith parse invocation) := by
  refine ⟨?_, ?_, ?_, ?_⟩
  · intro reason hrefused
    have hreason : (ReadFailure.refused reason).text = reason := rfl
    rw [runWith_script_of_unread h (FileSystem.read_of_refused hrefused), hreason]
  · intro content hcontent hinvalid
    have hreason : Failure.setIn ReadFailure.invalidText.text =
        "    stream did not contain valid UTF-8" := rfl
    rw [runWith_script_of_unread h (FileSystem.read_of_invalid hcontent hinvalid), hreason]
  · intro source hsource
    rw [runWith_script h, FileSystem.read_of_encoded hsource]
    refine ⟨?_, ?_, ?_⟩
    · intro hdevice
      rw [hdevice]
      exact outcome_of_error exec_runScript_full
    · intro hdevice hempty
      rw [hdevice]
      exact outcome_of_ok (exec_runScript_of_empty hempty)
    · intro hdevice hreports
      rw [hdevice]
      exact outcome_of_ok (exec_runScript_of_ne_empty hreports)
  · intro hignores input
    have hother : parse { invocation with input := input }.arguments = .ok (.script name) := h
    rw [runWith_script h, runWith_script hother, hignores.read_eq input]

/-- A script with a fault, behind a name that the directory has twice: the later
file is there. A program is typed in, and nobody looks at it. -/
theorem run_script_faulty :
    Request.ofArguments ["--", "a"] = .ok (.script "a") ∧
      (Directory.fileSystem ⟨[("a", [255]), ("a", [43, 64])]⟩).IgnoresInput "a" ∧
      run ⟨["--", "a"], ⟨[("a", [255]), ("a", [43, 64])]⟩, [34, 10, 255], .working⟩ =
        ⟨65, "PLUS + null\nEOF  null\n", "[line 1] Error: Unexpected character.\n"⟩ := by
  have hname : Request.ofArguments ["--", "a"] = .ok (.script "a") := by rfl
  have hignores := Directory.ignoresInput_fileSystem ⟨[("a", [255]), ("a", [43, 64])]⟩ "a"
  have hstate : (scan dialect "+@").state = ⟨#[⟨⟨1⟩, "Unexpected character."⟩]⟩ := by cbv
  have hreports : (scan dialect "+@").state ≠ .empty := by
    rw [hstate]
    decide
  obtain ⟨-, -, hsource, hinput⟩ := @run_script Request.ofArguments
    (Trial.invocation ⟨["--", "a"], ⟨[("a", [255]), ("a", [43, 64])]⟩, [], .working⟩) "a" hname
  refine ⟨hname, hignores, (hinput hignores _).trans (((hsource "+@" rfl).2.2 rfl hreports).trans ?_)⟩
  cbv

/-- Where a name leads to the standard input, what is typed in is the script. -/
example : ∃ files : FileSystem,
    runWith Request.ofArguments ⟨["/dev/stdin"], files, [43], .working⟩ ≠
      runWith Request.ofArguments ⟨["/dev/stdin"], files, [45], .working⟩ := by
  refine ⟨⟨fun input _ => .ok input⟩, ?_⟩
  decide +kernel

end Lox.CommandLine
