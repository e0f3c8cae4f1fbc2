/-
# Reading a log back

A log as text has a line for each of its entries. A line begins with the number of the line
that its entry is about, and ends with the message as it is. So a message may look like
the beginning of another entry, and that does no harm: the number ends at the first bracket,
and all that comes behind it is message.

What separates the entries is the line feed, and that is what a message must not have. If
none has one, each line of the text shows one entry (`Log.forall₂_cutLines`), and no line
shows two (`rightUnique_isShownOn`). So the text tells the log. The empty log has the empty
text, and no other log has it.

The messages of scans are two, and neither has a line feed.
-/

import Lox.Proofs.LineByLine

namespace Lox

/-! ## One entry -/

namespace Diagnostic

/-- The characters of a diagnostic. -/
theorem toList_text (diagnostic : Diagnostic) : diagnostic.text.toList =
    "[line ".toList ++ (Nat.toDigits 10 diagnostic.line.number ++
      ']' :: (" Error: ".toList ++ diagnostic.message.toList)) := by
  simp [text, toString]

theorem not_mem_toDigits {c : Char} (h : c.isDigit = false) (n : Nat) : c ∉ Nat.toDigits 10 n := by
  intro hc
  have hdigit := Nat.isDigit_of_mem_toDigits (by decide) (by decide) hc
  rw [h] at hdigit
  cases hdigit

/-- A diagnostic can be told from its text, whatever its message is. -/
theorem eq_of_text_eq {a b : Diagnostic} (h : a.text = b.text) : a = b := by
  have hchars := congrArg String.toList h
  rw [toList_text, toList_text] at hchars
  -- No digit is a bracket, so the number of the line ends at the first one.
  obtain ⟨hdigits, hrest⟩ := append_cons_inj_of_not_mem (not_mem_toDigits rfl _)
    (not_mem_toDigits rfl _) (List.append_cancel_left hchars)
  have hline : a.line.number = b.line.number :=
    calc
      a.line.number = Nat.ofDigitChars 10 (Nat.toDigits 10 a.line.number) 0 :=
        Nat.ofDigitChars_ten_toDigits.symm
      _ = Nat.ofDigitChars 10 (Nat.toDigits 10 b.line.number) 0 := by rw [hdigits]
      _ = b.line.number := Nat.ofDigitChars_ten_toDigits
  have hmessage : a.message = b.message :=
    String.toList_inj.mp (List.append_cancel_left hrest)
  obtain ⟨⟨anumber⟩, amessage⟩ := a
  obtain ⟨⟨bnumber⟩, bmessage⟩ := b
  obtain rfl : anumber = bnumber := hline
  obtain rfl : amessage = bmessage := hmessage
  rfl

theorem newline_not_mem_text {diagnostic : Diagnostic} (h : '\n' ∉ diagnostic.message.toList) :
    '\n' ∉ diagnostic.text.toList := by
  have hdigits : '\n' ∉ Nat.toDigits 10 diagnostic.line.number := not_mem_toDigits rfl _
  rw [toList_text]
  simp [hdigits, h]

/-- Whether a line of a text shows a diagnostic. A line feed may end the line. -/
def IsShownOn (diagnostic : Diagnostic) (line : List Char) : Prop :=
  '\n' ∉ diagnostic.message.toList ∧
    (line = diagnostic.text.toList ∨ line = diagnostic.text.toList ++ ['\n'])

/-- The text of a diagnostic is the line that shows it, up to the line feed. -/
theorem IsShownOn.text_eq {diagnostic : Diagnostic} {line : List Char}
    (h : diagnostic.IsShownOn line) : diagnostic.text.toList = line.takeWhile (· != '\n') := by
  obtain ⟨hmessage, hline⟩ := h
  have hrun := bne_of_not_mem (newline_not_mem_text hmessage)
  rcases hline with rfl | rfl
  · rw [List.takeWhile_eq_self_iff.mpr hrun]
  · rw [takeWhile_append_of_stop hrun (by simp)]

/-- No line shows two diagnostics. -/
theorem rightUnique_isShownOn :
    Relator.RightUnique fun (line : List Char) (diagnostic : Diagnostic) =>
      diagnostic.IsShownOn line := by
  intro line a b ha hb
  exact eq_of_text_eq (String.toList_inj.mp (ha.text_eq.trans hb.text_eq.symm))

end Diagnostic

/-! ## All entries -/

namespace Log

/-- Whether no message of a log goes on over the end of a line. -/
def IsSingleLined (log : Log) : Prop := ∀ entry ∈ log.entries, '\n' ∉ entry.message.toList

instance (log : Log) : Decidable log.IsSingleLined :=
  inferInstanceAs (Decidable (∀ entry ∈ log.entries, '\n' ∉ entry.message.toList))

/-- A text that was joined from the texts of some diagnostics shows them, line by line. -/
theorem forall₂_cutLines_intercalate {entries : List Diagnostic}
    (h : ∀ entry ∈ entries, '\n' ∉ entry.message.toList) :
    List.Forall₂ (fun line entry => entry.IsShownOn line)
      (cutLines (['\n'].intercalate (entries.map (·.text.toList)))) entries := by
  induction entries with
  | nil => exact .nil
  | cons entry entries ih =>
      obtain ⟨hentry, hentries⟩ := List.forall_mem_cons.mp h
      have htext := Diagnostic.newline_not_mem_text hentry
      cases entries with
      | nil =>
          have hne : entry.text.toList ≠ [] := by
            rw [Diagnostic.toList_text]
            exact List.cons_ne_nil _ _
          rw [List.map_singleton, List.intercalate_singleton, cutLines_of_not_mem hne htext]
          exact .cons ⟨hentry, .inl rfl⟩ .nil
      | cons next entries =>
          rw [List.map_cons, List.map_cons, List.intercalate_cons_cons, List.append_assoc,
            List.singleton_append, cutLines_newline htext]
          exact .cons ⟨hentry, .inr rfl⟩ (ih hentries)

variable {log : Log}

theorem forall₂_cutLines (h : log.IsSingleLined) :
    List.Forall₂ (fun line entry => entry.IsShownOn line) (cutLines log.text.toList)
      log.entries.toList := by
  have hentries : ∀ entry ∈ log.entries.toList, '\n' ∉ entry.message.toList :=
    fun entry hentry => h entry (Array.mem_toList_iff.mp hentry)
  have hlines := forall₂_cutLines_intercalate hentries
  rw [text, String.toList_intercalate, List.map_map]
  exact hlines

/-- A log can be told from its text. -/
theorem eq_of_text_eq {a b : Log} (ha : a.IsSingleLined) (hb : b.IsSingleLined)
    (h : a.text = b.text) : a = b := by
  have hlines := forall₂_cutLines ha
  rw [h] at hlines
  have hentries : a.entries.toList = b.entries.toList :=
    List.right_unique_forall₂' Diagnostic.rightUnique_isShownOn hlines (forall₂_cutLines hb)
  obtain ⟨aentries⟩ := a
  obtain ⟨bentries⟩ := b
  obtain rfl : aentries = bentries := Array.toList_inj.mp hentries
  rfl

/-- The text of a log has a line for each entry. -/
theorem length_sourceLines_text (h : log.IsSingleLined) :
    (sourceLines log.text).length = log.size := by
  rw [sourceLines, List.length_map, (forall₂_cutLines h).length_eq, size, Array.length_toList]

theorem text_eq_empty_iff (h : log.IsSingleLined) : log.text = "" ↔ log.isEmpty = true := by
  rw [isEmpty_iff]
  constructor
  · intro htext
    exact eq_of_text_eq h (fun _ => nofun) (htext.trans rfl)
  · rintro rfl
    rfl

/-- The messages of a scan are two, and neither has a line feed. -/
theorem isSingleLined_scan (dialect : Dialect) (source : String) :
    (scan dialect source).state.IsSingleLined := by
  intro report hreport
  rw [← Array.mem_toList_iff, toList_entries_scan] at hreport
  have hplace := place_of_mem_diagnosticsFrom (isCut_items dialect source.toList) hreport
  rcases hplace with hunexpected | hunterminated
  · rw [hunexpected.message]
    decide
  · have hmessage : '\n' ∉ "Unterminated String".toList := by decide
    rw [hunterminated]
    exact hmessage

/-- **A log can be read back.** Two logs whose messages have no line feed have the same text
exactly if they are the same, entry by entry. The log of a scan is one of these. Its text has
as many lines as there are reports, and is empty exactly if there is none. -/
theorem text_readable :
    (∀ a b : Log, a.IsSingleLined → b.IsSingleLined → (a.text = b.text ↔ a = b)) ∧
      ∀ (dialect : Dialect) (source : String),
        (scan dialect source).state.IsSingleLined ∧
          (sourceLines (scan dialect source).state.text).length =
            (scan dialect source).state.size ∧
          ((scan dialect source).state.text = "" ↔ (scan dialect source).state.isEmpty = true) := by
  constructor
  · intro a b ha hb
    exact ⟨eq_of_text_eq ha hb, congrArg text⟩
  · intro dialect source
    have hsingle := isSingleLined_scan dialect source
    exact ⟨hsingle, length_sourceLines_text hsingle, text_eq_empty_iff hsingle⟩

/-- A message that looks like an entry is no entry. -/
theorem text_readable_bracket :
    (⟨#[⟨⟨1⟩, "a"⟩, ⟨⟨2⟩, "b"⟩]⟩ : Log).text ≠
        (⟨#[⟨⟨1⟩, "a[line 2] Error: b"⟩]⟩ : Log).text ∧
      (sourceLines (scan ⟨false⟩ "@\n#\"").state.text).length = 3 := by
  constructor
  · exact (text_readable.1 _ _ (by decide) (by decide)).not.mpr (by decide)
  · rw [(text_readable.2 ⟨false⟩ "@\n#\"").2.1]
    decide +kernel

end Log

end Lox
