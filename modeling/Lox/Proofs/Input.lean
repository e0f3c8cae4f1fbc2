/-
# Texts and lines of an input

An input is a row of bytes. It is a text if the bytes are the encoding of one, and
it has lines whether it is a text or not: a newline byte ends a line and belongs
to it. Only the last line may lack that byte, and no line is without bytes.

`LinesOf` is this rule, and it leaves no choice: every input has lines, and only
one row of them. Reading the next line off an input takes the first of them and
leaves the others.

A line that is a text has line feeds where its bytes have newlines, so at its end
at most.
-/

import Lox.CommandLine.Session
import Lox.Proofs.Cut

namespace Lox.CommandLine

/-! ## Texts -/

/-- The bytes that encode a text. -/
def encoded (source : String) : Bytes := source.toByteArray.data.toList

/-- Bytes are read as a text exactly if they encode it. -/
theorem decode?_eq_some_iff {bytes : Bytes} {source : String} :
    decode? bytes = some source ↔ bytes = encoded source := by
  constructor
  · intro h
    rw [decode?, String.fromUTF8?] at h
    split at h
    next =>
      rw [← Option.some.inj h]
      rfl
    next => cases h
  · rintro rfl
    rw [decode?, String.fromUTF8?]
    exact dif_pos source.isValidUTF8

theorem decode?_encoded (source : String) : decode? (encoded source) = some source :=
  decode?_eq_some_iff.mpr rfl

/-- Bytes are read as no text exactly if they encode none. -/
theorem decode?_eq_none_iff {bytes : Bytes} :
    decode? bytes = none ↔ ∀ source, bytes ≠ encoded source := by
  constructor
  · intro h source hbytes
    rw [decode?_eq_some_iff.mpr hbytes] at h
    cases h
  · intro h
    apply Option.eq_none_iff_forall_ne_some.mpr
    intro source hsome
    exact h source (decode?_eq_some_iff.mp hsome)

theorem encoded_ofList (text : List Char) :
    encoded (String.ofList text) = text.flatMap String.utf8EncodeChar := by
  rw [encoded, String.toByteArray_ofList, List.utf8Encode]
  simp

theorem encoded_append (a b : List Char) :
    encoded (String.ofList (a ++ b)) = encoded (String.ofList a) ++ encoded (String.ofList b) := by
  rw [encoded_ofList, encoded_ofList, encoded_ofList, List.flatMap_append]

theorem encoded_ne_nil {text : List Char} (h : text ≠ []) : encoded (String.ofList text) ≠ [] := by
  obtain ⟨c, rest, rfl⟩ := List.exists_cons_of_ne_nil h
  rw [encoded_ofList, List.flatMap_cons]
  exact List.append_ne_nil_of_left_ne_nil String.utf8EncodeChar_ne_nil _

theorem encoded_newline : encoded (String.ofList ['\n']) = [10] := by decide

/-- The newline byte encodes a line feed and is part of no other encoding. -/
theorem eq_newline_of_mem_utf8EncodeChar {c : Char} (h : 10 ∈ String.utf8EncodeChar c) :
    c = '\n' := by
  have hhigh {n : Nat} (hlow : 128 ≤ n) (hbyte : n < 256) : (10 : UInt8) ≠ UInt8.ofNat n := by
    intro heq
    have hvalue := congrArg UInt8.toNat heq
    rw [UInt8.toNat_ofNat_of_lt' hbyte] at hvalue
    have hten : (10 : UInt8).toNat = 10 := rfl
    omega
  rw [String.utf8EncodeChar] at h
  split at h
  next hascii =>
    have hbyte : c.val.toNat < 256 := by omega
    have hvalue := congrArg UInt8.toNat (List.mem_singleton.mp h)
    rw [UInt8.toNat_ofNat_of_lt' hbyte] at hvalue
    exact Char.ext (UInt32.toNat_inj.mp hvalue.symm)
  next =>
    -- Every byte of a longer encoding is above those of the ASCII characters.
    refine absurd h ?_
    split
    next =>
      simp only [List.mem_cons, List.not_mem_nil, or_false, not_or]
      refine ⟨hhigh ?_ ?_, hhigh ?_ ?_⟩ <;> omega
    split
    next =>
      simp only [List.mem_cons, List.not_mem_nil, or_false, not_or]
      refine ⟨hhigh ?_ ?_, hhigh ?_ ?_, hhigh ?_ ?_⟩ <;> omega
    next =>
      simp only [List.mem_cons, List.not_mem_nil, or_false, not_or]
      refine ⟨hhigh ?_ ?_, hhigh ?_ ?_, hhigh ?_ ?_, hhigh ?_ ?_⟩ <;> omega

theorem newline_not_mem_encoded {text : List Char} (h : '\n' ∉ text) :
    10 ∉ encoded (String.ofList text) := by
  rw [encoded_ofList, List.mem_flatMap]
  rintro ⟨c, hc, hnewline⟩
  exact h (eq_newline_of_mem_utf8EncodeChar hnewline ▸ hc)

/-! ## Lines -/

/-- The lines of an input. A newline byte ends a line and belongs to it. -/
inductive LinesOf : Bytes → List Bytes → Prop where
  /-- Nothing has no lines. -/
  | done : LinesOf [] []
  /-- What no newline byte ends is the last line. -/
  | last {body : Bytes} (nonempty : body ≠ []) (within : 10 ∉ body) : LinesOf body [body]
  /-- The first newline byte ends the first line. -/
  | line {body rest : Bytes} {lines : List Bytes} (within : 10 ∉ body) (tail : LinesOf rest lines) :
      LinesOf (body ++ 10 :: rest) ((body ++ [10]) :: lines)

theorem exists_linesOf (input : Bytes) : ∃ lines, LinesOf input lines := by
  induction input with
  | nil => exact ⟨[], .done⟩
  | cons byte input ih =>
      obtain ⟨lines, hlines⟩ := ih
      by_cases hnewline : byte = 10
      · subst hnewline
        have hempty : (10 : UInt8) ∉ ([] : Bytes) := List.not_mem_nil
        exact ⟨_, .line hempty hlines⟩
      · have hcons {body : Bytes} (hbody : 10 ∉ body) : 10 ∉ byte :: body := by
          simp [hbody, Ne.symm hnewline]
        cases hlines with
        | done => exact ⟨_, .last (List.cons_ne_nil _ _) (hcons (by simp))⟩
        | last _ hbody => exact ⟨_, .last (List.cons_ne_nil _ _) (hcons hbody)⟩
        | line hbody tail => exact ⟨_, .line (hcons hbody) tail⟩

/-- The lines of an input are the input. -/
theorem LinesOf.flatten {input : Bytes} {lines : List Bytes} (h : LinesOf input lines) :
    lines.flatten = input := by
  induction h with
  | done => rfl
  | last _ _ => exact List.append_nil _
  | line _ _ ih => rw [List.flatten_cons, ih, List.append_assoc, List.singleton_append]

theorem nextLine_of_newline {body rest : Bytes} (h : 10 ∉ body) :
    nextLine (body ++ 10 :: rest) = (body ++ [10], rest) := by
  have hstop : ∀ byte ∈ (10 :: rest).head?, (byte != 10) = false := by simp
  rw [nextLine, dropWhile_append_of_stop (bne_of_not_mem h) hstop,
    takeWhile_append_of_stop (bne_of_not_mem h) hstop]

theorem nextLine_of_not_mem {body : Bytes} (h : 10 ∉ body) : nextLine body = (body, []) := by
  have hdrop : (body ++ []).dropWhile (· != 10) = [] :=
    dropWhile_append_of_stop (bne_of_not_mem h) (by simp)
  rw [List.append_nil] at hdrop
  rw [nextLine, hdrop]

/-- Reading the next line takes the first line and leaves the others. -/
theorem LinesOf.nextLine {input line : Bytes} {lines : List Bytes} (h : LinesOf input (line :: lines)) :
    nextLine input = (line, lines.flatten) ∧ LinesOf lines.flatten lines ∧ input ≠ [] := by
  cases h with
  | last hne hbody => exact ⟨nextLine_of_not_mem hbody, .done, hne⟩
  | line hbody tail =>
      rw [tail.flatten]
      exact ⟨nextLine_of_newline hbody, tail, by simp⟩

/-- The rule leaves no choice. -/
theorem LinesOf.unique {input : Bytes} {lines other : List Bytes} (h : LinesOf input lines)
    (hother : LinesOf input other) : other = lines := by
  induction lines generalizing input other with
  | nil =>
      obtain rfl : input = [] := h.flatten.symm
      cases other with
      | nil => rfl
      | cons line others => exact absurd rfl hother.nextLine.2.2
  | cons line lines ih =>
      obtain ⟨hfirst, htail, hne⟩ := h.nextLine
      cases other with
      | nil => exact absurd hother.flatten.symm hne
      | cons line' others =>
          obtain ⟨hfirst', htail', -⟩ := hother.nextLine
          obtain ⟨rfl, hrest⟩ := Prod.mk.inj (hfirst'.symm.trans hfirst)
          rw [hrest] at htail'
          rw [ih htail htail']

/-- A newline byte stands nowhere in a line but at its end. -/
theorem LinesOf.not_mem_dropLast {input : Bytes} {lines : List Bytes} (h : LinesOf input lines) :
    ∀ line ∈ lines, 10 ∉ line.dropLast := by
  induction h with
  | done => simp
  | last _ hbody => simpa using fun hmem => hbody (List.dropLast_subset _ hmem)
  | line hbody _ ih => exact List.forall_mem_cons.mpr ⟨by simpa using hbody, ih⟩

/-- A line that is a text has no line feed but at its end. -/
theorem not_mem_dropLast_of_encoded {source : String} (h : 10 ∉ (encoded source).dropLast) :
    '\n' ∉ source.toList.dropLast := by
  rw [← String.ofList_toList (s := source)] at h
  generalize source.toList = text at h ⊢
  intro hfeed
  obtain ⟨before, behind, hbefore⟩ := List.append_of_mem hfeed
  have hne : text ≠ [] := fun hempty => by
    rw [hempty] at hfeed
    cases hfeed
  -- What stands behind the line feed is not empty, so its byte is not the last one.
  have htext : text = before ++ ['\n'] ++ (behind ++ [text.getLast hne]) := by
    conv => lhs; rw [← List.dropLast_concat_getLast hne, hbefore]
    simp
  rw [htext, encoded_append, encoded_append,
    List.dropLast_append_of_ne_nil (encoded_ne_nil (by simp))] at h
  apply h
  have hnewline : 10 ∈ encoded (String.ofList ['\n']) := by
    rw [encoded_newline]
    exact List.mem_singleton_self _
  exact List.mem_append_left _ (List.mem_append_right _ hnewline)

end Lox.CommandLine
