/-
# Stretches between cursors

The stretch from one cursor to another is cut out of the source text by two byte positions,
each counted from what the cursor has left. Neither count knows about characters, and both
cursors may have been moved on their own.

Cursors over one text divide it, and of two divisions one has read what the other has and
something more, or nothing more. That something is the stretch
(`Split.sliceUntil?_eq_some_iff`). It is there unless the second cursor stands before the first,
and its size, its line feeds and the way stretches are put together are read off from it. A
move appends to what was read the characters that it takes (`Split.Moves.read_eq`), so the stretch
over a run of moves is what all of them took.
-/

import Lox.Proofs.Cut
import Lox.Proofs.Splits

namespace Lox

namespace Cursor

/-- The characters that a move takes, in order. -/
def taken (cursor : Cursor) : Move → List Char
  | .next => cursor.next.1.toList
  | .peek | .peekSecond => []
  | .nth count => cursor.rest.take (count + 1)
  | .collect => cursor.collect.1
  | .advanceIf expected => if (cursor.advanceIf expected).1 then [expected] else []
  | .advanceWhile condition => cursor.rest.takeWhile condition

/-- The characters that a run of moves takes, in order. -/
def consumed (cursor : Cursor) : List Move → List Char
  | [] => []
  | move :: moves => cursor.taken move ++ (cursor.perform move).2.consumed moves

end Cursor

namespace Split

variable {a b : Split}

/-! ## What moves take -/

/-- A move appends what it takes to what was read. -/
theorem Moves.read_eq {split later : Split} {move : Move} {answer : Answer}
    (h : split.Moves move answer later) : later.read = split.read ++ split.cursor.taken move := by
  have hanswer := congrArg Prod.fst h.perform_eq
  cases h with
  | next => rfl
  | nextAtEnd | peek | peekSecond => exact (List.append_nil _).symm
  | nth hskips =>
      rw [Cursor.taken, cursor, Cursor.between, ← hskips, List.take_length_add_append,
        List.append_assoc]
      rfl
  | nthBeyond hshort =>
      rw [Cursor.taken, cursor, Cursor.between, List.take_of_length_le (Nat.le_succ_of_le hshort)]
  | collect => rw [Cursor.taken, cursor, Cursor.collect_between]
  | advanceIf => rw [Cursor.taken, Answer.taken.inj hanswer, if_pos rfl]
  | advanceIfOther =>
      rw [Cursor.taken, Answer.taken.inj hanswer, if_neg Bool.false_ne_true, List.append_nil]
  | advanceWhile hrun hlongest =>
      rw [Cursor.taken, cursor, Cursor.between,
        takeWhile_append_of_stop hrun (stops_of_longest hrun hlongest)]

/-- A cursor that is moved has read what the move takes, and divides the same text. -/
theorem exists_perform_eq_taken (split : Split) (move : Move) :
    ∃ later : Split, (split.cursor.perform move).2 = later.cursor ∧
      later.whole = split.whole ∧ later.read = split.read ++ split.cursor.taken move := by
  obtain ⟨answer, later, hmoves⟩ := split.exists_moves move
  obtain ⟨taken, hrest, hread⟩ := hmoves.exists_taken
  refine ⟨later, congrArg Prod.snd hmoves.perform_eq, ?_, hmoves.read_eq⟩
  rw [whole, whole, hrest, hread, List.append_assoc]

/-- A cursor that is moved many times has read what all moves take. -/
theorem exists_moved_eq (split : Split) (moves : List Move) :
    ∃ later : Split, split.cursor.moved moves = later.cursor ∧
      later.whole = split.whole ∧ later.read = split.read ++ split.cursor.consumed moves := by
  induction moves generalizing split with
  | nil => exact ⟨split, rfl, rfl, (List.append_nil _).symm⟩
  | cons move moves ih =>
      obtain ⟨next, hnext, hwhole, hread⟩ := split.exists_perform_eq_taken move
      obtain ⟨later, hlater, hwhole', hread'⟩ := ih next
      refine ⟨later, ?_, hwhole'.trans hwhole, ?_⟩
      · rw [Cursor.moved, hnext, hlater]
      · rw [hread', hread, Cursor.consumed, hnext, List.append_assoc]

/-! ## What lies between -/

/-- The stretch between two cursors is what the second has read beyond the first. -/
theorem sliceUntil?_eq_some_iff (h : a.whole = b.whole) {stretch : List Char} :
    a.cursor.sliceUntil? b.cursor = some stretch ↔ b.read = a.read ++ stretch := by
  have hsource : a.cursor.source = a.whole := rfl
  rw [Cursor.sliceUntil?, hsource, Utf8.slice?_eq_some_iff, cursor, cursor, Cursor.offset_between,
    Cursor.offset_between]
  constructor
  · rintro ⟨before, behind, hwhole, hbefore, hstretch⟩
    have hfirst : before ++ (stretch ++ behind) = a.read ++ a.rest := by
      rw [← List.append_assoc, ← hwhole]
      rfl
    obtain ⟨rfl, -⟩ := Utf8.append_inj_of_size hfirst hbefore
    have hsecond : a.read ++ stretch ++ behind = b.read ++ b.rest := hwhole.symm.trans h
    exact (Utf8.append_inj_of_size hsecond hstretch).1.symm
  · intro hread
    refine ⟨a.read, b.rest, ?_, rfl, congrArg Utf8.size hread.symm⟩
    rw [h, whole, hread]

/-- Of two cursors over one text, the one that does not stand before the other has read what
the other has. -/
theorem offset_le_iff (h : a.whole = b.whole) :
    a.cursor.offset ≤ b.cursor.offset ↔ ∃ stretch, b.read = a.read ++ stretch := by
  rw [cursor, cursor, Cursor.offset_between, Cursor.offset_between]
  constructor
  · intro hle
    have hwhole : a.read ++ a.rest = b.read ++ b.rest := h
    rcases List.append_eq_append_iff.mp hwhole with ⟨stretch, hread, -⟩ | ⟨stretch, hread, -⟩
    · exact ⟨stretch, hread⟩
    · -- The first has read something more, but no more bytes, so nothing.
      have hge : Utf8.size b.read ≤ Utf8.size a.read := by
        rw [hread, Utf8.size_append]
        exact Nat.le_add_right _ _
      obtain ⟨hsame, -⟩ := Utf8.append_inj_of_size hwhole (Nat.le_antisymm hle hge)
      exact ⟨[], by rw [hsame, List.append_nil]⟩
  · rintro ⟨stretch, hread⟩
    rw [hread, Utf8.size_append]
    exact Nat.le_add_right _ _

/-- There is no stretch exactly if the second cursor stands before the first. -/
theorem sliceUntil?_eq_none_iff (h : a.whole = b.whole) :
    a.cursor.sliceUntil? b.cursor = none ↔ b.cursor.offset < a.cursor.offset := by
  rw [← Nat.not_le, offset_le_iff h, Option.eq_none_iff_forall_ne_some, not_exists]
  exact forall_congr' fun stretch => (sliceUntil?_eq_some_iff h).not

/-- What a stretch measures is the difference of what the cursors at its ends show. -/
theorem offset_eq_of_read_eq {stretch : List Char} (h : b.read = a.read ++ stretch) :
    b.cursor.offset = a.cursor.offset + (String.ofList stretch).utf8ByteSize := by
  rw [cursor, cursor, Cursor.offset_between, Cursor.offset_between, h, Utf8.size_append,
    Utf8.utf8ByteSize_ofList]

theorem line_eq_of_read_eq {stretch : List Char} (h : b.read = a.read ++ stretch) :
    b.cursor.line = a.cursor.line.after stretch := by
  rw [cursor, cursor, Cursor.between, h, Line.after_append]
  rfl

end Split

namespace Cursor

/-- **Stretches.** For cursors that came about over one text in any way, there is no
stretch from the first to the second exactly if the second stands before the first. Otherwise
the stretch is a part of the text between whole characters, it has as many bytes as the
positions differ by and as many line feeds as the lines do. If the second was moved there
from the first, it is what the moves took, in order. Stretches that follow each other are
put together to the stretch over both. -/
theorem sliceUntil?_laws {source : String} {a b c : Cursor} (ha : a.IsOver source)
    (hb : b.IsOver source) (hc : c.IsOver source) :
    (a.sliceUntil? b = none ↔ b.offset < a.offset) ∧
      (∀ stretch, a.sliceUntil? b = some stretch →
        (∃ before behind, source.toList = before ++ stretch ++ behind ∧
          a.offset = (String.ofList before).utf8ByteSize) ∧
        b.offset = a.offset + (String.ofList stretch).utf8ByteSize ∧
        b.line.number = a.line.number + stretch.count '\n') ∧
      (∀ moves, a.sliceUntil? (a.moved moves) = some (a.consumed moves)) ∧
      (a.offset ≤ b.offset → b.offset ≤ c.offset → ∃ first second,
        a.sliceUntil? b = some first ∧ b.sliceUntil? c = some second ∧
          a.sliceUntil? c = some (first ++ second)) := by
  obtain ⟨a, rfl, hasource⟩ := ha.exists_split
  obtain ⟨b, rfl, hbsource⟩ := hb.exists_split
  obtain ⟨c, rfl, hcsource⟩ := hc.exists_split
  have hab : a.whole = b.whole := hasource.trans hbsource.symm
  have hbc : b.whole = c.whole := hbsource.trans hcsource.symm
  refine ⟨Split.sliceUntil?_eq_none_iff hab, ?_, ?_, ?_⟩
  · intro stretch hstretch
    have hread := (Split.sliceUntil?_eq_some_iff hab).mp hstretch
    refine ⟨⟨a.read, b.rest, ?_, ?_⟩, Split.offset_eq_of_read_eq hread, ?_⟩
    · rw [← hbsource, Split.whole, hread]
    · rw [Split.cursor, offset_between, Utf8.utf8ByteSize_ofList]
    · rw [Split.line_eq_of_read_eq hread]
      rfl
  · intro moves
    obtain ⟨later, hlater, hwhole', hread⟩ := a.exists_moved_eq moves
    rw [hlater]
    exact (Split.sliceUntil?_eq_some_iff hwhole'.symm).mpr hread
  · intro hfirst hsecond
    obtain ⟨first, hfirst⟩ := (Split.offset_le_iff hab).mp hfirst
    obtain ⟨second, hsecond⟩ := (Split.offset_le_iff hbc).mp hsecond
    refine ⟨first, second, (Split.sliceUntil?_eq_some_iff hab).mpr hfirst,
      (Split.sliceUntil?_eq_some_iff hbc).mpr hsecond, ?_⟩
    rw [Split.sliceUntil?_eq_some_iff (hab.trans hbc), hsecond, hfirst, List.append_assoc]

/-- Over characters of two and three bytes, with a line feed between them. -/
theorem sliceUntil?_laws_multibyte :
    (start "é\n≠b").sliceUntil? ((start "é\n≠b").moved [.nth 1, .peek, .advanceIf '≠']) =
        some ['é', '\n', '≠'] ∧
      ((start "é\n≠b").moved [.next]).sliceUntil? (start "é\n≠b") = none ∧
      ((start "é\n≠b").moved [.nth 2]).offset =
        ((start "é\n≠b").moved [.next]).offset + (String.ofList ['\n', '≠']).utf8ByteSize ∧
      ∃ first second,
        (start "é\n≠b").sliceUntil? ((start "é\n≠b").moved [.next]) = some first ∧
          ((start "é\n≠b").moved [.next]).sliceUntil? ((start "é\n≠b").moved [.nth 2]) =
            some second ∧
          (start "é\n≠b").sliceUntil? ((start "é\n≠b").moved [.nth 2]) =
            some (first ++ second) := by
  have hstart := isOver_start "é\n≠b"
  have hnext := hstart.moved [.next]
  have hlast := hstart.moved [.nth 2]
  refine ⟨?_, ?_, ?_, ?_⟩
  · exact (sliceUntil?_laws hstart hnext hlast).2.2.1 [.nth 1, .peek, .advanceIf '≠']
  · exact (sliceUntil?_laws hnext hstart hlast).1.mpr (by decide)
  · exact ((sliceUntil?_laws hnext hlast hstart).2.1 ['\n', '≠'] (by decide)).2.1
  · exact (sliceUntil?_laws hstart hnext hlast).2.2.2 (by decide) (by decide)

end Cursor

end Lox
