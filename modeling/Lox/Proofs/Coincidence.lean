/-
# Cursors that compare equal

Cursors are compared by their texts and by what is left of them. Neither the position nor
the line has a part in it, and a text may go on alike from many of its places.

Still a comparison tells all there is to tell. What is left of a text is as long as the
place is far from the end, so it fixes the division of the text, and from the division follow
position and line. This needs cursors that came about by moving: of a cursor put together
at will the line could be any. Such cursors compare equal exactly if they stand at one
position of one text, and from there on no sequence of moves tells them apart.
-/

import Lox.Proofs.Splits

namespace Lox

/-- What is seen of a cursor that is moved: after each move the answer, the line, the position,
and whether the text has ended. -/
def Cursor.observed (cursor : Cursor) : List Move → List (Answer × Line × Nat × Bool)
  | [] => []
  | move :: moves =>
    let (answer, later) := cursor.perform move
    (answer, later.line, later.offset, later.isAtEnd) :: later.observed moves

namespace Split

variable {a b : Split}

/-- Two cursors compare equal exactly if they divide their texts alike. -/
theorem equal_cursor_iff : a.cursor.equal b.cursor = true ↔ a = b := by
  constructor
  · intro h
    obtain ⟨aread, arest⟩ := a
    obtain ⟨bread, brest⟩ := b
    rw [Cursor.equal, Bool.and_eq_true, beq_iff_eq, beq_iff_eq] at h
    obtain ⟨hsource, hrest⟩ := h
    obtain rfl : arest = brest := hrest
    have hread : aread ++ arest = bread ++ arest := hsource
    rw [List.append_cancel_right hread]
  · rintro rfl
    rw [Cursor.equal, beq_self_eq_true, beq_self_eq_true, Bool.and_self]

/-- A text is divided at a position in one way. -/
theorem eq_iff_offset_eq : a = b ↔ a.whole = b.whole ∧ a.cursor.offset = b.cursor.offset := by
  constructor
  · rintro rfl
    exact ⟨rfl, rfl⟩
  · rintro ⟨hwhole, hoffset⟩
    obtain ⟨aread, arest⟩ := a
    obtain ⟨bread, brest⟩ := b
    rw [cursor, cursor, Cursor.offset_between, Cursor.offset_between] at hoffset
    obtain ⟨rfl, rfl⟩ := Utf8.append_inj_of_size hwhole hoffset
    rfl

end Split

namespace Cursor

/-- **Equal cursors coincide.** However two cursors came about, each over a text, they compare
equal exactly if the texts are the same and the positions are. Then they are also on the
same line, and whatever moves are made with both give the same answers, lines and positions,
and the same stretches to and from any other cursor. -/
theorem equal_iff_offset_eq {s t : String} {a b : Cursor} (ha : a.IsOver s) (hb : b.IsOver t) :
    (a.equal b = true ↔ s = t ∧ a.offset = b.offset) ∧
      (a.equal b = true → a.line = b.line ∧ ∀ moves, a.observed moves = b.observed moves ∧
        ∀ other : Cursor, (a.moved moves).sliceUntil? other = (b.moved moves).sliceUntil? other ∧
          other.sliceUntil? (a.moved moves) = other.sliceUntil? (b.moved moves)) := by
  obtain ⟨first, rfl, hs⟩ := ha.exists_split
  obtain ⟨second, rfl, ht⟩ := hb.exists_split
  rw [Split.equal_cursor_iff]
  constructor
  · rw [Split.eq_iff_offset_eq, hs, ht, String.toList_inj]
  · rintro rfl
    exact ⟨rfl, fun _ => ⟨rfl, fun _ => ⟨rfl, rfl⟩⟩⟩

/-- In a text that goes on alike from two places, cursors that were moved to one place in
different ways are equal and answer alike, and those at the two places are not. -/
theorem equal_iff_offset_eq_repeated :
    ((start "é\né\n").moved [.nth 1]).equal
        ((start "é\né\n").moved [.next, .peek, .advanceIf '\n']) = true ∧
      ((start "é\né\n").moved [.nth 1]).observed [.next, .collect] =
        ((start "é\né\n").moved [.next, .peek, .advanceIf '\n']).observed [.next, .collect] ∧
      ((start "é\né\n").moved [.nth 1]).equal (start "é\né\n") = false := by
  have hstart := isOver_start "é\né\n"
  have hline := hstart.moved [.nth 1]
  have hstepwise := hstart.moved [.next, .peek, .advanceIf '\n']
  have hequal := (equal_iff_offset_eq hline hstepwise).1.mpr ⟨rfl, by decide⟩
  refine ⟨hequal, ?_, ?_⟩
  · exact (((equal_iff_offset_eq hline hstepwise).2 hequal).2 [.next, .collect]).1
  · apply Bool.eq_false_iff.mpr
    intro h
    exact absurd ((equal_iff_offset_eq hline hstart).1.mp h).2 (by decide)

end Cursor

end Lox
