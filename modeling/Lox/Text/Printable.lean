/-
# Characters that do not show

Some characters leave no mark of their own when a text is shown: controls,
format characters, separators other than the space, characters of private use,
fillers, code points without a character, and marks that combine with the
character before them. A quoted text names them by number instead.
-/

import Lox.Text.Combining
import Lox.Text.Unassigned

namespace Lox

namespace Text

/-- Controls, format characters, separators, fillers and characters of private
use, as ascending ranges with both bounds included. -/
def invisibleRanges : List (Nat × Nat) :=
  [(0x00, 0x1f), (0x7f, 0xa0), (0xad, 0xad), (0x600, 0x605), (0x61c, 0x61c), (0x6dd, 0x6dd),
   (0x70f, 0x70f), (0x890, 0x891), (0x8e2, 0x8e2), (0x115f, 0x1160), (0x1680, 0x1680),
   (0x180e, 0x180e), (0x2000, 0x200f), (0x2028, 0x202f), (0x205f, 0x2064), (0x2066, 0x206f),
   (0x3000, 0x3000), (0x3164, 0x3164), (0xe000, 0xf8ff), (0xfeff, 0xfeff), (0xffa0, 0xffa0),
   (0xfff9, 0xfffb), (0x110bd, 0x110bd), (0x110cd, 0x110cd), (0x13430, 0x1343f),
   (0x1bca0, 0x1bca3), (0x1d173, 0x1d17a), (0xe0001, 0xe0001), (0xe0020, 0xe007f),
   (0xf0000, 0xffffd), (0x100000, 0x10fffd)]

/-- Whether a code point lies in one of the given ranges. The ranges ascend, so
none is looked at after the first that begins beyond the code point. -/
def inRanges (code : Nat) : List (Nat × Nat) → Bool
  | [] => false
  | (low, high) :: ranges => low ≤ code && (code ≤ high || inRanges code ranges)

/-- Whether a character shows as itself. -/
def isPrintable (c : Char) : Bool :=
  !inRanges c.toNat invisibleRanges && !inRanges c.toNat combiningRanges &&
    !inRanges c.toNat unassignedRanges

/-! ## The tables ascend -/

/-- Whether each range begins beyond the end of the one before it. -/
def ascending : List (Nat × Nat) → Bool
  | first :: second :: ranges =>
    first.1 ≤ first.2 && first.2 < second.1 && ascending (second :: ranges)
  | _ => true

theorem invisibleRanges_ascending : ascending invisibleRanges = true := by decide +kernel

theorem combiningRanges_ascending : ascending combiningRanges = true := by decide +kernel

theorem unassignedRanges_ascending : ascending unassignedRanges = true := by decide +kernel

/-- Where the first range begins beyond a code point, all of them do. -/
theorem any_eq_false_of_lt {code : Nat} {first : Nat × Nat} {ranges : List (Nat × Nat)}
    (ordered : ascending (first :: ranges) = true) (lt : code < first.1) :
    ((first :: ranges).any fun range => range.1 ≤ code && code ≤ range.2) = false := by
  induction ranges generalizing first with
  | nil => simp [Nat.not_le.mpr lt]
  | cons second ranges ih =>
    simp only [ascending, Bool.and_eq_true, decide_eq_true_eq] at ordered
    obtain ⟨⟨nonempty, apart⟩, ordered⟩ := ordered
    rw [List.any_cons, ih ordered (by omega)]
    simp [Nat.not_le.mpr lt]

/-- Looking no further than the first range beyond a code point misses nothing. -/
theorem inRanges_eq_any {code : Nat} {ranges : List (Nat × Nat)}
    (ordered : ascending ranges = true) :
    inRanges code ranges = ranges.any fun range => range.1 ≤ code && code ≤ range.2 := by
  induction ranges with
  | nil => rfl
  | cons first ranges ih =>
    by_cases lt : code < first.1
    · rw [any_eq_false_of_lt ordered lt, inRanges]
      simp [Nat.not_le.mpr lt]
    · have rest : ascending ranges = true := by
        cases ranges with
        | nil => rfl
        | cons second ranges =>
          simp only [ascending, Bool.and_eq_true] at ordered
          exact ordered.2
      rw [inRanges, List.any_cons, ih rest]
      simp [Nat.not_lt.mp lt]

/-- A character shows as itself exactly if no range of a table has its code point. -/
theorem isPrintable_iff {c : Char} :
    isPrintable c = true ↔
      ∀ range ∈ invisibleRanges ++ combiningRanges ++ unassignedRanges,
        ¬(range.1 ≤ c.toNat ∧ c.toNat ≤ range.2) := by
  rw [isPrintable, inRanges_eq_any invisibleRanges_ascending,
    inRanges_eq_any combiningRanges_ascending, inRanges_eq_any unassignedRanges_ascending]
  simp only [Bool.and_eq_true, Bool.not_eq_true', List.any_eq_false, decide_eq_true_eq,
    List.forall_mem_append, and_assoc]

end Text

end Lox
