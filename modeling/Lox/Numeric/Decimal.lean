/-
# Decimal numbers

A decimal is a natural number of units of a power of ten. It is what a number
written in a source text denotes, exactly and at any length, before anything is
rounded; and it is what a binary number is turned into before it is written.

Reading accepts digits with at most one point, and wants a digit on either side
of the point. Neither a sign nor an exponent belongs to the format.
-/

namespace Lox

/-- The number `digits · 10 ^ exponent`. -/
structure Decimal where
  /-- The digits, read as one natural number. -/
  digits : Nat
  /-- The power of ten that the last digit counts. -/
  exponent : Int
deriving DecidableEq

namespace Decimal

/-- The natural number that a row of digits denotes, most significant first. -/
def ofDigits (row : List Char) : Nat :=
  row.foldl (fun value c => 10 * value + (c.toNat - '0'.toNat)) 0

/-- A whole part and a fraction as text. The point is written only if digits
follow it. -/
def written (whole fraction : List Char) : List Char :=
  if fraction = [] then whole else whole ++ '.' :: fraction

theorem written_ne_nil {whole fraction : List Char} (h : whole ≠ []) :
    written whole fraction ≠ [] := by
  unfold written
  split <;> simp [h]

/-- The decimal with the given whole part and fraction. Each digit of the
fraction makes the unit ten times smaller. -/
def ofParts (whole fraction : List Char) : Decimal :=
  ⟨ofDigits (whole ++ fraction), -(fraction.length : Int)⟩

/-- Reads a decimal: digits, and optionally a point and more digits. The whole
text has to be of that form. -/
def ofText? (text : List Char) : Option Decimal :=
  match text.takeWhile Char.isDigit, text.dropWhile Char.isDigit with
  | [], _ => none
  | whole, [] => some (ofParts whole [])
  | whole, '.' :: fraction =>
    if fraction ≠ [] ∧ fraction.all Char.isDigit then some (ofParts whole fraction) else none
  | _, _ => none

/-- The decimal as a quotient of natural numbers, the second of them positive. -/
def ratio (d : Decimal) : Nat × Nat :=
  (d.digits * Nat.pow 10 d.exponent.toNat, Nat.pow 10 (-d.exponent).toNat)

theorem ratio_snd_pos (d : Decimal) : 0 < d.ratio.2 := Nat.pow_pos (by decide)

/-- The same number without zeros at the end of its digits. Zero, which has no
other digit, is left as no units. -/
def trim (d : Decimal) : Decimal :=
  if d.digits = 0 then ⟨0, 0⟩
  else if d.digits % 10 = 0 then trim ⟨d.digits / 10, d.exponent + 1⟩
  else d
termination_by d.digits
decreasing_by omega

end Decimal

end Lox
