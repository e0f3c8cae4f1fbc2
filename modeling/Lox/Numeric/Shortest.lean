/-
# The shortest decimal that reads back

Many decimals round to one binary number. The one to write is among those with
the fewest digits, and of those the nearest to the number.

For a given number of digits there are only two candidates: the decimals of that
length on either side of the number. If any decimal of that length reads back,
one of these two does, because the decimals that read back form an interval
around the number. Seventeen digits are always enough.
-/

import Lox.Numeric.Binary64

namespace Lox

namespace Binary64

/-- The decimal that a finite magnitude is exactly. -/
def exactDecimal (magnitude : Nat) : Decimal := ⟨steps magnitude * Nat.pow 5 1074, -1074⟩

/-- How many places after the point the first digit of a magnitude below one
stands, if it is among the first `places`. -/
def placesAfterPoint : (places steps : Nat) → Nat
  | 0, _ => 0
  | places + 1, steps =>
    if Nat.pow 2 1074 ≤ 10 * steps then 1 else 1 + placesAfterPoint places (10 * steps)

/-- The power of ten that the first digit of a positive finite magnitude counts.
The least magnitude has its first digit at place 324. -/
def leadingPlace (magnitude : Nat) : Int :=
  let whole := steps magnitude / Nat.pow 2 1074
  if whole = 0 then -(placesAfterPoint 324 (steps magnitude) : Nat)
  else ((Nat.toDigits 10 whole).length - 1 : Nat)

/-- Of the two multiples of `10 ^ place` around a magnitude, the one that reads
back as the magnitude; if both do, the nearer, and the upper one if neither is
nearer. -/
def neighbour? (magnitude : Nat) (place : Int) : Option Decimal :=
  let numerator := steps magnitude * Nat.pow 10 (-place).toNat
  let denominator := Nat.pow 2 1074 * Nat.pow 10 place.toNat
  let lower : Decimal := ⟨numerator / denominator, place⟩
  let upper : Decimal := ⟨numerator / denominator + 1, place⟩
  if magnitudeOf lower = magnitude ∧
      (2 * (numerator % denominator) < denominator ∨ magnitudeOf upper ≠ magnitude) then
    some lower
  else if magnitudeOf upper = magnitude then some upper
  else none

/-- The nearest of the shortest decimals that read back as a finite magnitude. -/
def shortest (magnitude : Nat) : Decimal :=
  let found := (List.range 17).findSome? fun (more : Nat) =>
    neighbour? magnitude (leadingPlace magnitude - more)
  (found.getD (exactDecimal magnitude)).trim

end Binary64

end Lox
