/-
# Binary floating point in 64 bits

The numbers of the language are those of the standard binary format of 64 bits.
A number here is a sign and a magnitude, the magnitude being the low 63 bits of
the format read as one natural number. In that reading magnitudes are ordered as the
numbers are, the successor of a magnitude is the next number of the format, and
an even magnitude is an even significand, so rounding needs no case analysis on
subnormal numbers or on a carry into the exponent.

Finite magnitudes count whole *steps* of `2 ^ -1074`, the least positive number
of the format. Rounding a quotient is therefore integer arithmetic throughout.
Its powers are written as `Nat.pow`, which no algebra that is imported later can
give another reading.
-/

import Lox.Numeric.Decimal

namespace Lox

/-- A number in binary floating point, infinities and NaNs included. -/
structure Binary64 where
  /-- Whether the sign bit is set. -/
  negative : Bool
  /-- All bits but the sign. -/
  magnitude : Nat
  /-- Sixty-three bits are left beside the sign. -/
  magnitude_lt : magnitude < Nat.pow 2 63
deriving DecidableEq

namespace Binary64

/-- The magnitude of the infinities. Smaller magnitudes are finite numbers and
greater ones are NaNs. -/
def infinite : Nat := 2047 * Nat.pow 2 52

/-- The number with the given bits, most significant first the sign. -/
def ofBits (bits : UInt64) : Binary64 where
  negative := Nat.pow 2 63 ≤ bits.toNat
  magnitude := bits.toNat % Nat.pow 2 63
  magnitude_lt := Nat.mod_lt _ (by decide)

/-- The bits of a number. -/
def toBits (x : Binary64) : UInt64 :=
  UInt64.ofNat ((if x.negative then Nat.pow 2 63 else 0) + x.magnitude)

/-- Whether a number is not a number at all. -/
def isNaN (x : Binary64) : Bool := infinite < x.magnitude

/-- Whether a number is neither an infinity nor a NaN. -/
def isFinite (x : Binary64) : Bool := x.magnitude < infinite

/-- Equality as arithmetic has it: a NaN equals nothing, itself included, and
the two zeros are equal. -/
def equal (x y : Binary64) : Bool :=
  !x.isNaN && !y.isNaN &&
    (x.magnitude == y.magnitude && (x.negative == y.negative || x.magnitude == 0))

/-! ## Rounding -/

/-- The number of steps of `2 ^ -1074` in a finite magnitude. Below the first
normal number a magnitude is that count itself; above, its low 52 bits and the
hidden one are scaled by the exponent. -/
def steps (magnitude : Nat) : Nat :=
  if magnitude < Nat.pow 2 52 then magnitude
  else (Nat.pow 2 52 + magnitude % Nat.pow 2 52) * Nat.pow 2 (magnitude / Nat.pow 2 52 - 1)

/-- The natural number nearest to a quotient, a half going to the even
neighbour. -/
def roundHalfEven (numerator denominator : Nat) : Nat :=
  let quotient := numerator / denominator
  let rest := 2 * (numerator % denominator)
  if rest < denominator ∨ (rest = denominator ∧ quotient % 2 = 0) then quotient else quotient + 1

/-- The magnitude nearest to a quotient of steps, a half going to the even
magnitude, and everything from half a step beyond the greatest finite number on
going to infinity.

The quotient is scaled down until its integer part has 53 bits and rounded
there. A scale of `2 ^ shift` contributes `shift` to the exponent field, and a
significand that rounds up to `2 ^ 53` carries into it by itself. -/
def nearestMagnitude (numerator denominator : Nat) : Nat :=
  let shift := (numerator / denominator).log2 - 52
  min (shift * Nat.pow 2 52 + roundHalfEven numerator (denominator * Nat.pow 2 shift)) infinite

theorem nearestMagnitude_lt (numerator denominator : Nat) :
    nearestMagnitude numerator denominator < Nat.pow 2 63 :=
  Nat.lt_of_le_of_lt (Nat.min_le_right _ _) (by decide)

/-- The magnitude nearest to a quotient of natural numbers. -/
def quotient (numerator denominator : Nat) : Nat :=
  nearestMagnitude (numerator * Nat.pow 2 1074) denominator

/-- The magnitude nearest to the sum of two finite magnitudes. -/
def sum (a b : Nat) : Nat := nearestMagnitude (steps a + steps b) 1

/-- The magnitude nearest to a finite magnitude divided into equal parts. -/
def part (magnitude parts : Nat) : Nat := nearestMagnitude (steps magnitude) parts

/-- The magnitude nearest to a decimal. -/
def magnitudeOf (d : Decimal) : Nat := quotient d.ratio.1 d.ratio.2

/-- A decimal, correctly rounded. -/
def ofDecimal (d : Decimal) : Binary64 := ⟨false, magnitudeOf d, nearestMagnitude_lt _ _⟩

/-- The number that a decimal text denotes, correctly rounded. -/
def ofText? (text : List Char) : Option Binary64 := (Decimal.ofText? text).map ofDecimal

end Binary64

end Lox
