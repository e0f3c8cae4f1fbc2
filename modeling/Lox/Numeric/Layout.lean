/-
# Writing numbers

Two layouts of the same digits are in use. The plain one writes out every place
and never an exponent, so what it writes can be read as a number again. The
general one shows at least one digit after the point, so that a number is never
taken for anything else, and turns to an exponent where writing out every place
would hide the size of the number.
-/

import Lox.Numeric.Shortest

namespace Lox

namespace Binary64

/-- How the digits of a number are laid out. -/
structure Layout where
  /-- The fewest digits shown after the point. -/
  fractionDigits : Nat
  /-- The bounds, the lower one included, between which a number is written
  without an exponent; `none` if an exponent is never written. -/
  positional : Option (Decimal × Decimal)

/-- Every place is written out, and no digit that is not needed. -/
def Layout.plain : Layout := ⟨0, none⟩

/-- At least one digit after the point, and an exponent below `10 ^ -4` and from
`10 ^ 16` on. -/
def Layout.general : Layout := ⟨1, some (⟨1, -4⟩, ⟨1, 16⟩)⟩

/-- Whether a magnitude is written with an exponent. Zero never is. -/
def Layout.usesExponent (layout : Layout) (magnitude : Nat) : Bool :=
  match layout.positional with
  | none => false
  | some (least, bound) =>
    magnitude ≠ 0 && (magnitude < magnitudeOf least || magnitudeOf bound ≤ magnitude)

/-- A decimal with every place written out, and at least `fractionDigits` digits
after the point. -/
def positional (fractionDigits : Nat) (d : Decimal) : List Char :=
  let row := Nat.toDigits 10 d.digits ++ List.replicate d.exponent.toNat '0'
  let places := (-d.exponent).toNat
  let padded := List.replicate (places + 1 - row.length) '0' ++ row
  let fraction := padded.drop (padded.length - places)
  Decimal.written (padded.take (padded.length - places))
    (fraction ++ List.replicate (fractionDigits - fraction.length) '0')

/-- A decimal as one digit, the others after the point, and the power of ten
that the first digit counts. -/
def scientific (d : Decimal) : List Char :=
  let row := Nat.toDigits 10 d.digits
  let power := d.exponent + (row.length - 1 : Nat)
  Decimal.written (row.take 1) (row.drop 1) ++
    'e' :: ((if power < 0 then ['-'] else []) ++ Nat.toDigits 10 power.natAbs)

/-- The characters of a magnitude. -/
def magnitudeChars (layout : Layout) (magnitude : Nat) : List Char :=
  if magnitude = infinite then ['i', 'n', 'f']
  else if layout.usesExponent magnitude then scientific (shortest magnitude)
  else positional layout.fractionDigits (shortest magnitude)

/-- The characters of a number. A NaN has no sign; zero and the infinities have
one. -/
def chars (layout : Layout) (x : Binary64) : List Char :=
  if x.isNaN then ['N', 'a', 'N']
  else (if x.negative then ['-'] else []) ++ magnitudeChars layout x.magnitude

/-- A number in the plain layout. -/
def plain (x : Binary64) : String := String.ofList (x.chars .plain)

/-- A number in the general layout. -/
def general (x : Binary64) : String := String.ofList (x.chars .general)

end Binary64

end Lox
