/-
# Likeness of words

When a word is not known, a known word that is much like it may be offered in
its place. Likeness has three parts: the characters that the two words share at
nearly the same position, as a part of the one word and of the other, and as
many of those as stand in the same order, as a part of those. Two words are
alike when the mean of the three parts is above seven tenths.

Every quotient and every sum on the way is rounded to binary floating point, and
so are the seven tenths. A mean of exactly seven tenths may therefore come out
above them.
-/

import Lox.Numeric.Binary64

namespace Lox

namespace Text

/-- Pairs off the characters of one word, from left to right, with equal
characters of another at a distance of at most `reach`. Yields the characters
that found a partner, and the places of the other word that remain. -/
def pairOff (reach : Nat) : Nat → List Char → List (Char × Nat) → List Char × List (Char × Nat)
  | _, [], free => ([], free)
  | place, c :: word, free =>
    match free.find? fun (d, other) => d == c && place ≤ other + reach && other ≤ place + reach with
    | none => pairOff reach (place + 1) word free
    | some partner =>
      let (paired, left) := pairOff reach (place + 1) word (free.erase partner)
      (c :: paired, left)

/-- The likeness of two words, as a magnitude: zero if they share no character,
and otherwise the mean of the three parts. -/
def likeness (a b : List Char) : Nat :=
  let reach := max a.length b.length / 2 - 1
  let (paired, free) := pairOff reach 0 a b.zipIdx
  let partners := (b.zipIdx.filter fun entry => !free.contains entry).map Prod.fst
  let shared := paired.length
  let swapped := ((paired.zip partners).countP fun (c, d) => c != d) / 2
  if shared = 0 then 0
  else
    let shares :=
      Binary64.sum (Binary64.quotient shared a.length) (Binary64.quotient shared b.length)
    Binary64.part (Binary64.sum shares (Binary64.quotient (shared - swapped) shared)) 3

/-- Whether two words are alike: whether their likeness is above seven tenths. -/
def alike (a b : List Char) : Bool := Binary64.quotient 7 10 < likeness a b

end Text

end Lox
