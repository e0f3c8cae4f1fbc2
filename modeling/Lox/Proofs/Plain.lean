/-
# The plain layout can be read

A number that is finite and has no sign is written in the plain layout as a numeral,
and that numeral is read as the number again. This is `exists_numeral_of_plain`.

Two things come together here. The decimal that is chosen for a number reads back
as the number, because nothing else is ever chosen and because leaving out zeros at
the end of its digits changes no value. And writing out every place of a decimal
makes a numeral that says exactly that decimal. What a decimal reads back as is
decided by its value alone.

So numbers that are written alike are the same. Only NaNs share a text
(`chars_plain_eq_iff`), since the signs and the infinities are written as no numeral is.
-/

import Lox.Numeric.Layout
import Lox.Proofs.Numeral

namespace Lox

namespace Decimal

/-- Zeros at the end of the digits count for nothing. -/
theorem value_trim (d : Decimal) : d.trim.value = d.value := by
  induction d using trim.induct with
  | case1 d hzero =>
      rw [trim, if_pos hzero, value, value, hzero]
      simp
  | case2 d hdigits hzero ih =>
      rw [trim, if_neg hdigits, if_pos hzero, ih, value, value]
      have hten : d.digits = 10 * (d.digits / 10) := by omega
      have hcast : (d.digits : ℚ) = 10 * (d.digits / 10 : ℕ) := by exact_mod_cast hten
      rw [hcast, zpow_add_one₀ (by norm_num)]
      ring
  | case3 d hdigits hzero => rw [trim, if_neg hdigits, if_neg hzero]

/-! ## Every place written out -/

/-- All digits of a decimal down to the last place that counts, and at least one
before the point. -/
def row (d : Decimal) : List Char :=
  let digits := Nat.toDigits 10 d.digits ++ List.replicate d.exponent.toNat '0'
  List.replicate ((-d.exponent).toNat + 1 - digits.length) '0' ++ digits

theorem isDigit_of_mem_row {d : Decimal} {c : Char} (h : c ∈ d.row) : c.isDigit = true := by
  have hzero {n : ℕ} (hc : c ∈ List.replicate n '0') : c.isDigit = true := by
    rw [List.eq_of_mem_replicate hc]
    rfl
  rw [row, List.mem_append, List.mem_append] at h
  rcases h with h | h | h
  · exact hzero h
  · exact Nat.isDigit_of_mem_toDigits (by decide) (by decide) h
  · exact hzero h

theorem ofDigits_row (d : Decimal) : ofDigits d.row = d.digits * 10 ^ d.exponent.toNat := by
  have hrow : ofDigits d.row = Nat.ofDigitChars 10 d.row 0 := rfl
  rw [hrow, row]
  simp only [Nat.ofDigitChars_append, Nat.ofDigitChars_replicate_zero, Nat.mul_zero,
    Nat.ofDigitChars_ten_toDigits]
  exact Nat.mul_comm _ _

theorem lt_length_row (d : Decimal) : (-d.exponent).toNat < d.row.length := by
  rw [row, List.length_append, List.length_replicate]
  omega

/-- The numeral that says a decimal, with every place written out. -/
def numeral (d : Decimal) : Numeral where
  whole := d.row.take (d.row.length - (-d.exponent).toNat)
  fraction := d.row.drop (d.row.length - (-d.exponent).toNat)
  isDigits := by
    have hlength := d.lt_length_row
    refine ⟨List.ne_nil_of_length_pos ?_, fun c hc => isDigit_of_mem_row (List.mem_of_mem_take hc)⟩
    rw [List.length_take]
    omega
  isDigit_of_mem_fraction _ hc := isDigit_of_mem_row (List.mem_of_mem_drop hc)

theorem value_numeral (d : Decimal) : d.numeral.value = d.value := by
  have hlength : d.numeral.fraction.length = (-d.exponent).toNat := by
    have hlt := d.lt_length_row
    rw [numeral, List.length_drop]
    omega
  have hdigits : d.numeral.whole ++ d.numeral.fraction = d.row := List.take_append_drop _ _
  rw [Numeral.value, ← Numeral.value_ofParts, ofParts, hdigits, hlength, ofDigits_row, value,
    value]
  have hexponent : d.exponent = (d.exponent.toNat : ℤ) + -((-d.exponent).toNat : ℤ) := by omega
  conv_rhs => rw [hexponent, zpow_add₀ (by norm_num), zpow_natCast]
  push_cast
  ring

/-- A decimal with every place written out is a numeral that says it, however many
digits are wanted after the point. -/
theorem exists_numeral_of_positional (fractionDigits : ℕ) (d : Decimal) :
    ∃ numeral : Numeral, Binary64.positional fractionDigits d =
      written numeral.whole numeral.fraction ∧ numeral.value = d.value := by
  refine ⟨d.numeral.padded 0 (fractionDigits - d.numeral.fraction.length), rfl, ?_⟩
  rw [Numeral.value_padded, value_numeral]

end Decimal

/-- A numeral begins with a digit. -/
theorem Numeral.exists_cons (numeral : Numeral) :
    ∃ c rest, numeral.text.toList = c :: rest ∧ c.isDigit = true := by
  obtain ⟨c, digits, hwhole⟩ := List.exists_cons_of_ne_nil numeral.isDigits.1
  have hdigit := numeral.isDigits.2 c (by simp [hwhole])
  rw [text, String.toList_ofList, Decimal.written, hwhole]
  split
  · exact ⟨c, digits, rfl, hdigit⟩
  · exact ⟨c, _, rfl, hdigit⟩

namespace Binary64

/-! ## The decimal of a number -/

/-- What a decimal is read as depends on its value alone. -/
theorem ofDecimal_congr {a b : Decimal} (h : a.value = b.value) : ofDecimal a = ofDecimal b := by
  have hrounded := isRounded_ofDecimal a
  rw [h] at hrounded
  exact hrounded.unique (isRounded_ofDecimal b)

theorem ofDecimal_of_magnitudeOf {x : Binary64} {d : Decimal} (hpositive : x.negative = false)
    (h : magnitudeOf d = x.magnitude) : ofDecimal d = x := by
  obtain ⟨negative, magnitude, hlt⟩ := x
  obtain rfl : negative = false := hpositive
  obtain rfl : magnitude = magnitudeOf d := h.symm
  rfl

/-- A power of ten has as many twos as fives. -/
theorem five_pow_mul_ten_zpow (n : ℕ) : (5 : ℚ) ^ n * 10 ^ (-n : ℤ) = 1 / 2 ^ n := by
  have hten : (10 : ℚ) ^ n = 2 ^ n * 5 ^ n := by
    rw [← mul_pow]
    norm_num
  rw [zpow_neg, zpow_natCast, hten]
  field_simp

theorem value_exactDecimal {x : Binary64} (hpositive : x.negative = false) :
    (exactDecimal x.magnitude).value = x.value := by
  have hpowers : (5 : ℚ) ^ 1074 * 10 ^ (-1074 : ℤ) = 1 / 2 ^ 1074 := five_pow_mul_ten_zpow 1074
  rw [value_of_positive hpositive, exactDecimal, Decimal.value]
  simp only [Nat.pow_eq, Nat.cast_mul, Nat.cast_pow, Nat.cast_ofNat, mul_assoc]
  rw [hpowers, mul_one_div]

theorem ofDecimal_exactDecimal {x : Binary64} (hpositive : x.negative = false)
    (hfinite : x.isFinite = true) : ofDecimal (exactDecimal x.magnitude) = x := by
  have hrounded := isRounded_ofDecimal (exactDecimal x.magnitude)
  rw [value_exactDecimal hpositive] at hrounded
  exact hrounded.unique (isRounded_value hpositive hfinite)

theorem magnitudeOf_of_neighbour? {magnitude : ℕ} {place : ℤ} {d : Decimal}
    (h : neighbour? magnitude place = some d) : magnitudeOf d = magnitude := by
  unfold neighbour? at h
  simp only at h
  split at h
  next hlower =>
    cases h
    exact hlower.1
  next =>
    split at h
    next hupper =>
      cases h
      exact hupper
    next => cases h

/-- The decimal that is chosen for a number is read as that number. -/
theorem ofDecimal_shortest {x : Binary64} (hpositive : x.negative = false)
    (hfinite : x.isFinite = true) : ofDecimal (shortest x.magnitude) = x := by
  rw [shortest, ofDecimal_congr (Decimal.value_trim _)]
  cases hfound : (List.range 17).findSome? fun more =>
      neighbour? x.magnitude (leadingPlace x.magnitude - (more : ℕ)) with
  | none => exact ofDecimal_exactDecimal hpositive hfinite
  | some d =>
      obtain ⟨more, -, hneighbour⟩ := List.exists_of_findSome?_eq_some hfound
      exact ofDecimal_of_magnitudeOf hpositive (magnitudeOf_of_neighbour? hneighbour)

/-! ## Numbers in a layout -/

/-- Every place of a number written out is a numeral that is read as the number again. -/
theorem exists_numeral_of_positional (fractionDigits : ℕ) {x : Binary64}
    (hpositive : x.negative = false) (hfinite : x.isFinite = true) :
    ∃ numeral : Numeral, positional fractionDigits (shortest x.magnitude) =
      Decimal.written numeral.whole numeral.fraction ∧ numeral.rounded = x := by
  obtain ⟨numeral, hchars, hvalue⟩ :=
    (shortest x.magnitude).exists_numeral_of_positional fractionDigits
  have hrounded := numeral.isRounded_rounded
  rw [hvalue] at hrounded
  refine ⟨numeral, hchars, ?_⟩
  rw [hrounded.unique (isRounded_ofDecimal _), ofDecimal_shortest hpositive hfinite]

theorem chars_of_finite (layout : Layout) {x : Binary64} (hpositive : x.negative = false)
    (hfinite : x.isFinite = true) :
    x.chars layout = if layout.usesExponent x.magnitude then scientific (shortest x.magnitude)
      else positional layout.fractionDigits (shortest x.magnitude) := by
  have hlt : x.magnitude < infinite := of_decide_eq_true hfinite
  have hnotNaN : ¬ x.isNaN = true := by simpa [isNaN] using hlt.le
  have hunsigned : ¬ x.negative = true := by simp [hpositive]
  rw [chars, if_neg hnotNaN, if_neg hunsigned, List.nil_append, magnitudeChars, if_neg hlt.ne]

/-- **The plain layout is a numeral that is read as the number again.** -/
theorem exists_numeral_of_plain {x : Binary64} (hpositive : x.negative = false)
    (hfinite : x.isFinite = true) :
    ∃ numeral : Numeral, x.chars .plain = Decimal.written numeral.whole numeral.fraction ∧
      numeral.rounded = x := by
  have hplaces : ¬ Layout.plain.usesExponent x.magnitude = true := Bool.false_ne_true
  rw [chars_of_finite .plain hpositive hfinite, if_neg hplaces]
  exact exists_numeral_of_positional 0 hpositive hfinite

/-! ## Texts of numbers -/

/-- Whether two numbers are the same, up to the bits of NaNs. -/
def Same (x y : Binary64) : Prop := x = y ∨ (x.isNaN = true ∧ y.isNaN = true)

/-- A magnitude is written as a numeral that is read as the magnitude, or it is that of the
infinities. -/
theorem magnitudeChars_cases {magnitude : ℕ} (h : magnitude ≤ infinite) :
    (magnitude = infinite ∧ magnitudeChars .plain magnitude = ['i', 'n', 'f']) ∨
      ∃ numeral : Numeral, magnitudeChars .plain magnitude = numeral.text.toList ∧
        numeral.rounded.magnitude = magnitude := by
  by_cases hinfinite : magnitude = infinite
  · exact .inl ⟨hinfinite, if_pos hinfinite⟩
  · right
    have hlt : magnitude < infinite := Nat.lt_of_le_of_ne h hinfinite
    have hbits : infinite < Nat.pow 2 63 := by decide
    obtain ⟨numeral, hchars, hrounded⟩ := exists_numeral_of_plain
      (x := ⟨false, magnitude, hlt.trans hbits⟩) rfl (decide_eq_true hlt)
    have hnotNaN : ¬ infinite < magnitude := h.not_gt
    refine ⟨numeral, ?_, congrArg Binary64.magnitude hrounded⟩
    rw [Numeral.text, String.toList_ofList, ← hchars, chars]
    simp [isNaN, hnotNaN]

/-- A magnitude begins with a digit or a letter. -/
theorem exists_cons_magnitudeChars {magnitude : ℕ} (h : magnitude ≤ infinite) :
    ∃ c rest, magnitudeChars .plain magnitude = c :: rest ∧ (c = 'i' ∨ c.isDigit = true) := by
  rcases magnitudeChars_cases h with ⟨-, hchars⟩ | ⟨numeral, hchars, -⟩
  · exact ⟨'i', _, hchars, .inl rfl⟩
  · obtain ⟨c, rest, htext, hdigit⟩ := numeral.exists_cons
    exact ⟨c, rest, hchars.trans htext, .inr hdigit⟩

theorem magnitudeChars_inj {magnitude other : ℕ} (h : magnitude ≤ infinite)
    (hother : other ≤ infinite)
    (hchars : magnitudeChars .plain magnitude = magnitudeChars .plain other) :
    magnitude = other := by
  have hinf (numeral : Numeral) : numeral.text.toList ≠ ['i', 'n', 'f'] := by
    obtain ⟨c, rest, htext, hdigit⟩ := numeral.exists_cons
    rw [htext]
    rintro ⟨⟩
    cases hdigit
  rcases magnitudeChars_cases h with ⟨hmagnitude, hleft⟩ | ⟨numeral, hleft, hmagnitude⟩
  · rcases magnitudeChars_cases hother with ⟨hmagnitude', -⟩ | ⟨numeral', hright, -⟩
    · exact hmagnitude.trans hmagnitude'.symm
    · exact absurd (hright.symm.trans (hchars.symm.trans hleft)) (hinf numeral')
  · rcases magnitudeChars_cases hother with ⟨-, hright⟩ | ⟨numeral', hright, hmagnitude'⟩
    · exact absurd (hleft.symm.trans (hchars.trans hright)) (hinf numeral)
    · have htext := String.toList_inj.mp (hleft.symm.trans (hchars.trans hright))
      rw [← hmagnitude, ← hmagnitude', Numeral.rounded_eq_of_text_eq htext]

theorem chars_of_not_isNaN {x : Binary64} (h : x.isNaN = false) :
    x.chars .plain = (if x.negative then ['-'] else []) ++ magnitudeChars .plain x.magnitude := by
  rw [chars, h]
  rfl

/-- A number that is not a NaN begins with a digit, a sign or a small letter. -/
theorem exists_cons_chars_of_not_isNaN {x : Binary64} (h : x.isNaN = false) :
    ∃ c rest, x.chars .plain = c :: rest ∧ (c ∈ ['-', 'i'] ∨ c.isDigit = true) := by
  obtain ⟨c, rest, hchars, hc⟩ := exists_cons_magnitudeChars (magnitude_le_infinite h)
  rw [chars_of_not_isNaN h, hchars]
  split
  · exact ⟨'-', c :: rest, rfl, .inl (by decide)⟩
  · refine ⟨c, rest, rfl, hc.imp_left ?_⟩
    rintro rfl
    decide

theorem eq_of_chars_eq {x y : Binary64} (hx : x.isNaN = false) (hy : y.isNaN = false)
    (h : x.chars .plain = y.chars .plain) : x = y := by
  rw [chars_of_not_isNaN hx, chars_of_not_isNaN hy] at h
  have hlex := magnitude_le_infinite hx
  have hley := magnitude_le_infinite hy
  -- A magnitude does not begin with a sign, so the signs are told apart.
  have hsign {z : Binary64} (hz : z.magnitude ≤ infinite) (text : List Char) :
      '-' :: text ≠ magnitudeChars .plain z.magnitude := by
    obtain ⟨c, rest, hchars, hc⟩ := exists_cons_magnitudeChars hz
    rw [hchars]
    rintro ⟨⟩
    rcases hc with hc | hc <;> cases hc
  obtain ⟨negative, magnitude, hlt⟩ := x
  obtain ⟨negative', magnitude', hlt'⟩ := y
  cases negative <;> cases negative'
  · obtain rfl := magnitudeChars_inj hlex hley h
    rfl
  · exact absurd h.symm (hsign hlex _)
  · exact absurd h (hsign hley _)
  · obtain rfl := magnitudeChars_inj hlex hley (List.cons.inj h).2
    rfl

/-- **Numbers are written differently**, up to the bits of NaNs. -/
theorem chars_plain_eq_iff {x y : Binary64} : x.chars .plain = y.chars .plain ↔ x.Same y := by
  have hNaN {z : Binary64} (hz : z.isNaN = true) : z.chars .plain = ['N', 'a', 'N'] := if_pos hz
  have hother {z : Binary64} (hz : z.isNaN = false) : z.chars .plain ≠ ['N', 'a', 'N'] := by
    obtain ⟨c, rest, hchars, hc⟩ := exists_cons_chars_of_not_isNaN hz
    rw [hchars]
    rintro ⟨⟩
    exact absurd hc (by decide)
  constructor
  · intro h
    cases hx : x.isNaN with
    | true =>
        cases hy : y.isNaN with
        | true => exact .inr ⟨hx, hy⟩
        | false => exact absurd (h.symm.trans (hNaN hx)) (hother hy)
    | false =>
        cases hy : y.isNaN with
        | true => exact absurd (h.trans (hNaN hy)) (hother hx)
        | false => exact .inl (eq_of_chars_eq hx hy h)
  · rintro (rfl | ⟨hx, hy⟩)
    · rfl
    · rw [hNaN hx, hNaN hy]

end Binary64

end Lox
