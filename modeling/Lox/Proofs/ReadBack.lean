/-
# Numbers that are read back

A number has two texts. As a literal it is shown in the plain layout, and as the
payload of a token in the general one. The plain layout of a number without a sign is
always a numeral that is read as the number, so what was scanned once can be
written and scanned again any number of times. The general layout is such a numeral
only between its two bounds. Beyond them it has an exponent, and a scan makes the
letter of the exponent a token of its own.

The bounds are powers of ten, and a number is compared with what they are rounded to.
The greater one is a number of the format. The lesser one is not, but it is rounded
up, so the numbers below it are still those that are less than it is.
-/

import Lox.Proofs.Literals
import Lox.Proofs.Plain

namespace Lox

namespace Binary64

/-! ## The bounds of the general layout -/

theorem value_eq_zero_iff {x : Binary64} : x.value = 0 ↔ x.magnitude = 0 := by
  have hsign : (if x.negative then (-1 : ℚ) else 1) ≠ 0 := by split <;> norm_num
  have hsteps : (steps x.magnitude : ℚ) / 2 ^ 1074 = 0 ↔ x.magnitude = 0 := by
    rw [div_eq_zero_iff, or_iff_left (by positivity), Nat.cast_eq_zero, ← steps_zero]
    exact steps_strictMono.injective.eq_iff
  rw [value_eq, mul_eq_zero, or_iff_right hsign, hsteps]

/-- A decimal that is rounded up, or not at all, is above the same numbers as the
number it is rounded to. -/
theorem lt_magnitudeOf_iff {x : Binary64} {d : Decimal} (hpositive : x.negative = false)
    (hbelow : steps (magnitudeOf d - 1) * d.ratio.2 < d.ratio.1 * 2 ^ 1074)
    (habove : d.ratio.1 * 2 ^ 1074 ≤ steps (magnitudeOf d) * d.ratio.2) :
    x.magnitude < magnitudeOf d ↔ x.value < d.value := by
  have hratio : (0 : ℚ) < d.ratio.2 := Nat.cast_pos.mpr d.ratio_snd_pos
  have hvalue : x.value < d.value ↔ steps x.magnitude * d.ratio.2 < d.ratio.1 * 2 ^ 1074 := by
    rw [value_of_positive hpositive, ← d.ratio_eq_value, div_lt_div_iff₀ (by positivity) hratio]
    exact_mod_cast Iff.rfl
  rw [hvalue]
  constructor
  · intro hlt
    have hsteps : steps x.magnitude ≤ steps (magnitudeOf d - 1) :=
      steps_strictMono.monotone (Nat.le_sub_one_of_lt hlt)
    exact (Nat.mul_le_mul_right _ hsteps).trans_lt hbelow
  · intro hlt
    have hsteps := Nat.lt_of_mul_lt_mul_right (hlt.trans_le habove)
    exact steps_strictMono.lt_iff_lt.mp hsteps

theorem lt_least_iff {x : Binary64} (hpositive : x.negative = false) :
    x.magnitude < magnitudeOf ⟨1, -4⟩ ↔ x.value < 1 / 10 ^ 4 := by
  have hleast : (⟨1, -4⟩ : Decimal).value = 1 / 10 ^ 4 := by norm_num [Decimal.value]
  rw [← hleast]
  exact lt_magnitudeOf_iff hpositive (by decide +kernel) (by decide +kernel)

theorem lt_bound_iff {x : Binary64} (hpositive : x.negative = false) :
    x.magnitude < magnitudeOf ⟨1, 16⟩ ↔ x.value < 10 ^ 16 := by
  have hbound : (⟨1, 16⟩ : Decimal).value = 10 ^ 16 := by norm_num [Decimal.value]
  rw [← hbound]
  exact lt_magnitudeOf_iff hpositive (by decide +kernel) (by decide +kernel)

/-- Whether the general layout writes out every place of a number. -/
def IsModerate (x : Binary64) : Prop :=
  x.value = 0 ∨ 1 / 10 ^ 4 ≤ x.value ∧ x.value < 10 ^ 16

theorem not_usesExponent_iff {x : Binary64} (hpositive : x.negative = false) :
    ¬ Layout.general.usesExponent x.magnitude = true ↔ x.IsModerate := by
  rw [IsModerate, value_eq_zero_iff, ← not_lt, ← lt_least_iff hpositive, ← lt_bound_iff hpositive]
  simp [Layout.usesExponent, Layout.general, or_iff_not_imp_left]

theorem IsModerate.isFinite {x : Binary64} (hpositive : x.negative = false)
    (h : x.IsModerate) : x.isFinite = true := by
  apply decide_eq_true
  rcases h with hzero | ⟨-, hlt⟩
  · rw [value_eq_zero_iff.mp hzero]
    decide
  · have hbound : magnitudeOf ⟨1, 16⟩ ≤ infinite := by decide +kernel
    exact ((lt_bound_iff hpositive).mpr hlt).trans_le hbound

/-! ## Numbers with an exponent -/

/-- The letter of an exponent begins a second token, and the end is a third. -/
theorem two_lt_size_of_scientific (dialect : Dialect) (d : Decimal) :
    2 < (scan dialect (String.ofList (scientific d))).tokens.size := by
  obtain ⟨exponent, hexponent⟩ : ∃ exponent, scientific d =
      Decimal.written ((Nat.toDigits 10 d.digits).take 1) ((Nat.toDigits 10 d.digits).drop 1) ++
        'e' :: exponent := ⟨_, rfl⟩
  have hdigits : ∀ c ∈ Nat.toDigits 10 d.digits, c.isDigit = true :=
    fun _ => Nat.isDigit_of_mem_toDigits (by decide) (by decide)
  have hnumber : (Item.number ((Nat.toDigits 10 d.digits).take 1)
      ((Nat.toDigits 10 d.digits).drop 1)).StandsBefore dialect ('e' :: exponent) := by
    refine ⟨⟨?_, fun c hc => hdigits c (List.mem_of_mem_take hc),
      fun c hc => hdigits c (List.mem_of_mem_drop hc)⟩, ?_, nofun⟩
    · simp [List.take_eq_nil_iff]
    · rintro c ⟨⟩
      rfl
  have hletter : Item.next? dialect ('e' :: exponent) =
      some (.word ('e' :: exponent.takeWhile continuesWord), exponent.dropWhile continuesWord) :=
    congrArg some (Item.startingWith_of_startsWord rfl)
  have hitems := items_of_next?_eq_some (Item.next?_chars_append hnumber)
  rw [Item.chars, ← hexponent, items_of_next?_eq_some hletter] at hitems
  rw [← Array.length_toList, toList_tokens_scan, String.toList_ofList, hitems, tokensFrom,
    Item.token?_eq hnumber.wellFormed, tokensFrom]
  have hend (line : Line) (row : List Item) : 0 < (tokensFrom line row).length :=
    List.length_pos_iff.mpr (tokensFrom_ne_nil line row)
  exact Nat.add_lt_add_right (Nat.add_lt_add_right (hend _ _) 1) 1

/-- Infinity is written as a name. -/
theorem tokens_of_infinite (dialect : Dialect) {x : Binary64} (hpositive : x.negative = false)
    (hinfinite : x.magnitude = infinite) :
    (scan dialect x.general).tokens =
      #[⟨.identifier, "inf", none, ⟨1⟩⟩, .eof ⟨1⟩] := by
  have hgeneral : x.general = "inf" := by
    have hnotNaN : ¬ x.isNaN = true := by
      rw [isNaN, hinfinite, decide_eq_true_iff]
      exact Nat.lt_irrefl _
    have hunsigned : ¬ x.negative = true := by simp [hpositive]
    have hchars : x.chars .general = ['i', 'n', 'f'] := by
      rw [chars, if_neg hnotNaN, if_neg hunsigned, List.nil_append, magnitudeChars, if_pos hinfinite]
    exact congrArg String.ofList hchars
  have hword : (Item.word ['i', 'n', 'f']).WellFormed dialect :=
    ⟨rfl, List.all_eq_true.mp rfl⟩
  have hscan := Item.scan_chars hword rfl
  rw [hgeneral]
  exact congrArg Scan.tokens hscan

end Binary64

/-- Whether a text is scanned without a report to the token of the given number, and
the token for the end. -/
def ReadsBack (dialect : Dialect) (text : String) (x : Binary64) : Prop :=
  scan dialect text = ⟨#[⟨.number, text, some (.num x), ⟨1⟩⟩, .eof ⟨1⟩], .empty⟩

namespace Binary64

theorem readsBack_plain (dialect : Dialect) {x : Binary64} (hpositive : x.negative = false)
    (hfinite : x.isFinite = true) : ReadsBack dialect (Value.number x).text x := by
  obtain ⟨numeral, hchars, rfl⟩ := exists_numeral_of_plain hpositive hfinite
  have htext : (Value.number numeral.rounded).text = numeral.text := congrArg String.ofList hchars
  rw [ReadsBack, htext]
  exact numeral.scan_text dialect

theorem readsBack_general (dialect : Dialect) {x : Binary64} (hpositive : x.negative = false)
    (h : x.IsModerate) : ReadsBack dialect (Payload.num x).text x := by
  have hfinite := h.isFinite hpositive
  obtain ⟨numeral, hchars, hrounded⟩ :=
    exists_numeral_of_positional Layout.general.fractionDigits hpositive hfinite
  have hgeneral := chars_of_finite .general hpositive hfinite
  rw [if_neg ((not_usesExponent_iff hpositive).mpr h), hchars] at hgeneral
  have htext : (Payload.num x).text = numeral.text := congrArg String.ofList hgeneral
  rw [ReadsBack, htext, ← hrounded]
  exact numeral.scan_text dialect

/-- What the general layout of a number is scanned to, if it is one number, shows that the
layout has no exponent. -/
theorem isModerate_of_general {dialect : Dialect} {x : Binary64} {token last : Token}
    (hpositive : x.negative = false) (hnotNaN : x.isNaN = false) (hkind : token.kind = .number)
    (hscan : (scan dialect x.general).tokens = #[token, last]) : x.IsModerate := by
  by_cases hinfinite : x.magnitude = infinite
  · rw [tokens_of_infinite dialect hpositive hinfinite] at hscan
    obtain ⟨rfl, -⟩ : _ = token ∧ _ = last := by simpa using hscan
    cases hkind
  · have hfinite : x.isFinite = true :=
      decide_eq_true (Nat.lt_of_le_of_ne (magnitude_le_infinite hnotNaN) hinfinite)
    by_contra hnot
    have hexponent : Layout.general.usesExponent x.magnitude = true :=
      of_not_not fun hplaces => hnot ((not_usesExponent_iff hpositive).mp hplaces)
    have hchars := chars_of_finite .general hpositive hfinite
    rw [if_pos hexponent] at hchars
    have hsize := two_lt_size_of_scientific dialect (shortest x.magnitude)
    rw [← hchars, ← general, hscan] at hsize
    exact Nat.lt_irrefl 2 hsize

end Binary64

/-- **Numbers are read back.** The text of a finite number without a sign is scanned to
that number alone, so a number that was scanned is scanned again from the text of
its literal. The text of its payload is scanned so exactly if the number is zero or
between the bounds of the general layout, and beyond them not to one number in any
other way. -/
theorem scan_numberTexts (dialect : Dialect) :
    (∀ x : Binary64, x.negative = false → x.isFinite = true →
        ReadsBack dialect (Value.number x).text x) ∧
      (∀ source, ∀ token ∈ (scan dialect source).tokens, ∀ x : Binary64,
        token.payload = some (.num x) → x.isFinite = true →
          ∃ value, Value.ofToken? token = some value ∧ ReadsBack dialect value.text x) ∧
      (∀ x : Binary64, x.negative = false → x.isFinite = true →
        (ReadsBack dialect (Payload.num x).text x ↔
          x.value = 0 ∨ 1 / 10 ^ 4 ≤ x.value ∧ x.value < 10 ^ 16)) ∧
      ∀ (x : Binary64) (token last : Token),
        (scan dialect (Payload.num x).text).tokens = #[token, last] → token.kind = .number →
          token.payload = some (.num x) →
            x.value = 0 ∨ 1 / 10 ^ 4 ≤ x.value ∧ x.value < 10 ^ 16 := by
  have honly : ∀ (x : Binary64) (token last : Token),
      (scan dialect (Payload.num x).text).tokens = #[token, last] → token.kind = .number →
        token.payload = some (.num x) → x.IsModerate := by
    intro x token last hscan hkind hpayload
    have hmem : token ∈ (scan dialect (Payload.num x).text).tokens := by simp [hscan]
    obtain ⟨hnotNaN, hpositive⟩ := (isLexed_of_mem_scan hmem).isCoherent.unsigned x hpayload
    exact Binary64.isModerate_of_general hpositive hnotNaN hkind hscan
  refine ⟨?_, ?_, ?_, honly⟩
  · intro x hpositive hfinite
    exact Binary64.readsBack_plain dialect hpositive hfinite
  · intro source token htoken x hpayload hfinite
    have hcoherent := (isLexed_of_mem_scan htoken).isCoherent
    have hkind := hcoherent.number_iff.mpr ⟨x, hpayload⟩
    have hvalue := (hcoherent.denotes_iff _).mpr (.number hkind hpayload)
    exact ⟨.number x, hvalue,
      Binary64.readsBack_plain dialect (hcoherent.unsigned x hpayload).2 hfinite⟩
  · intro x hpositive _
    constructor
    · intro hback
      exact honly x _ _ (congrArg Scan.tokens hback) rfl rfl
    · exact Binary64.readsBack_general dialect hpositive

/-- The number that `10 ^ -4` is rounded to and the one before it, of which only the first
is read back from the text of its payload. -/
theorem scan_numberTexts_least :
    (Payload.num ⟨false, 4547007122018943789, by decide⟩).text = "0.0001" ∧
      ReadsBack ⟨false⟩ "0.0001" ⟨false, 4547007122018943789, by decide⟩ ∧
      (Value.number ⟨false, 4547007122018943788, by decide⟩).text = "0.00009999999999999999" ∧
      ReadsBack ⟨false⟩ "0.00009999999999999999" ⟨false, 4547007122018943788, by decide⟩ ∧
      (Payload.num ⟨false, 4547007122018943788, by decide⟩).text = "9.999999999999999e-5" ∧
      ¬ ReadsBack ⟨false⟩ "9.999999999999999e-5" ⟨false, 4547007122018943788, by decide⟩ := by
  obtain ⟨hplain, -, hgeneral, -⟩ := scan_numberTexts ⟨false⟩
  have hleast : (Payload.num ⟨false, 4547007122018943789, by decide⟩).text = "0.0001" := by
    decide +kernel
  have hbefore : (Value.number ⟨false, 4547007122018943788, by decide⟩).text =
      "0.00009999999999999999" := by decide +kernel
  have hexponent : (Payload.num ⟨false, 4547007122018943788, by decide⟩).text =
      "9.999999999999999e-5" := by decide +kernel
  refine ⟨hleast, ?_, hbefore, ?_, hexponent, ?_⟩
  · rw [← hleast, hgeneral _ rfl (by decide)]
    exact (Binary64.not_usesExponent_iff rfl).mp (by decide +kernel)
  · rw [← hbefore]
    exact hplain _ rfl (by decide)
  · rw [← hexponent, hgeneral _ rfl (by decide)]
    exact mt (Binary64.not_usesExponent_iff rfl).mpr (by decide +kernel)

end Lox
