/-
# The numbers that numerals say

A numeral is a row of digits, with a point and more digits or without. It may have
any length, and what it says is an exact rational number. The token for a numeral
carries the number of the format that this one is rounded to, and is not influenced
by anything else: neither by the text around the numeral nor by the zeros that it
is written with.

Rounding depends on the rational number alone and keeps its order, so a scan reads
no numeral as a lesser number than one that says less.
-/

import Lox.Proofs.Listing
import Lox.Proofs.MaximalMunch
import Lox.Proofs.Rounding

namespace Lox

/-- The lexeme of a number. The point is written only if digits follow it. -/
structure Numeral where
  /-- The digits before the point. -/
  whole : List Char
  /-- The digits behind the point. -/
  fraction : List Char
  isDigits : IsDigits whole
  isDigit_of_mem_fraction : ∀ c ∈ fraction, c.isDigit = true

namespace Numeral

/-- A numeral as text. -/
def text (numeral : Numeral) : String :=
  String.ofList (Decimal.written numeral.whole numeral.fraction)

/-- The rational number that a numeral says. -/
def value (numeral : Numeral) : ℚ :=
  Nat.ofDigitChars 10 numeral.whole 0 +
    Nat.ofDigitChars 10 numeral.fraction 0 / 10 ^ numeral.fraction.length

/-- A numeral with more zeros before it and behind its fraction. -/
def padded (leading trailing : ℕ) (numeral : Numeral) : Numeral where
  whole := List.replicate leading '0' ++ numeral.whole
  fraction := numeral.fraction ++ List.replicate trailing '0'
  isDigits := by
    refine ⟨List.append_ne_nil_of_right_ne_nil _ numeral.isDigits.1, ?_⟩
    intro c hc
    rcases List.mem_append.mp hc with hzero | hdigit
    · rw [List.eq_of_mem_replicate hzero]
      rfl
    · exact numeral.isDigits.2 c hdigit
  isDigit_of_mem_fraction := by
    intro c hc
    rcases List.mem_append.mp hc with hdigit | hzero
    · exact numeral.isDigit_of_mem_fraction c hdigit
    · rw [List.eq_of_mem_replicate hzero]
      rfl

/-- Whether a scan of some text reads a numeral as the given number. -/
def IsReadAs (numeral : Numeral) (x : Binary64) : Prop :=
  ∃ dialect source, ∃ token ∈ (scan dialect source).tokens,
    token.kind = .number ∧ token.lexeme = numeral.text ∧ token.payload = some (.num x)

/-! ## What numerals say -/

/-- The decimal that is read from the digits of a numeral is what the numeral says. -/
theorem value_ofParts (whole fraction : List Char) :
    (Decimal.ofParts whole fraction).value = Nat.ofDigitChars 10 whole 0 +
      Nat.ofDigitChars 10 fraction 0 / 10 ^ fraction.length := by
  have hdigits : Decimal.ofDigits (whole ++ fraction) =
      10 ^ fraction.length * Nat.ofDigitChars 10 whole 0 + Nat.ofDigitChars 10 fraction 0 := by
    rw [← Nat.ofDigitChars_eq_ofDigitChars_zero, ← Nat.ofDigitChars_append]
    rfl
  have hpos : (10 : ℚ) ^ fraction.length ≠ 0 := by positivity
  rw [Decimal.ofParts, Decimal.value, hdigits, zpow_neg, zpow_natCast]
  push_cast
  field_simp

theorem value_padded (leading trailing : ℕ) (numeral : Numeral) :
    (numeral.padded leading trailing).value = numeral.value := by
  have hzeros : (10 : ℚ) ^ trailing ≠ 0 := by positivity
  simp only [value, padded, Nat.ofDigitChars_append, Nat.ofDigitChars_replicate_zero,
    Nat.mul_zero, List.length_append, List.length_replicate, pow_add]
  push_cast
  rw [mul_comm ((10 : ℚ) ^ trailing), mul_div_mul_right _ _ hzeros]

/-! ## How numerals are read -/

/-- A numeral as an item. -/
def item (numeral : Numeral) : Item := .number numeral.whole numeral.fraction

theorem wellFormed_item (dialect : Dialect) (numeral : Numeral) :
    numeral.item.WellFormed dialect :=
  ⟨numeral.isDigits.1, numeral.isDigits.2, numeral.isDigit_of_mem_fraction⟩

/-- The number that a numeral is read as. -/
def rounded (numeral : Numeral) : Binary64 := .ofDecimal (.ofParts numeral.whole numeral.fraction)

theorem isRounded_rounded (numeral : Numeral) : numeral.rounded.IsRounded numeral.value := by
  have hrounded := Binary64.isRounded_ofDecimal (.ofParts numeral.whole numeral.fraction)
  rwa [value_ofParts] at hrounded

/-- The characters of a numeral say what it is read as. -/
theorem rounded_eq_of_text_eq {numeral other : Numeral} (h : numeral.text = other.text) :
    numeral.rounded = other.rounded := by
  have hchars : numeral.item.chars = other.item.chars := String.ofList_inj.mp h
  have hitem := Item.eq_of_chars_eq (numeral.wellFormed_item ⟨false⟩)
    (other.wellFormed_item ⟨false⟩) hchars
  rw [rounded, rounded, (Item.number.inj hitem).1, (Item.number.inj hitem).2]

theorem newline_not_mem (numeral : Numeral) :
    '\n' ∉ Decimal.written numeral.whole numeral.fraction := by
  intro hmem
  rcases Item.newline_mem_cases (numeral.wellFormed_item ⟨false⟩) hmem with h | ⟨_, h⟩ | ⟨_, h⟩ <;>
    cases h

/-- A numeral by itself is scanned to one token. -/
theorem scan_text (dialect : Dialect) (numeral : Numeral) :
    scan dialect numeral.text =
      ⟨#[⟨.number, numeral.text, some (.num numeral.rounded), ⟨1⟩⟩, .eof ⟨1⟩], .empty⟩ := by
  have hscan := Item.scan_chars (numeral.wellFormed_item dialect) rfl
  have hline : Line.first.after numeral.item.chars = ⟨1⟩ := by
    have hcount : numeral.item.chars.count '\n' = 0 :=
      List.count_eq_zero.mpr numeral.newline_not_mem
    rw [Line.after, Line.breaks, hcount]
    rfl
  rw [hline] at hscan
  exact hscan

end Numeral

/-! ## Tokens with a payload -/

/-- A token is that of a string, that of a numeral, or one that has no payload. -/
theorem IsLexed.payload_cases {dialect : Dialect} {token : Token} (h : IsLexed dialect token) :
    (token.kind = .string ∧ ∃ body : String, '"' ∉ body.toList ∧
        token.lexeme = "\"" ++ body ++ "\"" ∧ token.payload = some (.str body)) ∨
      (token.kind = .number ∧ ∃ numeral : Numeral, token.lexeme = numeral.text ∧
        token.payload = some (.num numeral.rounded)) ∨
      (token.kind ≠ .string ∧ token.kind ≠ .number ∧ token.payload = none) := by
  cases h with
  | eof line => simp [Token.eof]
  | @item item kind hitem hkind line =>
      cases item with
      | string body =>
          obtain rfl : Kind.string = kind := Option.some.inj hkind
          refine .inl ⟨rfl, String.ofList body, ?_, ?_, rfl⟩
          · rwa [String.toList_ofList]
          · apply String.toList_inj.mp
            simp [Item.chars]
      | number whole fraction =>
          obtain rfl : Kind.number = kind := Option.some.inj hkind
          exact .inr (.inl ⟨rfl, ⟨whole, fraction, ⟨hitem.1, hitem.2.1⟩, hitem.2.2⟩, rfl, rfl⟩)
      | word letters =>
          obtain rfl := Option.some.inj hkind
          right
          right
          cases Keyword.ofText? (String.ofList letters) <;> simp [Item.payload?]
      | symbol which =>
          obtain rfl : Kind.symbol which = kind := Option.some.inj hkind
          simp [Item.payload?]
      | blank c | comment body | unterminated body | illegal c => cases hkind

/-- The tokens of numbers are those of numerals. -/
theorem IsLexed.exists_numeral {dialect : Dialect} {token : Token} (h : IsLexed dialect token)
    (hkind : token.kind = .number) :
    ∃ numeral : Numeral, token.lexeme = numeral.text ∧
      token.payload = some (.num numeral.rounded) := by
  rcases h.payload_cases with ⟨hstring, -⟩ | ⟨-, hnumeral⟩ | ⟨-, hother, -⟩
  · cases hstring.symm.trans hkind
  · exact hnumeral
  · exact absurd hkind hother

/-- A numeral is read as one number, wherever it stands. -/
theorem Numeral.isReadAs_iff {numeral : Numeral} {x : Binary64} :
    numeral.IsReadAs x ↔ x = numeral.rounded := by
  constructor
  · rintro ⟨dialect, source, token, htoken, hkind, hlexeme, hpayload⟩
    obtain ⟨other, hother, hrounded⟩ := (isLexed_of_mem_scan htoken).exists_numeral hkind
    rw [hrounded, Option.some.injEq, Payload.num.injEq] at hpayload
    rw [← hpayload, rounded_eq_of_text_eq (hlexeme.symm.trans hother)]
  · rintro rfl
    refine ⟨⟨false⟩, numeral.text, ⟨.number, numeral.text, some (.num numeral.rounded), ⟨1⟩⟩, ?_,
      rfl, rfl, rfl⟩
    rw [scan_text]
    exact Array.mem_of_getElem? (i := 0) rfl

/-- **Numbers are rounded correctly.** The tokens of numbers are those of numerals,
each numeral is one, and it is read as what it says, rounded. Zeros around a numeral
change nothing, and a numeral that says no less than another is read as no less. -/
theorem scan_numerals :
    (∀ dialect source, ∀ token ∈ (scan dialect source).tokens, token.kind = .number →
      ∃ (numeral : Numeral) (x : Binary64), token.lexeme = numeral.text ∧
        token.payload = some (.num x)) ∧
      (∀ (dialect : Dialect) (numeral : Numeral), ∃ x, scan dialect numeral.text =
        ⟨#[⟨.number, numeral.text, some (.num x), ⟨1⟩⟩, .eof ⟨1⟩], .empty⟩) ∧
      (∀ (numeral : Numeral) (x : Binary64), numeral.IsReadAs x → x.IsRounded numeral.value) ∧
      (∀ (numeral : Numeral) (leading trailing : ℕ) (x : Binary64),
        (numeral.padded leading trailing).IsReadAs x ↔ numeral.IsReadAs x) ∧
      ∀ (numeral other : Numeral) (x y : Binary64), numeral.IsReadAs x → other.IsReadAs y →
        numeral.value ≤ other.value → x.extended ≤ y.extended := by
  refine ⟨?_, ?_, ?_, ?_, ?_⟩
  · intro dialect source token htoken hkind
    obtain ⟨numeral, hlexeme, hpayload⟩ := (isLexed_of_mem_scan htoken).exists_numeral hkind
    exact ⟨numeral, numeral.rounded, hlexeme, hpayload⟩
  · intro dialect numeral
    exact ⟨numeral.rounded, numeral.scan_text dialect⟩
  · intro numeral x hread
    rw [Numeral.isReadAs_iff.mp hread]
    exact numeral.isRounded_rounded
  · intro numeral leading trailing x
    have hpadded := (numeral.padded leading trailing).isRounded_rounded
    rw [numeral.value_padded] at hpadded
    rw [Numeral.isReadAs_iff, Numeral.isReadAs_iff, hpadded.unique numeral.isRounded_rounded]
  · intro numeral other x y hx hy hle
    rw [Numeral.isReadAs_iff.mp hx, Numeral.isReadAs_iff.mp hy]
    exact numeral.isRounded_rounded.extended_le other.isRounded_rounded hle

end Lox
