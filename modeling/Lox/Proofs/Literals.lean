/-
# Tokens and the literals they stand for

A token can be put together from any kind and any payload, and the literal of a
token is looked up without asking whether the two belong together. That they do is
a property of scanning: what a scan yields has a text as its payload if it is a
string, a number if it is a number, and none otherwise.

The payload of a string is cut out of its lexeme. The two quotes at its ends are all
that it leaves, and nothing of the text between them is read in any other way, so
every text without a quote is the payload of some string.
-/

import Lox.Proofs.Numeral
import Lox.Value

namespace Lox

/-- The literals that tokens stand for. -/
inductive Denotes (token : Token) : Value → Prop where
  | string {body : String} (kind : token.kind = .string)
      (payload : token.payload = some (.str body)) : Denotes token (.str body)
  | number {x : Binary64} (kind : token.kind = .number)
      (payload : token.payload = some (.num x)) : Denotes token (.number x)
  | trueKw (kind : token.kind = .keyword .trueKw) : Denotes token (.boolean true)
  | falseKw (kind : token.kind = .keyword .falseKw) : Denotes token (.boolean false)
  | nilKw (kind : token.kind = .keyword .nilKw) : Denotes token .nil

/-- Whether a token has the payload that its kind and its lexeme call for, and is
looked up as the literal that it stands for. -/
structure Token.IsCoherent (token : Token) : Prop where
  string_iff : token.kind = .string ↔ ∃ body, token.payload = some (.str body)
  number_iff : token.kind = .number ↔ ∃ x, token.payload = some (.num x)
  none_iff : token.kind ≠ .string ∧ token.kind ≠ .number ↔ token.payload = none
  quoted : ∀ body, token.payload = some (.str body) →
    token.lexeme = "\"" ++ body ++ "\"" ∧ '"' ∉ body.toList
  unsigned : ∀ x, token.payload = some (.num x) → x.isNaN = false ∧ x.negative = false
  isSome_iff : (Value.ofToken? token).isSome = true ↔
    token.kind ∈ [.string, .number, .keyword .trueKw, .keyword .falseKw, .keyword .nilKw]
  denotes_iff : ∀ value, Value.ofToken? token = some value ↔ Denotes token value

/-! ## Looking up a literal -/

/-- A token is looked up as the literal that it stands for. -/
theorem Denotes.ofToken?_eq {token : Token} {value : Value} (h : Denotes token value) :
    Value.ofToken? token = some value := by
  cases h with
  | string hkind hpayload | number hkind hpayload =>
      rw [Value.ofToken?, hkind, hpayload]
      rfl
  | trueKw hkind | falseKw hkind | nilKw hkind => rw [Value.ofToken?, hkind]

/-- A token whose kind and payload belong together is looked up as nothing else. -/
theorem denotes_of_ofToken? {token : Token} {value : Value}
    (hstring : token.kind = .string → ∃ body, token.payload = some (.str body))
    (hnumber : token.kind = .number → ∃ x, token.payload = some (.num x))
    (h : Value.ofToken? token = some value) : Denotes token value := by
  unfold Value.ofToken? at h
  split at h
  next hkind =>
    obtain ⟨x, hpayload⟩ := hnumber hkind
    rw [hpayload] at h
    cases h
    exact .number hkind hpayload
  next hkind =>
    obtain ⟨body, hpayload⟩ := hstring hkind
    rw [hpayload] at h
    cases h
    exact .string hkind hpayload
  next hkind =>
    cases h
    exact .trueKw hkind
  next hkind =>
    cases h
    exact .falseKw hkind
  next hkind =>
    cases h
    exact .nilKw hkind
  next => cases h

/-- What a scan yields is coherent. -/
theorem IsLexed.isCoherent {dialect : Dialect} {token : Token} (h : IsLexed dialect token) :
    token.IsCoherent := by
  have hstring : token.kind = .string ↔ ∃ body, token.payload = some (.str body) := by
    rcases h.payload_cases with ⟨hkind, body, -, -, hpayload⟩ | ⟨hkind, numeral, -, hpayload⟩ |
      ⟨hkind, -, hpayload⟩ <;> simp [hkind, hpayload]
  have hnumber : token.kind = .number ↔ ∃ x, token.payload = some (.num x) := by
    rcases h.payload_cases with ⟨hkind, body, -, -, hpayload⟩ | ⟨hkind, numeral, -, hpayload⟩ |
      ⟨-, hkind, hpayload⟩ <;> simp [hkind, hpayload]
  have hdenotes (value : Value) : Value.ofToken? token = some value ↔ Denotes token value :=
    ⟨denotes_of_ofToken? hstring.mp hnumber.mp, Denotes.ofToken?_eq⟩
  refine ⟨hstring, hnumber, ?_, ?_, ?_, ?_, hdenotes⟩
  · rcases h.payload_cases with ⟨hkind, body, -, -, hpayload⟩ | ⟨hkind, numeral, -, hpayload⟩ |
      ⟨hkind, hkind', hpayload⟩ <;> simp_all
  · intro body hpayload
    rcases h.payload_cases with ⟨-, text, hquote, hlexeme, htext⟩ | ⟨-, numeral, -, hnumeral⟩ |
      ⟨-, -, hnone⟩
    · rw [htext, Option.some.injEq, Payload.str.injEq] at hpayload
      exact hpayload ▸ ⟨hlexeme, hquote⟩
    · cases hnumeral.symm.trans hpayload
    · cases hnone.symm.trans hpayload
  · intro x hpayload
    obtain ⟨numeral, -, hnumeral⟩ := h.exists_numeral (hnumber.mpr ⟨x, hpayload⟩)
    obtain rfl : numeral.rounded = x := by simpa using hnumeral.symm.trans hpayload
    exact ⟨numeral.isRounded_rounded.notNaN, numeral.isRounded_rounded.positive⟩
  · rw [Option.isSome_iff_exists]
    simp only [hdenotes]
    constructor
    · rintro ⟨value, hvalue⟩
      cases hvalue <;> simp [*]
    · intro hkind
      simp only [List.mem_cons, List.not_mem_nil, or_false] at hkind
      rcases hkind with hkind | hkind | hkind | hkind | hkind
      · obtain ⟨body, hpayload⟩ := hstring.mp hkind
        exact ⟨_, .string hkind hpayload⟩
      · obtain ⟨x, hpayload⟩ := hnumber.mp hkind
        exact ⟨_, .number hkind hpayload⟩
      · exact ⟨_, .trueKw hkind⟩
      · exact ⟨_, .falseKw hkind⟩
      · exact ⟨_, .nilKw hkind⟩

/-- **Kinds and payloads of scanned tokens belong together.** Each token of a scan has
the payload and the literal of its kind, and each text without a quote is, between
two quotes, scanned to one string with that payload. -/
theorem scan_literals (dialect : Dialect) :
    (∀ source, ∀ token ∈ (scan dialect source).tokens, token.IsCoherent) ∧
      ∀ body : String, '"' ∉ body.toList → scan dialect ("\"" ++ body ++ "\"") =
        ⟨#[⟨.string, "\"" ++ body ++ "\"", some (.str body), ⟨1⟩⟩,
          .eof ⟨1 + body.toList.count '\n'⟩], .empty⟩ := by
  constructor
  · intro source token htoken
    exact (isLexed_of_mem_scan htoken).isCoherent
  · intro body hbody
    have hwf : (Item.string body.toList).WellFormed dialect := hbody
    have hscan := Item.scan_chars hwf rfl
    have htext : String.ofList (Item.string body.toList).chars = "\"" ++ body ++ "\"" := by
      apply String.toList_inj.mp
      simp [Item.chars]
    have hline : Line.first.after (Item.string body.toList).chars =
        ⟨1 + body.toList.count '\n'⟩ := by
      simp [Line.after, Line.plus, Line.breaks, Line.first, Item.chars]
    rw [htext, hline, Item.payload?, String.ofList_toList] at hscan
    exact hscan

/-- A quoted text of two lines with characters of several bytes, a comment and a number
in it, and behind it what stands for a literal and what does not. -/
example : (scan ⟨false⟩ "\"// é\n1\" nil 0.5 nill").tokens.toList.map Value.ofToken? =
    [some (.str "// é\n1"), some .nil, some (.number ⟨false, 1022 * 2 ^ 52, by decide⟩), none,
      none] := by
  decide +kernel

end Lox
