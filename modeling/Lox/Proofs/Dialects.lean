/-
# The conditional operator as an extension

The dialect with the conditional operator reads two more characters than the other.
They stand alone: neither begins or ends a longer item, and no other item looks at
what they are. So both dialects cut a text at the same places, and an item of the
one is the same item of the other unless it is a question mark or a colon, which is
a symbol in the one and an illegal character in the other.

Without the operator a scan has the same tokens except for those two, and a report
more for each of them. In which order the reports come needs no second look at the
text: reports of unexpected characters differ in their lines only, and the lines of
a scan never decrease.
-/

import Lox.Proofs.Lines

namespace Lox

/-- Whether a token is one that only the conditional operator has. -/
def Token.isConditional (token : Token) : Bool :=
  token.kind == .symbol .question || token.kind == .symbol .colon

/-- The report about the character of a token that a dialect does not have. -/
def Token.unexpected (token : Token) : Diagnostic := ⟨token.line, "Unexpected character."⟩

/-- Whether a report is about no later line than another. -/
def Diagnostic.notAfter (a b : Diagnostic) : Bool := a.line.number ≤ b.line.number

/-! ## Items of both dialects -/

namespace Item

/-- An item as the dialect without the conditional operator reads it. -/
def withoutConditional : Item → Item
  | symbol .question => illegal '?'
  | symbol .colon => illegal ':'
  | item => item

theorem chars_withoutConditional (item : Item) : item.withoutConditional.chars = item.chars := by
  cases item with
  | symbol which => cases which <;> rfl
  | _ => rfl

theorem wellFormed_withoutConditional {item : Item} (h : item.WellFormed ⟨true⟩) :
    item.withoutConditional.WellFormed ⟨false⟩ := by
  cases item with
  | symbol which =>
      cases which with
      | question => exact ⟨Symbol.isMark_of_mem_head? .question rfl, rfl⟩
      | colon => exact ⟨Symbol.isMark_of_mem_head? .colon rfl, rfl⟩
      | _ => rfl
  | illegal c =>
      obtain ⟨hmark, hnone⟩ := h
      refine ⟨hmark, ?_⟩
      cases hfound : Symbol.ofChar? ⟨false⟩ c with
      | none => rfl
      | some which =>
          obtain ⟨hchars, hin⟩ := Symbol.ofChar?_eq_some_iff.mp hfound
          have hlarger : which.isIn ⟨true⟩ = true := by cases which <;> rfl
          rw [Symbol.ofChar?_eq_some_iff.mpr ⟨hchars, hlarger⟩] at hnone
          cases hnone
  | word letters => cases letters <;> exact h
  | _ => exact h

theorem endsBefore_withoutConditional {item : Item} {rest : List Char} (h : item.EndsBefore rest) :
    item.withoutConditional.EndsBefore rest := by
  cases item with
  | symbol which =>
      cases which with
      | question | colon => trivial
      | _ => exact h
  | _ => exact h

theorem withoutConditional_cases (item : Item) :
    item.withoutConditional = item ∨ item = symbol .question ∨ item = symbol .colon := by
  cases item with
  | symbol which =>
      cases which with
      | question => exact .inr (.inl rfl)
      | colon => exact .inr (.inr rfl)
      | _ => exact .inl rfl
  | _ => exact .inl rfl

/-- No other item has a token that is conditional. -/
theorem isConditional_eq_false {item : Item} (h : item.withoutConditional = item) {line : Line}
    {token : Token} (htoken : item.token? line = some token) : token.isConditional = false := by
  cases item with
  | symbol which =>
      cases htoken
      cases which with
      | question | colon => cases h
      | _ => rfl
  | number whole fraction =>
      obtain ⟨value, -, rfl⟩ := Option.map_eq_some_iff.mp htoken
      rfl
  | word letters =>
      cases htoken
      cases Keyword.ofText? (String.ofList (word letters).chars) <;> rfl
  | string body =>
      cases htoken
      rfl
  | blank c | comment body | unterminated body | illegal c => cases htoken

/-! ### What an item yields in either dialect -/

section Yield

variable (item : Item) (line : Line)

/-- Without the conditional operator an item keeps its token, unless the token is
one of the two. -/
theorem token?_withoutConditional :
    item.withoutConditional.token? line = (item.token? line).filter (!·.isConditional) := by
  rcases item.withoutConditional_cases with hsame | rfl | rfl
  · rw [hsame]
    cases htoken : item.token? line with
    | none => rfl
    | some token =>
        rw [Option.filter_some_pos]
        rw [isConditional_eq_false hsame htoken, Bool.not_false]
  · rfl
  · rfl

/-- Besides the characters that no dialect has, those of the two tokens are reported. -/
theorem unexpected_withoutConditional :
    (item.withoutConditional.diagnostic? line).toList.filter Diagnostic.isUnexpected =
      (item.diagnostic? line).toList.filter Diagnostic.isUnexpected ++
        ((item.token? line).toList.filter Token.isConditional).map Token.unexpected := by
  rcases item.withoutConditional_cases with hsame | rfl | rfl
  · have hnone : (item.token? line).toList.filter Token.isConditional = [] := by
      apply List.filter_eq_nil_iff.mpr
      intro token htoken
      rw [isConditional_eq_false hsame (Option.mem_toList.mp htoken)]
      exact Bool.false_ne_true
    rw [hsame, hnone, List.map_nil, List.append_nil]
  · rfl
  · rfl

theorem unterminated_withoutConditional :
    (item.withoutConditional.diagnostic? line).filter Diagnostic.isUnterminated =
      (item.diagnostic? line).filter Diagnostic.isUnterminated := by
  rcases item.withoutConditional_cases with hsame | rfl | rfl
  · rw [hsame]
  · rfl
  · rfl

end Yield

end Item

theorem flatMap_chars_map_withoutConditional (row : List Item) :
    (row.map Item.withoutConditional).flatMap Item.chars = row.flatMap Item.chars := by
  simp only [List.flatMap_map, Item.chars_withoutConditional]

/-- Both dialects cut a text at the same places. -/
theorem isCut_map_withoutConditional {row : List Item} (h : IsCut ⟨true⟩ row) :
    IsCut ⟨false⟩ (row.map Item.withoutConditional) := by
  induction row with
  | nil => trivial
  | cons item row ih =>
      obtain ⟨hstands, hrow⟩ := h
      refine ⟨⟨Item.wellFormed_withoutConditional hstands.wellFormed, ?_⟩, ih hrow⟩
      rw [flatMap_chars_map_withoutConditional]
      exact Item.endsBefore_withoutConditional hstands.endsBefore

theorem items_withoutConditional (source : List Char) :
    items ⟨false⟩ source = (items ⟨true⟩ source).map Item.withoutConditional := by
  apply items_eq_iff.mpr
  refine ⟨?_, isCut_map_withoutConditional (isCut_items ⟨true⟩ source)⟩
  rw [flatMap_chars_map_withoutConditional, flatMap_chars_items]

/-! ## Rows of both dialects -/

section Rows

variable (line : Line) (row : List Item)

theorem tokensFrom_withoutConditional :
    tokensFrom line (row.map Item.withoutConditional) =
      (tokensFrom line row).filter (!·.isConditional) := by
  rw [tokensFrom_eq_along, tokensFrom_eq_along, along_map Item.chars_withoutConditional,
    flatMap_chars_map_withoutConditional, List.filter_append, filter_along]
  simp only [Item.token?_withoutConditional]
  rfl

theorem unterminated_map_withoutConditional :
    (diagnosticsFrom line (row.map Item.withoutConditional)).filter Diagnostic.isUnterminated =
      (diagnosticsFrom line row).filter Diagnostic.isUnterminated := by
  rw [diagnosticsFrom_eq_along, diagnosticsFrom_eq_along, filter_along, filter_along,
    along_map Item.chars_withoutConditional]
  simp only [Item.unterminated_withoutConditional]

/-- Up to their order, the unexpected characters are those of the other dialect and
those of the two tokens. -/
theorem perm_unexpected_withoutConditional :
    ((diagnosticsFrom line (row.map Item.withoutConditional)).filter
        Diagnostic.isUnexpected).Perm
      ((diagnosticsFrom line row).filter Diagnostic.isUnexpected ++
        ((tokensFrom line row).filter Token.isConditional).map Token.unexpected) := by
  induction row generalizing line with
  | nil => exact .refl _
  | cons item row ih =>
      rw [List.map_cons, diagnosticsFrom, List.filter_append, item.unexpected_withoutConditional,
        item.chars_withoutConditional, diagnosticsFrom, List.filter_append, tokensFrom,
        List.filter_append, List.map_append, List.append_assoc, List.append_assoc]
      apply List.Perm.append_left
      exact ((ih _).append_left _).trans (List.perm_append_comm_assoc _ _ _)

end Rows

/-! ## Lists of reports -/

namespace Diagnostic

theorem pairwise_notAfter {reports : List Diagnostic}
    (h : reports.Pairwise fun a b => a.line.number ≤ b.line.number) :
    reports.Pairwise fun a b => a.notAfter b = true :=
  h.imp decide_eq_true

theorem notAfter_trans (a b c : Diagnostic) (hab : a.notAfter b = true)
    (hbc : b.notAfter c = true) : a.notAfter c = true :=
  decide_eq_true (Nat.le_trans (of_decide_eq_true hab) (of_decide_eq_true hbc))

theorem notAfter_total (a b : Diagnostic) : (a.notAfter b || b.notAfter a) = true := by
  simp only [notAfter, Bool.or_eq_true, decide_eq_true_eq]
  exact Nat.le_total _ _

/-- Two reports of characters on one line are the same. -/
theorem notAfter_antisymm {a b : Diagnostic} (ha : a.isUnexpected = true)
    (hb : b.isUnexpected = true) (hab : a.notAfter b = true) (hba : b.notAfter a = true) :
    a = b := by
  obtain ⟨⟨m⟩, first⟩ := a
  obtain ⟨⟨n⟩, second⟩ := b
  obtain rfl : first = "Unexpected character." := eq_of_beq ha
  obtain rfl : second = "Unexpected character." := eq_of_beq hb
  obtain rfl : m = n := Nat.le_antisymm (of_decide_eq_true hab) (of_decide_eq_true hba)
  rfl

/-- Reports of characters, in the order of their lines, are the merge of any two lists
that are in that order and together hold the same reports. -/
theorem eq_merge_of_perm {reports first second : List Diagnostic}
    (hunexpected : ∀ report ∈ reports, report.isUnexpected = true)
    (hreports : reports.Pairwise fun a b => a.notAfter b = true)
    (hfirst : first.Pairwise fun a b => a.notAfter b = true)
    (hsecond : second.Pairwise fun a b => a.notAfter b = true)
    (h : reports.Perm (first ++ second)) : reports = first.merge second notAfter := by
  have hperm : reports.Perm (first.merge second notAfter) :=
    h.trans (List.merge_perm_append notAfter).symm
  refine List.Perm.eq_of_pairwise ?_ hreports
    (List.pairwise_merge notAfter_trans notAfter_total _ _ hfirst hsecond) hperm
  intro a b ha hb
  exact notAfter_antisymm (hunexpected a ha) (hunexpected b (hperm.mem_iff.mpr hb))

end Diagnostic

/-- The reports of a row are those of characters, and behind them the one of a
missing quote. -/
theorem diagnosticsFrom_eq_filter_append {dialect : Dialect} {row : List Item}
    (h : IsCut dialect row) (line : Line) :
    diagnosticsFrom line row = (diagnosticsFrom line row).filter Diagnostic.isUnexpected ++
      ((diagnosticsFrom line row).find? Diagnostic.isUnterminated).toList := by
  obtain ⟨unexpected, hplaces, hreports⟩ := exists_unexpected_of_isCut h line
  have hkept : unexpected.filter Diagnostic.isUnexpected = unexpected := by
    apply List.filter_eq_self.mpr
    intro report hreport
    exact beq_iff_eq.mpr (hplaces report hreport).message
  have hpassed : unexpected.find? Diagnostic.isUnterminated = none := by
    apply List.find?_eq_none.mpr
    intro report hreport
    rw [Diagnostic.isUnterminated, (hplaces report hreport).message]
    decide
  rcases hreports with hall | hall
  · rw [hall, hkept, hpassed, Option.toList_none, List.append_nil]
  · rw [hall, List.filter_append, hkept, List.find?_append, hpassed, List.append_assoc]
    rfl

/-- **The conditional operator as an extension.** Without the operator a scan has
the tokens that it has with it, save for the question marks and the colons. It
reports the characters that are reported with it and, merged by their lines, one for
each token left out, and behind them the same missing quote if there is one. -/
theorem scan_withoutConditional (source : String) :
    (scan ⟨false⟩ source).tokens.toList =
        (scan ⟨true⟩ source).tokens.toList.filter (!·.isConditional) ∧
      (scan ⟨false⟩ source).state.entries.toList =
        List.merge ((scan ⟨true⟩ source).state.entries.toList.filter Diagnostic.isUnexpected)
            (((scan ⟨true⟩ source).tokens.toList.filter Token.isConditional).map Token.unexpected)
            Diagnostic.notAfter ++
          ((scan ⟨true⟩ source).state.entries.toList.find? Diagnostic.isUnterminated).toList := by
  simp only [toList_tokens_scan, toList_entries_scan, items_withoutConditional]
  have hcut := isCut_items ⟨true⟩ source.toList
  generalize items ⟨true⟩ source.toList = row at hcut
  refine ⟨tokensFrom_withoutConditional .first row, ?_⟩
  have hunterminated :
      (diagnosticsFrom .first (row.map Item.withoutConditional)).find? Diagnostic.isUnterminated =
        (diagnosticsFrom .first row).find? Diagnostic.isUnterminated := by
    rw [← List.head?_filter, unterminated_map_withoutConditional, List.head?_filter]
  have hmerged := Diagnostic.eq_merge_of_perm (fun _ hreport => (List.mem_filter.mp hreport).2)
    (Diagnostic.pairwise_notAfter
      ((lines_diagnosticsFrom .first (row.map Item.withoutConditional)).1.filter _))
    (Diagnostic.pairwise_notAfter ((lines_diagnosticsFrom .first row).1.filter _))
    (Diagnostic.pairwise_notAfter
      (List.pairwise_map.mpr ((lines_tokensFrom .first row).1.filter _)))
    (perm_unexpected_withoutConditional .first row)
  rw [diagnosticsFrom_eq_filter_append (isCut_map_withoutConditional hcut), hmerged, hunterminated]

/-- Two faults of one line, a colon in a string and one behind it. -/
example : (scan ⟨false⟩ "a?@\n\":\":").state.entries.toList =
    [⟨⟨1⟩, "Unexpected character."⟩, ⟨⟨1⟩, "Unexpected character."⟩,
      ⟨⟨2⟩, "Unexpected character."⟩] := by decide +kernel

end Lox
