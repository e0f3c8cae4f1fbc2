/-
# Faults are inert

A fault costs its own characters and nothing more. If every unexpected character
of a text is replaced by a space, and an unterminated string by the line feeds in
it, the text has the same tokens on the same lines, and no faults.

The repair works on single items, but the items around them look at the
characters that it changes. What makes it sound is that the texts before and
after it are alike up to a blank wherever they are compared, so no item can tell
them apart.
-/

import Lox.Proofs.Lexeme

namespace Lox

namespace Item

/-- What takes the place of an item: a space for an unexpected character, for an
unterminated string the line feeds in it, and every other item stays. -/
def repair : Item → List Char
  | illegal _ => [' ']
  | unterminated body => ('"' :: body).filter (· == '\n')
  | item => item.chars

/-- Whether the report about an item of a text, if there is one, decides what takes
the place of the item: a space for a character that was not expected, and its line
feeds for a string that is open to the end of the text. -/
def FollowsReport (source : List Char) (line : Line) (item : Item) : Prop :=
  (item.diagnostic? line = none ∧ item.repair = item.chars) ∨
    (item.diagnostic? line = some ⟨line, "Unexpected character."⟩ ∧
      (∃ c, item.chars = [c]) ∧ item.repair = [' ']) ∨
    (item.diagnostic? line = some ⟨line.after item.chars, "Unterminated String"⟩ ∧
      item.chars <:+ source ∧ item.repair = item.chars.filter (· == '\n'))

/-- A repaired item is an item again, or a row of blanks. -/
def repairItems : Item → List Item
  | illegal c => gapItems (repair (illegal c))
  | unterminated body => gapItems (repair (unterminated body))
  | item => [item]

end Item

/-- A source text with its faults repaired. -/
def repaired (dialect : Dialect) (source : String) : String :=
  String.ofList ((items dialect source.toList).flatMap Item.repair)

namespace Item

theorem flatMap_chars_repairItems (item : Item) :
    item.repairItems.flatMap chars = item.repair := by
  cases item with
  | illegal c | unterminated body => exact flatMap_chars_gapItems _
  | _ => exact List.append_nil _

theorem isBlank_of_mem_feeds {text : List Char} :
    ∀ c ∈ text.filter (· == '\n'), isBlank c = true := by
  intro c hc
  rw [beq_iff_eq.mp (List.mem_filter.mp hc).2]
  rfl

/-- The repair leaves the lines of the other items as they are. -/
theorem after_repair {dialect : Dialect} {item : Item} (h : item.WellFormed dialect)
    (line : Line) : line.after item.repair = line.after item.chars := by
  cases item with
  | illegal c =>
      have hfeed : c ≠ '\n' := by
        rintro rfl
        cases h.1.not_isBlank
      simp [repair, chars, Line.after, Line.breaks, hfeed]
  | unterminated body =>
      simp [repair, chars, Line.after, Line.breaks, List.count_filter]
  | _ => rfl

theorem tokensWithin_repairItems (item : Item) (line : Line) :
    tokensWithin line item.repairItems = (item.token? line).toList := by
  cases item with
  | illegal c | unterminated body => exact tokensWithin_gapItems line _
  | _ => exact List.append_nil _

theorem diagnosticsFrom_repairItems (item : Item) (line : Line) :
    diagnosticsFrom line item.repairItems = [] := by
  cases item with
  | illegal c | unterminated body => exact diagnosticsFrom_gapItems line _
  | _ => rfl

/-! ## Texts that an item cannot tell apart -/

/-- Two texts that an item cannot tell apart if it ends before the first: they
are alike up to a place where the second ends or has a blank. There the first
goes on with any character but a line feed, which a comment would wait for. -/
inductive AlikeUpToBlank : List Char → List Char → Prop where
  | done : AlikeUpToBlank [] []
  | keep {c : Char} {rest rest' : List Char} (tail : AlikeUpToBlank rest rest') :
      AlikeUpToBlank (c :: rest) (c :: rest')
  | blank {c : Char} {rest rest' : List Char} (head : c ≠ '\n')
      (blank : ∀ d ∈ rest'.head?, isBlank d = true) : AlikeUpToBlank (c :: rest) rest'

theorem AlikeUpToBlank.append_left {rest rest' : List Char} (h : AlikeUpToBlank rest rest')
    (text : List Char) : AlikeUpToBlank (text ++ rest) (text ++ rest') := by
  induction text with
  | nil => exact h
  | cons c text ih => exact .keep ih

theorem AlikeUpToBlank.head {rest rest' : List Char} (h : AlikeUpToBlank rest rest') :
    ∀ c ∈ rest'.head?, isBlank c = true ∨ c ∈ rest.head? := by
  intro c hc
  cases h with
  | done => cases hc
  | keep _ => exact .inr hc
  | blank _ hblank => exact .inl (hblank c hc)

theorem EndsBefore.of_alikeUpToBlank {item : Item} {rest rest' : List Char}
    (h : item.EndsBefore rest) (halike : AlikeUpToBlank rest rest') : item.EndsBefore rest' := by
  by_cases hitem : item.EndsAtBlank
  · apply h.mono hitem halike.head
    intro hdot
    cases halike with
    | done => cases hdot
    | keep tail => exact tail.head
    | blank _ hblank => exact absurd (hblank '.' hdot) (by decide)
  · cases item with
    | comment body =>
        cases halike with
        | done | keep tail => exact h
        | blank hfeed _ => exact absurd (h _ rfl) hfeed
    | unterminated body =>
        subst h
        cases halike
        rfl
    | _ => exact absurd trivial hitem

end Item

/-! ## Repaired rows -/

/-- Behind any item of a text, the repaired text is alike up to a blank. -/
theorem alikeUpToBlank_repair {dialect : Dialect} {row : List Item} (h : IsCut dialect row) :
    Item.AlikeUpToBlank (row.flatMap Item.chars) (row.flatMap Item.repair) := by
  induction row with
  | nil => exact .done
  | cons item row ih =>
      obtain ⟨hstands, hrow⟩ := h
      rw [List.flatMap_cons, List.flatMap_cons]
      cases item with
      | illegal c =>
          apply Item.AlikeUpToBlank.blank
          · rintro rfl
            cases hstands.wellFormed.1.not_isBlank
          · rintro d ⟨⟩
            rfl
      | unterminated body =>
          obtain rfl := hrow.eq_nil hstands.endsBefore
          apply Item.AlikeUpToBlank.blank (by decide)
          intro d hd
          rw [List.flatMap_nil, List.append_nil] at hd
          exact Item.isBlank_of_mem_feeds d (List.mem_of_mem_head? hd)
      | _ => exact (ih hrow).append_left _

theorem flatMap_chars_flatMap_repairItems (row : List Item) :
    (row.flatMap Item.repairItems).flatMap Item.chars = row.flatMap Item.repair := by
  induction row with
  | nil => rfl
  | cons item row ih =>
      rw [List.flatMap_cons, List.flatMap_append, item.flatMap_chars_repairItems, ih,
        List.flatMap_cons]

/-- The repaired items stand before each other. -/
theorem isCut_flatMap_repairItems {dialect : Dialect} {row : List Item} (h : IsCut dialect row) :
    IsCut dialect (row.flatMap Item.repairItems) := by
  induction row with
  | nil => trivial
  | cons item row ih =>
      obtain ⟨hstands, hrow⟩ := h
      rw [List.flatMap_cons]
      cases item with
      | illegal c =>
          have hspace : ∀ d ∈ [' '], isBlank d = true := by simp [isBlank]
          exact isCut_gapItems_append hspace (ih hrow)
      | unterminated body => exact isCut_gapItems_append Item.isBlank_of_mem_feeds (ih hrow)
      | _ =>
          have hends := hstands.endsBefore.of_alikeUpToBlank (alikeUpToBlank_repair hrow)
          rw [← flatMap_chars_flatMap_repairItems] at hends
          exact ⟨⟨hstands.wellFormed, hends⟩, ih hrow⟩

theorem tokensFrom_flatMap_repairItems {dialect : Dialect} {row : List Item}
    (h : ∀ item ∈ row, item.WellFormed dialect) (line : Line) :
    tokensFrom line (row.flatMap Item.repairItems) = tokensFrom line row := by
  induction row generalizing line with
  | nil => rfl
  | cons item row ih =>
      obtain ⟨hitem, hrow⟩ := List.forall_mem_cons.mp h
      rw [List.flatMap_cons, tokensFrom_append, item.tokensWithin_repairItems,
        item.flatMap_chars_repairItems, Item.after_repair hitem, ih hrow]
      rfl

theorem diagnosticsFrom_flatMap_repairItems (row : List Item) (line : Line) :
    diagnosticsFrom line (row.flatMap Item.repairItems) = [] := by
  induction row generalizing line with
  | nil => rfl
  | cons item row ih =>
      rw [List.flatMap_cons, diagnosticsFrom_append, item.diagnosticsFrom_repairItems, ih]
      rfl

/-- An open string is the end of its text. -/
theorem IsCut.isSuffix_of_unterminated {dialect : Dialect} {row : List Item}
    (h : IsCut dialect row) {body : List Char} (hmem : .unterminated body ∈ row) :
    '"' :: body <:+ row.flatMap Item.chars := by
  induction row with
  | nil => cases hmem
  | cons item row ih =>
      obtain ⟨hstands, hrow⟩ := h
      rw [List.flatMap_cons]
      rcases List.mem_cons.mp hmem with rfl | htail
      · obtain rfl := hrow.eq_nil hstands.endsBefore
        rw [List.flatMap_nil, List.append_nil]
        exact List.suffix_refl _
      · exact (ih hrow htail).trans (List.suffix_append _ _)

theorem followsReport_of_mem_items {dialect : Dialect} {source : List Char} {item : Item}
    (h : item ∈ items dialect source) (line : Line) : item.FollowsReport source line := by
  cases item with
  | illegal c => exact .inr (.inl ⟨rfl, ⟨c, rfl⟩, rfl⟩)
  | unterminated body =>
      have hend := (isCut_items dialect source).isSuffix_of_unterminated h
      rw [flatMap_chars_items] at hend
      exact .inr (.inr ⟨rfl, hend, rfl⟩)
  | _ => exact .inl ⟨rfl, rfl⟩

/-- **Faults are inert.** A repaired text is scanned without a report to the
tokens of the original, each on the same line. The repair changes what was
reported and nothing else. -/
theorem scan_repaired (dialect : Dialect) (source : String) :
    scan dialect (repaired dialect source) = ⟨(scan dialect source).tokens, .empty⟩ ∧
      ∀ item ∈ items dialect source.toList, ∀ line, item.FollowsReport source.toList line := by
  have hcut := isCut_items dialect source.toList
  have hitems : items dialect (repaired dialect source).toList =
      (items dialect source.toList).flatMap Item.repairItems := by
    apply items_eq_iff.mpr
    refine ⟨?_, isCut_flatMap_repairItems hcut⟩
    rw [flatMap_chars_flatMap_repairItems, repaired, String.toList_ofList]
  constructor
  · rw [scan_eq, scan_eq, tokens, diagnostics, hitems,
      tokensFrom_flatMap_repairItems hcut.wellFormed, diagnosticsFrom_flatMap_repairItems]
    rfl
  · intro item hitem
    exact followsReport_of_mem_items hitem

end Lox
