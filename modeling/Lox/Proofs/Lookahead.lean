/-
# How far a scan looks ahead

Most items are settled by one character behind them. Only a number needs two, when a point
follows it. A text can therefore go on in any way without a change of the tokens
that end at least two characters before its end, and of the characters that were reported in
it. What may change is read in the last two characters, and in what is open at the end: a
comment, or a string.

The step is `items_cons_append`. A settled item is read in the longer text as before, and
what is left of the text is followed by the same characters.
-/

import Lox.Proofs.Places

namespace Lox

namespace Item

/-- More text at the end makes no item longer that has a character behind it, unless
this is a point and the last one. -/
theorem EndsBefore.append_of_ne {item : Item} {rest : List Char} (h : item.EndsBefore rest)
    (hne : rest ≠ []) (hpoint : rest ≠ ['.']) (more : List Char) :
    item.EndsBefore (rest ++ more) := by
  obtain ⟨c, tail, rfl⟩ := List.exists_cons_of_ne_nil hne
  cases item with
  | blank d | string body | illegal d => trivial
  | comment body | symbol which | word letters => exact h
  | unterminated body => cases h
  | number whole fraction =>
      obtain ⟨hstop, hfraction⟩ := h
      refine ⟨hstop, ?_⟩
      intro hempty hdot d hd
      cases tail with
      | nil =>
          rw [Option.some.inj hdot] at hpoint
          exact absurd rfl hpoint
      | cons e tail => exact hfraction hempty hdot d hd

end Item

section Rows

variable {dialect : Dialect} {item : Item} {row : List Item}

/-- A settled item is the first item of the text that goes on. -/
theorem items_cons_append {more : List Char} (h : item.WellFormed dialect)
    (hends : item.EndsBefore (row.flatMap Item.chars ++ more)) :
    items dialect ((item :: row).flatMap Item.chars ++ more) =
      item :: items dialect (row.flatMap Item.chars ++ more) := by
  rw [List.flatMap_cons, List.append_assoc]
  exact items_of_next?_eq_some (Item.next?_chars_append ⟨h, hends⟩)

/-- Nothing of a row with less than two characters ends two characters before its end. -/
theorem filter_placesBehind_eq_nil {before : List Char} {total : ℕ}
    (h : total < before.length + 2) :
    ((placesBehind before row).filter fun place => place.stop + 2 ≤ total) = [] := by
  apply List.filter_eq_nil_iff.mpr
  intro place hplace
  have hle := length_le_of_mem_placesBehind hplace
  have hstop : ¬ place.stop + 2 ≤ total := by
    unfold Place.stop
    omega
  simpa using hstop

/-- Two characters behind an item keep its token, fewer do not. -/
theorem filter_place? (h : item.WellFormed dialect) (before : List Char) (left : ℕ) :
    (item.place? before).toList.filter
        (fun place => place.stop + 2 ≤ (before ++ item.chars).length + left) =
      if 2 ≤ left then (item.place? before).toList else [] := by
  have hstop : ∀ place ∈ (item.place? before).toList,
      place.stop = (before ++ item.chars).length :=
    fun _ hplace => Item.stop_of_place? h (Option.mem_toList.mp hplace)
  split
  next hlong =>
    apply List.filter_eq_self.mpr
    intro place hplace
    rw [hstop place hplace]
    exact decide_eq_true (Nat.add_le_add_left hlong _)
  next hshort =>
    apply List.filter_eq_nil_iff.mpr
    intro place hplace
    rw [hstop place hplace]
    exact mt (fun hle => Nat.le_of_add_le_add_left (of_decide_eq_true hle)) hshort

/-- Tokens that end at least two characters before the end of a text are the first
tokens of the text that goes on. -/
theorem prefix_tokensFrom_append (h : IsCut dialect row) (before more : List Char) :
    ((placesBehind before row).filter fun place =>
        place.stop + 2 ≤ (before ++ row.flatMap Item.chars).length).map Place.token <+:
      tokensFrom (lineBehind before) (items dialect (row.flatMap Item.chars ++ more)) := by
  induction row generalizing before with
  | nil =>
      have hshort : (before ++ [].flatMap Item.chars).length < before.length + 2 := by simp
      rw [filter_placesBehind_eq_nil hshort]
      exact List.nil_prefix
  | cons item row ih =>
      have htext : before ++ (item :: row).flatMap Item.chars =
          before ++ item.chars ++ row.flatMap Item.chars := by
        rw [List.flatMap_cons, List.append_assoc]
      rw [htext, List.length_append, placesBehind, List.filter_append, List.map_append,
        filter_place? h.1.wellFormed]
      split
      next hlong =>
        have hne : row.flatMap Item.chars ≠ [] := by
          intro hnil
          simp [hnil] at hlong
        have hpoint : row.flatMap Item.chars ≠ ['.'] := by
          intro hdot
          simp [hdot] at hlong
        have htail := ih h.2 (before ++ item.chars)
        rw [List.length_append] at htail
        have hends := h.1.endsBefore.append_of_ne hne hpoint more
        rw [items_cons_append h.1.wellFormed hends, tokensFrom, ← lineBehind_append,
          ← Item.map_token_place?, Option.toList_map]
        exact (List.prefix_append_right_inj _).mpr htail
      next hshort =>
        have hnone : (before ++ item.chars).length + (row.flatMap Item.chars).length <
            (before ++ item.chars).length + 2 :=
          Nat.add_lt_add_left (Nat.lt_of_not_le hshort) _
        rw [filter_placesBehind_eq_nil hnone]
        exact List.nil_prefix

/-- Where nothing or a point is left, no character is unexpected. -/
theorem filter_isUnexpected_eq_nil (h : IsCut dialect row)
    (hchars : row.flatMap Item.chars = [] ∨ row.flatMap Item.chars = ['.']) (line : Line) :
    (diagnosticsFrom line row).filter Diagnostic.isUnexpected = [] := by
  rcases hchars with hnil | hdot
  · rw [h.eq_nil hnil]
    rfl
  · have hpoint : IsCut dialect [.symbol .dot] := ⟨⟨rfl, Item.endsBefore_nil _⟩, trivial⟩
    rw [← items_flatMap_chars h, hdot]
    exact congrArg (fun row => (diagnosticsFrom line row).filter Diagnostic.isUnexpected)
      (items_flatMap_chars hpoint)

/-- The characters that are reported in a text are the first to be reported in the text
that goes on. -/
theorem prefix_diagnosticsFrom_append (h : IsCut dialect row) (line : Line) (more : List Char) :
    (diagnosticsFrom line row).filter Diagnostic.isUnexpected <+:
      diagnosticsFrom line (items dialect (row.flatMap Item.chars ++ more)) := by
  induction row generalizing line with
  | nil => exact List.nil_prefix
  | cons item row ih =>
      obtain ⟨⟨hwf, hends⟩, hrow⟩ := h
      by_cases hillegal : ∃ c, item = .illegal c
      · obtain ⟨c, rfl⟩ := hillegal
        rw [items_cons_append hwf trivial]
        exact (List.prefix_append_right_inj [_]).mpr (ih hrow _)
      · have hother : (item.diagnostic? line).toList.filter Diagnostic.isUnexpected = [] := by
          cases item with
          | illegal c => exact absurd ⟨c, rfl⟩ hillegal
          | _ => rfl
        rw [diagnosticsFrom, List.filter_append, hother]
        by_cases hlast : row.flatMap Item.chars = [] ∨ row.flatMap Item.chars = ['.']
        · rw [filter_isUnexpected_eq_nil hrow hlast]
          exact List.nil_prefix
        · obtain ⟨hne, hpoint⟩ := not_or.mp hlast
          have hsilent : item.diagnostic? line = none := by
            cases item with
            | illegal c => exact absurd ⟨c, rfl⟩ hillegal
            | unterminated body => exact absurd hends hne
            | _ => rfl
          rw [items_cons_append hwf (hends.append_of_ne hne hpoint more), diagnosticsFrom, hsilent]
          exact ih hrow _

end Rows

/-- **Lookahead.** Whatever text comes behind another one, a scan of both begins with the tokens
of the first that end at least two characters before its end, and its reports begin
with those of the first about unexpected characters. -/
theorem scan_lookahead (dialect : Dialect) (a b : String) :
    ∃ places, (∀ other, IsPlaced dialect a other ↔ other = places) ∧
      (places.filter fun place => place.stop + 2 ≤ a.length).map Place.token <+:
        (scan dialect (a ++ b)).tokens.toList ∧
      (scan dialect a).state.entries.toList.filter Diagnostic.isUnexpected <+:
        (scan dialect (a ++ b)).state.entries.toList := by
  have hcut := isCut_items dialect a.toList
  have htokens := prefix_tokensFrom_append hcut [] b.toList
  have hreports := prefix_diagnosticsFrom_append hcut .first b.toList
  rw [flatMap_chars_items] at htokens hreports
  refine ⟨placesBehind [] (items dialect a.toList), fun _ => isPlaced_iff, ?_, ?_⟩
  · rwa [toList_tokens_scan, String.toList_append]
  · rwa [toList_entries_scan, toList_entries_scan, String.toList_append]

/-- A point at the end of a text may still become part of the number before it. -/
example : (scan ⟨false⟩ "3.").tokens.toList.map Token.text =
      ["NUMBER 3 3.0", "DOT . null", "EOF  null"] ∧
    (scan ⟨false⟩ ("3." ++ "5")).tokens.toList.map Token.text =
      ["NUMBER 3.5 3.5", "EOF  null"] := by decide +kernel

end Lox
