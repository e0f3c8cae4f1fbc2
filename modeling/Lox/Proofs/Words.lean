/-
# Words and the list of reserved words

A reserved word is looked up by its spelling, and a scan asks for the spelling of whole
words only. So the list says of every text by itself what a scan makes of it: a text on
the list is scanned as that reserved word, a word that is not on it as an identifier, and
no other text as either.

In a longer text the same holds of each word. What has to be shown is that a word is
never cut out of a longer one. No letter follows it, because it ends there, and none
is in front of it, because an item that reached up to it with a letter would go on. A digit
may be in front of it, as in `1and`, but no word begins with a digit.
-/

import Lox.Proofs.Listing
import Lox.Proofs.Places

namespace Lox

/-- Whether a text is scanned without a report as one token of the given kind, with all of
the text as its lexeme. -/
structure IsScannedAs (dialect : Dialect) (text : String) (kind : Kind) : Prop where
  tokens : ∃ payload line last,
    (scan dialect text).tokens = #[⟨kind, text, payload, line⟩, .eof last]
  silent : (scan dialect text).state = .empty

/-- Whether a text has no longer word around the lexeme at a place. -/
def Place.IsWholeWord (place : Place) (dialect : Dialect) (text : String) : Prop :=
  ∀ front first last back : List Char, place.before = front ++ first →
    text.toList = front ++ (first ++ place.token.lexeme.toList ++ last) ++ back →
    Spells dialect .word (first ++ place.token.lexeme.toList ++ last) → first = [] ∧ last = []

variable {dialect : Dialect}

/-! ## A word by itself -/

theorem spells_word_iff {letters : List Char} :
    Spells dialect .word letters ↔ (Item.word letters).WellFormed dialect := by
  constructor
  · intro h
    obtain ⟨item, hitem, hshape, rfl⟩ := Item.exists_item_of_spells h
    cases item with
    | word letters => exact hitem
    | _ => cases hshape
  · intro h
    exact Item.spells_chars h rfl

/-- The texts that are scanned as one token are the lexemes of its kind. -/
theorem isScannedAs_iff {text : String} {kind : Kind} (hkind : kind ≠ .eof) :
    IsScannedAs dialect text kind ↔
      ∃ item : Item, item.WellFormed dialect ∧ item.kind? = some kind ∧
        String.ofList item.chars = text := by
  constructor
  · rintro ⟨⟨payload, line, last, htokens⟩, -⟩
    have hmem : ⟨kind, text, payload, line⟩ ∈ (scan dialect text).tokens := by
      rw [htokens]
      exact Array.mem_of_getElem? (i := 0) rfl
    cases isLexed_of_mem_scan hmem with
    | eof => exact absurd rfl hkind
    | item hwf hitem => exact ⟨_, hwf, hitem, rfl⟩
  · rintro ⟨item, hwf, hitem, rfl⟩
    have hscan := Item.scan_chars hwf hitem
    exact ⟨⟨item.payload?, .first, _, by rw [hscan]⟩, by rw [hscan]⟩

theorem isScannedAs_keyword_iff {text : String} {keyword : Keyword} :
    IsScannedAs dialect text (.keyword keyword) ↔ keyword.text = text := by
  have hnotEnd : Kind.keyword keyword ≠ .eof := nofun
  rw [isScannedAs_iff hnotEnd]
  constructor
  · rintro ⟨item, -, hkind, rfl⟩
    rw [Item.kind?_eq_keyword_iff.mp hkind]
    exact String.ofList_toList.symm
  · rintro rfl
    exact ⟨_, keyword.wellFormed_word dialect, keyword.kind?_word, String.ofList_toList⟩

theorem isScannedAs_identifier_iff {text : String} :
    IsScannedAs dialect text .identifier ↔
      Spells dialect .word text.toList ∧ Keyword.ofText? text = none := by
  have hnotEnd : Kind.identifier ≠ .eof := nofun
  rw [isScannedAs_iff hnotEnd, spells_word_iff]
  constructor
  · rintro ⟨item, hwf, hkind, rfl⟩
    obtain ⟨letters, rfl, hnone⟩ := Item.kind?_eq_identifier_iff.mp hkind
    rw [Item.chars, String.toList_ofList]
    exact ⟨hwf, hnone⟩
  · rintro ⟨hwf, hnone⟩
    have htext : String.ofList text.toList = text := String.ofList_toList
    exact ⟨_, hwf, Item.kind?_eq_identifier_iff.mpr ⟨_, rfl, htext.symm ▸ hnone⟩, htext⟩

theorem Keyword.text_eq_toLower_name (keyword : Keyword) :
    keyword.text = (Kind.keyword keyword).name.toLower := by
  have hall : all.all (fun keyword =>
      keyword.text = (Kind.keyword keyword).name.toLower) = true := by decide +kernel
  exact of_decide_eq_true (List.all_eq_true.mp hall keyword keyword.mem_all)

/-! ## A word in a longer text -/

/-- A character in the text of a row belongs to one of the items. -/
theorem exists_item_of_flatMap_chars {row : List Item} {before after : List Char} {c : Char}
    (h : row.flatMap Item.chars = before ++ c :: after) :
    ∃ front item back before' after', row = front ++ item :: back ∧
      item.chars = before' ++ c :: after' ∧ after = after' ++ back.flatMap Item.chars := by
  induction row generalizing before with
  | nil => simp at h
  | cons item row ih =>
      rw [List.flatMap_cons] at h
      rcases List.append_eq_append_iff.mp h with ⟨before', -, hrow⟩ | ⟨middle, hitem, hmiddle⟩
      · obtain ⟨front, found, back, before'', after', rfl, hfound, hafter⟩ := ih hrow
        exact ⟨item :: front, found, back, before'', after', rfl, hfound, hafter⟩
      · cases middle with
        | nil =>
            have hrow : row.flatMap Item.chars = [] ++ c :: after := hmiddle.symm
            obtain ⟨front, found, back, before', after', rfl, hfound, hafter⟩ := ih hrow
            exact ⟨item :: front, found, back, before', after', rfl, hfound, hafter⟩
        | cons d middle =>
            obtain ⟨rfl, rfl⟩ := List.cons.inj hmiddle
            exact ⟨[], item, row, before, middle, rfl, hitem, rfl⟩

/-- No letter in an item is followed by nothing but letters and digits up to its end and
beyond it. A word or a number would go on, and the other items have no such end. -/
theorem Item.StandsBefore.not_startsWord {item : Item} {rest before after : List Char} {c d : Char}
    (h : item.StandsBefore dialect rest) (hchars : item.chars = before ++ c :: after)
    (hafter : ∀ e ∈ after, continuesWord e = true) (hnext : d ∈ rest.head?)
    (hword : continuesWord d = true) : startsWord c = false := by
  obtain ⟨hwf, hends⟩ := h
  have hmem : c ∈ item.chars := by
    rw [hchars]
    exact List.mem_append_right _ List.mem_cons_self
  apply Bool.eq_false_of_not_eq_true
  intro hstarts
  have hcontinues := continuesWord_of_startsWord hstarts
  cases item with
  | blank b =>
      obtain rfl := List.mem_singleton.mp hmem
      rw [not_continuesWord_of_isBlank hwf] at hcontinues
      cases hcontinues
  | illegal b =>
      obtain rfl := List.mem_singleton.mp hmem
      rw [hwf.1.not_startsWord] at hstarts
      cases hstarts
  | symbol which =>
      have hall : Symbol.all.all (fun which => which.chars.all (!startsWord ·)) = true := by decide
      have hnone := List.all_eq_true.mp (List.all_eq_true.mp hall which which.mem_all) c hmem
      simp [hstarts] at hnone
  | number whole fraction =>
      have hnotDigit := not_isDigit_of_startsWord hstarts
      rcases Decimal.mem_written hmem with hdigit | rfl | hdigit
      · simp [hwf.2.1 c hdigit] at hnotDigit
      · cases hstarts
      · simp [hwf.2.2 c hdigit] at hnotDigit
  | string body =>
      have hlast : (before ++ c :: after).getLast? = some '"' := by
        rw [← hchars, chars, ← List.cons_append, List.getLast?_concat]
      rw [List.getLast?_append_of_ne_nil _ (List.cons_ne_nil _ _)] at hlast
      rcases List.mem_cons.mp (List.mem_of_getLast? hlast) with rfl | hquote
      · cases hstarts
      · cases hafter _ hquote
  | comment body =>
      rw [hends d hnext] at hword
      cases hword
  | word letters =>
      rw [hends d hnext] at hword
      cases hword
  | unterminated body =>
      obtain rfl : rest = [] := hends
      cases hnext

/-- No letter in front of a word has nothing but letters and digits between itself and the
word. -/
theorem IsCut.not_startsWord {front back : List Item} {letters before after : List Char} {c : Char}
    (h : IsCut dialect (front ++ .word letters :: back))
    (hfront : front.flatMap Item.chars = before ++ c :: after)
    (hafter : ∀ d ∈ after ++ letters, continuesWord d = true) : startsWord c = false := by
  have hne : letters ≠ [] := Item.chars_ne_nil_of_wellFormed h.of_append.2.1.wellFormed
  obtain ⟨earlier, item, between, _, after, rfl, hchars, rfl⟩ := exists_item_of_flatMap_chars hfront
  rw [List.append_assoc, List.cons_append] at h
  rw [List.append_assoc] at hafter
  -- Behind the item comes another one that is in front of the word, or the word.
  obtain ⟨d, following, hfollowing⟩ := List.exists_cons_of_ne_nil
    (List.append_ne_nil_of_right_ne_nil (between.flatMap Item.chars) hne)
  have hnext : d ∈ ((between ++ .word letters :: back).flatMap Item.chars).head? := by
    rw [List.flatMap_append, List.flatMap_cons, ← List.append_assoc, Item.chars, hfollowing]
    rfl
  have hd : d ∈ between.flatMap Item.chars ++ letters := by
    rw [hfollowing]
    exact List.mem_cons_self
  exact h.of_append.2.1.not_startsWord hchars
    (fun e he => hafter e (List.mem_append_left _ he)) hnext
    (hafter d (List.mem_append_right _ hd))

/-- A word in a row has neither letters nor digits behind it, and no longer word takes in
what is in front of it. -/
theorem IsCut.eq_nil_of_spells {front back : List Item} {letters : List Char}
    (h : IsCut dialect (front ++ .word letters :: back)) {before first last rest : List Char}
    (hfront : front.flatMap Item.chars = before ++ first)
    (hback : back.flatMap Item.chars = last ++ rest)
    (hword : Spells dialect .word (first ++ letters ++ last)) : first = [] ∧ last = [] := by
  rw [spells_word_iff] at hword
  have hall := Item.continuesWord_of_mem_word hword
  constructor
  · cases first with
    | nil => rfl
    | cons c first =>
        have hnot := h.not_startsWord hfront fun d hd =>
          hall d (List.mem_append_left _ (List.mem_cons_of_mem c hd))
        have hstarts : startsWord c = true := hword.1
        rw [hnot] at hstarts
        cases hstarts
  · cases last with
    | nil => rfl
    | cons c last =>
        have hnot : continuesWord c = false := h.of_append.2.1.endsBefore c (by simp [hback])
        rw [hall c (by simp)] at hnot
        cases hnot

/-- **Words are looked up whole.** A text is on the list of reserved words exactly if a scan
of it yields the token of that reserved word alone, and then it is the name of the
kind in small letters. A scan of it yields an identifier alone exactly if it has the shape
of a word and is not on the list. In every text, a token of a reserved word has the spelling
of the list, and no longer word is around it. -/
theorem scan_words (dialect : Dialect) (text : String) :
    (∀ keyword, Keyword.ofText? text = some keyword ↔
      IsScannedAs dialect text (.keyword keyword)) ∧
    (∀ keyword, Keyword.ofText? text = some keyword →
      text = (Kind.keyword keyword).name.toLower) ∧
    (IsScannedAs dialect text .identifier ↔
      Spells dialect .word text.toList ∧ Keyword.ofText? text = none) ∧
    ∃ places, (∀ other, IsPlaced dialect text other ↔ other = places) ∧
      ∀ place ∈ places, ∀ keyword, place.token.kind = .keyword keyword →
        place.token.lexeme = keyword.text ∧ place.IsWholeWord dialect text := by
  refine ⟨?_, ?_, isScannedAs_identifier_iff, _, fun _ => isPlaced_iff, ?_⟩
  · intro keyword
    rw [Keyword.ofText?_eq_some_iff, isScannedAs_keyword_iff]
  · intro keyword hkeyword
    rw [← Keyword.ofText?_eq_some_iff.mp hkeyword, ← keyword.text_eq_toLower_name]
  · intro place hplace keyword hkind
    obtain ⟨earlier, later, hplaces⟩ := List.append_of_mem hplace
    have hnotEnd : place.token.kind ≠ .eof := by
      rw [hkind]
      exact nofun
    obtain ⟨front, item, back, hrow, hbefore, htoken, -, -⟩ :=
      exists_item_of_placesBehind hplaces hnotEnd
    have hcut := isCut_items dialect text.toList
    have htext := flatMap_chars_items dialect text.toList
    rw [hrow] at hcut htext
    rw [Item.token?_eq hcut.of_append.2.1.wellFormed, Option.map_eq_some_iff] at htoken
    obtain ⟨kind, hitem, htoken⟩ := htoken
    obtain rfl : kind = .keyword keyword := by rw [← hkind, ← htoken]
    obtain rfl := Item.kind?_eq_keyword_iff.mp hitem
    have hlexeme : place.token.lexeme = keyword.text := by
      rw [← htoken]
      exact String.ofList_toList
    refine ⟨hlexeme, ?_⟩
    intro before first last rest hfirst hsource hspells
    rw [hlexeme] at hsource hspells
    rw [List.nil_append] at hbefore
    have hfront := hbefore.symm.trans hfirst
    have hback : back.flatMap Item.chars = last ++ rest := by
      simpa [hfront, Item.chars, ← htext] using hsource
    exact hcut.eq_nil_of_spells hfront hback hspells

/-- A digit in front of a reserved word belongs to a number, and a letter or a capital makes
it another word. -/
example : (scan ⟨true⟩ "1and android And _and").tokens.toList.map Token.kind =
    [.number, .keyword .andKw, .identifier, .identifier, .identifier, .eof] := by decide +kernel

end Lox
