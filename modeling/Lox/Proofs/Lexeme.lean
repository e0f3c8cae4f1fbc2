/-
# What a scan makes of an item

A symbol, a string, a number and a word become one token each, a blank and a
comment nothing, and a faulty item one report. That a number becomes a token is
not plain from the definitions, because its characters are read a second time
as a decimal: `ofText?_written` shows that this never fails.

`token?_eq` gives the token of an item field by field. The line is one of the
fields and takes part in no other, so a token can be moved to another line
without scanning again.
-/

import Lox.Proofs.Cut

namespace Lox

/-- A decimal that is written as a whole part and a fraction is read back as
those parts. -/
theorem Decimal.ofText?_written {whole fraction : List Char} (hne : whole ≠ [])
    (hwhole : ∀ c ∈ whole, c.isDigit = true) (hfraction : ∀ c ∈ fraction, c.isDigit = true) :
    ofText? (written whole fraction) = some (ofParts whole fraction) := by
  obtain ⟨d, digits, rfl⟩ := List.exists_cons_of_ne_nil hne
  by_cases hempty : fraction = []
  · subst hempty
    have hnil : ∀ c ∈ ([] : List Char).head?, c.isDigit = false := by simp
    have htake := takeWhile_append_of_stop hwhole hnil
    have hdrop := dropWhile_append_of_stop hwhole hnil
    rw [List.append_nil] at htake hdrop
    rw [written, if_pos rfl, ofText?, htake, hdrop]
  · have hpoint : ∀ c ∈ ('.' :: fraction).head?, c.isDigit = false := by simp
    have hall : fraction.all Char.isDigit = true := List.all_eq_true.mpr hfraction
    rw [written, if_neg hempty, ofText?, takeWhile_append_of_stop hwhole hpoint,
      dropWhile_append_of_stop hwhole hpoint]
    exact if_pos ⟨hempty, hall⟩

/-- A written decimal has the characters of its parts, and a point. -/
theorem Decimal.mem_written {whole fraction : List Char} {c : Char}
    (h : c ∈ written whole fraction) : c ∈ whole ∨ c = '.' ∨ c ∈ fraction := by
  rw [written] at h
  split at h
  next => exact .inl h
  next => rwa [List.mem_append, List.mem_cons] at h

namespace Item

/-- The kind of the token for an item, if there is one. -/
def kind? : Item → Option Kind
  | symbol which => some (.symbol which)
  | string _ => some .string
  | number _ _ => some .number
  | word letters => some ((Keyword.ofText? (String.ofList letters)).elim .identifier .keyword)
  | blank _ | comment _ | unterminated _ | illegal _ => none

/-- What the characters of an item denote. -/
def payload? : Item → Option Payload
  | string body => some (.str (String.ofList body))
  | number whole fraction => some (.num (.ofDecimal (.ofParts whole fraction)))
  | _ => none

/-- The token of a well-formed item, field by field. -/
theorem token?_eq {dialect : Dialect} {item : Item} (h : item.WellFormed dialect) (line : Line) :
    item.token? line =
      item.kind?.map fun kind => ⟨kind, String.ofList item.chars, item.payload?, line⟩ := by
  cases item with
  | number whole fraction =>
      obtain ⟨hne, hwhole, hfraction⟩ := h
      simp [token?, kind?, payload?, chars, Binary64.ofText?,
        Decimal.ofText?_written hne hwhole hfraction]
  | _ => rfl

/-- An item has a token or a report or neither, and never both. -/
theorem diagnostic?_eq_none_of_kind? {item : Item} {kind : Kind} (h : item.kind? = some kind)
    (line : Line) : item.diagnostic? line = none := by
  cases item with
  | unterminated body | illegal c => cases h
  | _ => rfl

theorem kind_ne_eof_of_token? {item : Item} {line : Line} {token : Token}
    (h : item.token? line = some token) : token.kind ≠ .eof := by
  cases item with
  | blank c | comment body | unterminated body | illegal c => cases h
  | symbol which | string body =>
      cases h
      exact nofun
  | number whole fraction =>
      obtain ⟨value, -, rfl⟩ := Option.map_eq_some_iff.mp h
      exact nofun
  | word letters =>
      cases h
      cases Keyword.ofText? (String.ofList (word letters).chars) <;> exact nofun

/-! ### Words -/

theorem wellFormed_word (dialect : Dialect) {letters : List Char}
    (hfirst : letters.head?.any startsWord = true) (hall : letters.all continuesWord = true) :
    (word letters).WellFormed dialect := by
  cases letters with
  | nil => cases hfirst
  | cons c letters => exact ⟨hfirst, (List.forall_mem_cons.mp (List.all_eq_true.mp hall)).2⟩

theorem continuesWord_of_mem_word {dialect : Dialect} {letters : List Char}
    (h : (word letters).WellFormed dialect) : ∀ c ∈ letters, continuesWord c = true := by
  cases letters with
  | nil => exact h.elim
  | cons c letters => exact List.forall_mem_cons.mpr ⟨continuesWord_of_startsWord h.1, h.2⟩

theorem kind?_eq_keyword_iff {item : Item} {keyword : Keyword} :
    item.kind? = some (.keyword keyword) ↔ item = word keyword.text.toList := by
  cases item with
  | word letters =>
      have hlookup : (word letters).kind? = some (.keyword keyword) ↔
          Keyword.ofText? (String.ofList letters) = some keyword := by
        cases h : Keyword.ofText? (String.ofList letters) <;> simp [kind?, h]
      rw [hlookup, Keyword.ofText?_eq_some_iff, word.injEq, ← String.toList_inj,
        String.toList_ofList, eq_comm]
  | _ => simp [kind?]

theorem kind?_eq_identifier_iff {item : Item} :
    item.kind? = some .identifier ↔
      ∃ letters, item = word letters ∧ Keyword.ofText? (String.ofList letters) = none := by
  cases item with
  | word letters => cases h : Keyword.ofText? (String.ofList letters) <;> simp [kind?, h]
  | _ => simp [kind?]

end Item

/-- A reserved word is a word. -/
theorem Keyword.wellFormed_word (dialect : Dialect) (keyword : Keyword) :
    (Item.word keyword.text.toList).WellFormed dialect := by
  have hspelling : ∀ keyword ∈ all, keyword.text.toList.head?.any startsWord = true ∧
      keyword.text.toList.all continuesWord = true := by decide
  obtain ⟨hfirst, hall⟩ := hspelling keyword keyword.mem_all
  exact Item.wellFormed_word dialect hfirst hall

theorem Keyword.kind?_word (keyword : Keyword) :
    (Item.word keyword.text.toList).kind? = some (.keyword keyword) :=
  Item.kind?_eq_keyword_iff.mpr rfl

/-- Only strings, closed or open, and line feeds themselves have line feeds in them. -/
theorem Item.newline_mem_cases {dialect : Dialect} {item : Item} (h : item.WellFormed dialect)
    (hmem : '\n' ∈ item.chars) :
    item = blank '\n' ∨ (∃ body, item = string body) ∨ ∃ body, item = unterminated body := by
  cases item with
  | blank c =>
      obtain rfl := List.mem_singleton.mp hmem
      exact .inl rfl
  | string body => exact .inr (.inl ⟨body, rfl⟩)
  | unterminated body => exact .inr (.inr ⟨body, rfl⟩)
  | comment body =>
      rcases List.mem_cons.mp hmem with hslash | hmem
      · cases hslash
      · rcases List.mem_cons.mp hmem with hslash | hbody
        · cases hslash
        · exact absurd hbody h
  | symbol which => cases which <;> simp [chars, Symbol.chars] at hmem
  | number whole fraction =>
      rcases Decimal.mem_written hmem with hdigit | hpoint | hdigit
      · cases h.2.1 _ hdigit
      · cases hpoint
      · cases h.2.2 _ hdigit
  | word letters => cases continuesWord_of_mem_word h _ hmem
  | illegal c =>
      obtain rfl := List.mem_singleton.mp hmem
      cases h.1.not_isBlank

/-! ## Rows of items -/

/-- The tokens of a row of items that begins on the given line, without one for
the end. -/
def tokensWithin (line : Line) : List Item → List Token
  | [] => []
  | item :: row => (item.token? line).toList ++ tokensWithin (line.after item.chars) row

/-- The tokens of two rows are those of the first and then those of the second,
which begins where the characters of the first end. -/
theorem tokensFrom_append (line : Line) (first second : List Item) :
    tokensFrom line (first ++ second) =
      tokensWithin line first ++ tokensFrom (line.after (first.flatMap Item.chars)) second := by
  induction first generalizing line with
  | nil => rfl
  | cons item first ih =>
      rw [List.cons_append, tokensFrom, ih, tokensWithin, List.flatMap_cons, Line.after_append,
        List.append_assoc]

theorem tokensWithin_append (line : Line) (first second : List Item) :
    tokensWithin line (first ++ second) =
      tokensWithin line first ++ tokensWithin (line.after (first.flatMap Item.chars)) second := by
  induction first generalizing line with
  | nil => rfl
  | cons item first ih =>
      rw [List.cons_append, tokensWithin, ih, tokensWithin, List.flatMap_cons, Line.after_append,
        List.append_assoc]

/-- The tokens of a row without the one for the end are those of its items. -/
theorem filter_tokensFrom (line : Line) (row : List Item) :
    (tokensFrom line row).filter (·.kind ≠ .eof) = tokensWithin line row := by
  induction row generalizing line with
  | nil => rfl
  | cons item row ih =>
      rw [tokensFrom, List.filter_append, ih, tokensWithin]
      congr 1
      apply List.filter_eq_self.mpr
      intro token htoken
      exact decide_eq_true (Item.kind_ne_eof_of_token? (Option.mem_toList.mp htoken))

theorem diagnosticsFrom_append (line : Line) (first second : List Item) :
    diagnosticsFrom line (first ++ second) = diagnosticsFrom line first ++
      diagnosticsFrom (line.after (first.flatMap Item.chars)) second := by
  induction first generalizing line with
  | nil => rfl
  | cons item first ih =>
      rw [List.cons_append, diagnosticsFrom, ih, diagnosticsFrom, List.flatMap_cons,
        Line.after_append, List.append_assoc]

/-- The tokens of a source text other than the last are the tokens of its items. -/
theorem exists_item_of_mem_tokensFrom {row : List Item} {line : Line} {token : Token}
    (hmem : token ∈ tokensFrom line row) (hkind : token.kind ≠ .eof) :
    ∃ item ∈ row, ∃ start, item.token? start = some token := by
  induction row generalizing line with
  | nil =>
      rw [List.mem_singleton.mp hmem] at hkind
      exact absurd rfl hkind
  | cons item row ih =>
      rcases List.mem_append.mp hmem with hhead | htail
      · exact ⟨item, List.mem_cons_self, line, Option.mem_toList.mp hhead⟩
      · obtain ⟨found, hfound, hstart⟩ := ih htail
        exact ⟨found, List.mem_cons_of_mem item hfound, hstart⟩

/-- A row whose items stand before each other is scanned to its tokens and reports. -/
theorem scan_flatMap_chars {dialect : Dialect} {row : List Item} (h : IsCut dialect row) :
    scan dialect (String.ofList (row.flatMap Item.chars)) =
      ⟨(tokensFrom .first row).toArray, ⟨(diagnosticsFrom .first row).toArray⟩⟩ := by
  rw [scan_eq, tokens, diagnostics, String.toList_ofList, items_flatMap_chars h]

/-- A lexeme by itself is scanned to its token alone. -/
theorem Item.scan_chars {dialect : Dialect} {item : Item} {kind : Kind}
    (h : item.WellFormed dialect) (hkind : item.kind? = some kind) :
    scan dialect (String.ofList item.chars) =
      ⟨#[⟨kind, String.ofList item.chars, item.payload?, .first⟩,
        .eof (Line.first.after item.chars)], .empty⟩ := by
  have hcut : IsCut dialect [item] := ⟨⟨h, item.endsBefore_nil⟩, trivial⟩
  have hscan := scan_flatMap_chars hcut
  rw [List.flatMap_singleton] at hscan
  rw [hscan, tokensFrom, diagnosticsFrom, token?_eq h, hkind, diagnostic?_eq_none_of_kind? hkind]
  rfl

/-! ## Rows of blanks -/

/-- A text of blanks as items. -/
def gapItems (gap : List Char) : List Item := gap.map .blank

theorem flatMap_chars_gapItems (gap : List Char) : (gapItems gap).flatMap Item.chars = gap := by
  induction gap with
  | nil => rfl
  | cons c gap ih => exact congrArg (c :: ·) ih

/-- Nothing has to be known about what follows a gap. -/
theorem isCut_gapItems_append {dialect : Dialect} {gap : List Char} {row : List Item}
    (hgap : ∀ c ∈ gap, isBlank c = true) (hrow : IsCut dialect row) :
    IsCut dialect (gapItems gap ++ row) := by
  induction gap with
  | nil => exact hrow
  | cons c gap ih =>
      obtain ⟨hc, hgap⟩ := List.forall_mem_cons.mp hgap
      exact ⟨⟨hc, trivial⟩, ih hgap⟩

theorem tokensWithin_gapItems (line : Line) (gap : List Char) :
    tokensWithin line (gapItems gap) = [] := by
  induction gap generalizing line with
  | nil => rfl
  | cons c gap ih => exact ih _

theorem diagnosticsFrom_gapItems (line : Line) (gap : List Char) :
    diagnosticsFrom line (gapItems gap) = [] := by
  induction gap generalizing line with
  | nil => rfl
  | cons c gap ih => exact ih _

end Lox
