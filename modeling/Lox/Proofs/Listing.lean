/-
# Reading a listing back

A listing shows the tokens of a text one to a line, each with its kind, its lexeme
and its payload, and nothing is escaped. A string is shown as it is, so a line of a
listing may be a part of a string, or look like a token that is not there.

It can be read back all the same. The name of a kind has no blank in it, and it
tells how the lexeme ends: that of a string at the next quote, any other at the next
blank. The lexeme says what the payload is. So the text of a token shows where it
ends, whatever follows, and two listings are the same only if their tokens are, up
to the lines on which they stand.
-/

import Lox.Proofs.Lexeme

namespace Lox

universe u

/-! ## Names of kinds -/

namespace Kind

theorem ofName?_name (kind : Kind) : ofName? kind.name = some kind := by
  have hall : all.all (fun kind => ofName? kind.name == some kind) = true := by decide +kernel
  exact beq_iff_eq.mp (List.all_eq_true.mp hall kind (mem_all kind))

/-- No two kinds have one name. -/
theorem name_injective {a b : Kind} (h : a.name = b.name) : a = b := by
  have hname := ofName?_name a
  rw [h, ofName?_name] at hname
  exact (Option.some.inj hname).symm

theorem space_not_mem_name (kind : Kind) : ' ' ∉ kind.name.toList := by
  have hall : all.all (fun kind => ' ' ∉ kind.name.toList) = true := by decide +kernel
  exact of_decide_eq_true (List.all_eq_true.mp hall kind (mem_all kind))

end Kind

/-! ## Lexemes -/

namespace Item

/-- No lexeme has a space in it but that of a string. -/
theorem space_not_mem_chars {dialect : Dialect} {item : Item} {kind : Kind}
    (h : item.WellFormed dialect) (hkind : item.kind? = some kind) (hstring : kind ≠ .string) :
    ' ' ∉ item.chars := by
  have hword {c : Char} (hc : continuesWord c = true) : ' ' ≠ c := by
    rintro rfl
    cases hc
  intro hspace
  cases item with
  | symbol which =>
      have hall : Symbol.all.all (fun symbol => ' ' ∉ symbol.chars) = true := by decide
      exact of_decide_eq_true (List.all_eq_true.mp hall which which.mem_all) hspace
  | number whole fraction =>
      obtain ⟨-, hwhole, hfraction⟩ := h
      rcases Decimal.mem_written hspace with hmem | hdot | hmem
      · exact hword (continuesWord_of_isDigit (hwhole _ hmem)) rfl
      · cases hdot
      · exact hword (continuesWord_of_isDigit (hfraction _ hmem)) rfl
  | word letters => exact hword (continuesWord_of_mem_word h _ hspace) rfl
  | string body => exact hstring (Option.some.inj hkind).symm
  | blank c | comment body | unterminated body | illegal c => cases hkind

theorem exists_string_of_kind? {item : Item} (h : item.kind? = some .string) :
    ∃ body, item = .string body := by
  cases item with
  | string body => exact ⟨body, rfl⟩
  | word letters =>
      have hword := Option.some.inj h
      cases hkeyword : Keyword.ofText? (String.ofList letters) <;>
        · rw [hkeyword] at hword
          cases hword
  | symbol which | number whole fraction => cases Option.some.inj h
  | blank c | comment body | unterminated body | illegal c => cases h

/-- The kind of a token tells where its lexeme ends. -/
theorem eq_of_append_space {dialect : Dialect} {item other : Item} {kind : Kind}
    (h : item.WellFormed dialect) (hother : other.WellFormed dialect)
    (hkind : item.kind? = some kind) (hkind' : other.kind? = some kind) {x y : List Char}
    (htext : item.chars ++ ' ' :: x = other.chars ++ ' ' :: y) : item = other := by
  by_cases hstring : kind = .string
  · subst hstring
    obtain ⟨body, rfl⟩ := exists_string_of_kind? hkind
    obtain ⟨body', rfl⟩ := exists_string_of_kind? hkind'
    simp only [chars, List.cons_append, List.append_assoc, List.nil_append] at htext
    rw [(append_cons_inj_of_not_mem h hother (List.cons.inj htext).2).1]
  · apply eq_of_chars_eq h hother
    exact (append_cons_inj_of_not_mem (space_not_mem_chars h hkind hstring)
      (space_not_mem_chars hother hkind' hstring) htext).1

end Item

/-! ## Tokens -/

/-- What a token is, apart from where it stands. -/
def Token.content (token : Token) : Kind × String × Option Payload :=
  (token.kind, token.lexeme, token.payload)

theorem Token.content_eq_iff {a b : Token} : a.content = b.content ↔
    a.kind = b.kind ∧ a.lexeme = b.lexeme ∧ a.payload = b.payload := by
  simp only [content, Prod.mk.injEq]

/-- The tokens that a scan can yield: one for the end of a text, and one for each
well-formed item that has a kind. -/
inductive IsLexed (dialect : Dialect) : Token → Prop where
  | eof (line : Line) : IsLexed dialect (.eof line)
  | item {item : Item} {kind : Kind} (wellFormed : item.WellFormed dialect)
      (kind? : item.kind? = some kind) (line : Line) :
      IsLexed dialect ⟨kind, String.ofList item.chars, item.payload?, line⟩

theorem tokensFrom_ne_nil (line : Line) (row : List Item) : tokensFrom line row ≠ [] := by
  induction row generalizing line with
  | nil => exact List.cons_ne_nil _ _
  | cons item row ih => exact List.append_ne_nil_of_right_ne_nil _ (ih _)

theorem isLexed_of_mem_tokensFrom {dialect : Dialect} {row : List Item}
    (h : ∀ item ∈ row, item.WellFormed dialect) {line : Line} :
    ∀ token ∈ tokensFrom line row, IsLexed dialect token := by
  induction row generalizing line with
  | nil =>
      intro token htoken
      rw [List.mem_singleton.mp htoken]
      exact .eof line
  | cons item row ih =>
      obtain ⟨hitem, hrow⟩ := List.forall_mem_cons.mp h
      intro token htoken
      rcases List.mem_append.mp htoken with hhead | htail
      · rw [Option.mem_toList, Item.token?_eq hitem, Option.map_eq_some_iff] at hhead
        obtain ⟨kind, hkind, rfl⟩ := hhead
        exact .item hitem hkind line
      · exact ih hrow token htail

theorem isLexed_of_mem_scan {dialect : Dialect} {source : String} {token : Token}
    (h : token ∈ (scan dialect source).tokens) : IsLexed dialect token := by
  rw [scan_eq] at h
  exact isLexed_of_mem_tokensFrom (isCut_items dialect source.toList).wellFormed token
    (List.mem_toArray.mp h)

/-- The text of a token: kind, lexeme and payload with spaces between them. -/
theorem Token.toList_text (token : Token) :
    token.text.toList = token.kind.name.toList ++ ' ' :: (token.lexeme.toList ++ ' ' ::
      (token.payload.elim "null" Payload.text).toList) := by
  simp [text]

theorem Token.text_eq_of_content_eq {a b : Token} (h : a.content = b.content) : a.text = b.text := by
  obtain ⟨hkind, hlexeme, hpayload⟩ := content_eq_iff.mp h
  rw [text, text, hkind, hlexeme, hpayload]

theorem Item.kind_ne_eof_of_kind? {dialect : Dialect} {item : Item} {kind : Kind}
    (h : item.WellFormed dialect) (hkind : item.kind? = some kind) : kind ≠ .eof := by
  have htoken : item.token? .first =
      some ⟨kind, String.ofList item.chars, item.payload?, .first⟩ := by
    rw [token?_eq h, hkind]
    rfl
  exact kind_ne_eof_of_token? htoken

/-- The text of a token shows where it ends. Whatever follows, a scan can yield only
one token, up to its line, with the text. -/
theorem IsLexed.content_eq_of_append {dialect : Dialect} {a b : Token} (ha : IsLexed dialect a)
    (hb : IsLexed dialect b) {x y : List Char} (h : a.text.toList ++ x = b.text.toList ++ y) :
    a.content = b.content ∧ x = y := by
  have hcontent : a.content = b.content := by
    rw [Token.toList_text, Token.toList_text, List.append_assoc, List.append_assoc,
      List.cons_append, List.cons_append] at h
    obtain ⟨hname, hrest⟩ := append_cons_inj_of_not_mem (Kind.space_not_mem_name _)
      (Kind.space_not_mem_name _) h
    have hkind := Kind.name_injective (String.toList_inj.mp hname)
    cases ha with
    | eof line =>
        cases hb with
        | eof line' => rfl
        | item hother hkind' line' =>
            exact absurd hkind.symm (Item.kind_ne_eof_of_kind? hother hkind')
    | @item item kind hitem hkind? line =>
        cases hb with
        | eof line' => exact absurd hkind (Item.kind_ne_eof_of_kind? hitem hkind?)
        | @item other kind' hother hkind?' line' =>
            obtain rfl : kind = kind' := hkind
            simp only [String.toList_ofList, List.append_assoc, List.cons_append] at hrest
            rw [Item.eq_of_append_space hitem hother hkind? hkind?' hrest]
            rfl
  refine ⟨hcontent, ?_⟩
  rw [Token.text_eq_of_content_eq hcontent] at h
  exact List.append_cancel_left h

/-! ## Listings -/

theorem content_eq_of_flatMap_text {dialect : Dialect} {first second : List Token}
    (hfirst : ∀ token ∈ first, IsLexed dialect token)
    (hsecond : ∀ token ∈ second, IsLexed dialect token)
    (h : (first.flatMap fun token => '\n' :: token.text.toList) =
      second.flatMap fun token => '\n' :: token.text.toList) :
    first.map Token.content = second.map Token.content := by
  induction first generalizing second with
  | nil =>
      cases second with
      | nil => rfl
      | cons token second => cases h
  | cons a first ih =>
      cases second with
      | nil => cases h
      | cons b second =>
          obtain ⟨ha, hfirst⟩ := List.forall_mem_cons.mp hfirst
          obtain ⟨hb, hsecond⟩ := List.forall_mem_cons.mp hsecond
          rw [List.flatMap_cons, List.flatMap_cons] at h
          obtain ⟨hcontent, hrest⟩ := ha.content_eq_of_append hb (List.cons.inj h).2
          rw [List.map_cons, List.map_cons, hcontent, ih hfirst hsecond hrest]

/-- Joining texts with a separator is putting it before each of them, up to the first. -/
theorem cons_intercalate {α : Type u} (separator : α) {texts : List (List α)} (h : texts ≠ []) :
    separator :: [separator].intercalate texts = texts.flatMap (separator :: ·) := by
  induction texts with
  | nil => exact absurd rfl h
  | cons text texts ih =>
      cases texts with
      | nil => simp
      | cons next texts =>
          rw [List.intercalate_cons_cons, List.flatMap_cons, ← ih (List.cons_ne_nil _ _)]
          simp

/-- **A listing loses nothing but lines.** The texts of the tokens of two scans,
joined by line feeds, are the same exactly if the scans have equally many tokens
and these agree, one by one, in kind, lexeme and payload. -/
theorem listing_eq_iff {dialect : Dialect} {source other : String} :
    "\n".intercalate ((scan dialect source).tokens.toList.map Token.text) =
        "\n".intercalate ((scan dialect other).tokens.toList.map Token.text) ↔
      (scan dialect source).tokens.toList.map Token.content =
        (scan dialect other).tokens.toList.map Token.content := by
  constructor
  · intro h
    have hlexed (text : String) : ∀ token ∈ (scan dialect text).tokens.toList,
        IsLexed dialect token := by
      rw [toList_tokens_scan]
      exact isLexed_of_mem_tokensFrom (isCut_items dialect text.toList).wellFormed
    have hjoined (text : String) :
        '\n' :: ("\n".intercalate ((scan dialect text).tokens.toList.map Token.text)).toList =
          (scan dialect text).tokens.toList.flatMap fun token => '\n' :: token.text.toList := by
      have hne : ((scan dialect text).tokens.toList.map Token.text).map String.toList ≠ [] := by
        rw [toList_tokens_scan]
        simpa using tokensFrom_ne_nil _ _
      rw [String.toList_intercalate]
      apply (cons_intercalate '\n' hne).trans
      rw [List.flatMap_map, List.flatMap_map]
    apply content_eq_of_flatMap_text (hlexed source) (hlexed other)
    rw [← hjoined, h, hjoined]
  · intro h
    have htexts (tokens : List Token) : tokens.map Token.text = (tokens.map Token.content).map
        fun content => (Token.mk content.1 content.2.1 content.2.2 .first).text := by
      rw [List.map_map]
      rfl
    rw [htexts, h, ← htexts]

end Lox
