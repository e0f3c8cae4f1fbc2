/-
# Maximal munch

The language says what its lexemes look like, and not how they are found. This
module states the rule that finds them without mentioning a reader. At every
point of a source text the longest lexeme is taken that begins there. Where none
begins, a quote takes everything that is left and any other character is taken
alone.

`Munch` is this rule as a relation between a text and its pieces. The main
statement is that it determines the pieces of every text, and that a scan yields
a token or a report for these pieces, in their order, and for nothing else.

Two lexemes of different shapes are never spelled alike, but one may begin with
the other, as a comment does with a slash. That the reader takes the longer one
is `exists_next?_chars_append`: reading where some lexeme begins finds a lexeme
that is at least as long.
-/

import Lox.Proofs.Lexeme

namespace Lox

/-! ## The rule -/

/-- The shapes of text that the language is made of. -/
inductive Shape where
  | blank
  | comment
  | symbol (which : Symbol)
  | string
  | number
  | word

/-- One ASCII digit or more. -/
def IsDigits (text : List Char) : Prop := text ≠ [] ∧ ∀ c ∈ text, c.isDigit = true

/-- The texts of each shape. -/
inductive Spells (dialect : Dialect) : Shape → List Char → Prop where
  | blank {c : Char} (isBlank : c ∈ [' ', '\t', '\r', '\n']) : Spells dialect .blank [c]
  | comment {body : List Char} (oneLine : '\n' ∉ body) :
      Spells dialect .comment ('/' :: '/' :: body)
  | symbol {which : Symbol} (isIn : which.isIn dialect = true) :
      Spells dialect (.symbol which) which.chars
  | string {body : List Char} (noQuote : '"' ∉ body) :
      Spells dialect .string ('"' :: (body ++ ['"']))
  | whole {digits : List Char} (isDigits : IsDigits digits) : Spells dialect .number digits
  | fraction {digits fraction : List Char} (isDigits : IsDigits digits)
      (isFraction : IsDigits fraction) : Spells dialect .number (digits ++ '.' :: fraction)
  | word {c : Char} {letters : List Char} (first : c.isAlpha = true ∨ c = '_')
      (others : ∀ d ∈ letters, d.isAlpha = true ∨ d = '_' ∨ d.isDigit = true) :
      Spells dialect .word (c :: letters)

/-- A text is the longest lexeme at the head of a source text. -/
structure IsLongest (dialect : Dialect) (shape : Shape) (text source : List Char) : Prop where
  spells : Spells dialect shape text
  isPrefix : text <+: source
  longest : ∀ shape' text', Spells dialect shape' text' → text' <+: source →
    text'.length ≤ text.length

/-- No lexeme is at the head of a source text. -/
def NoLexeme (dialect : Dialect) (source : List Char) : Prop :=
  ∀ shape text, Spells dialect shape text → ¬ text <+: source

/-- A piece of a source text. -/
inductive Piece where
  | lexeme (shape : Shape) (text : List Char)
  | unterminated (text : List Char)
  | illegal (c : Char)

namespace Piece

def text : Piece → List Char
  | lexeme _ text => text
  | unterminated text => text
  | illegal c => [c]

/-- The kind and the lexeme of the token for a piece, if there is one. -/
def token? : Piece → Option (Kind × String)
  | lexeme (.symbol which) text => some (.symbol which, String.ofList text)
  | lexeme .string text => some (.string, String.ofList text)
  | lexeme .number text => some (.number, String.ofList text)
  | lexeme .word text =>
      some ((Keyword.ofText? (String.ofList text)).elim .identifier .keyword, String.ofList text)
  | lexeme .blank _ | lexeme .comment _ | unterminated _ | illegal _ => none

/-- The message about a piece, if there is one. -/
def message? : Piece → Option String
  | lexeme _ _ => none
  | unterminated _ => some "Unterminated String"
  | illegal _ => some "Unexpected character."

end Piece

/-- A source text and its pieces, each the longest lexeme where it begins. -/
inductive Munch (dialect : Dialect) : List Char → List Piece → Prop where
  | done : Munch dialect [] []
  | lexeme {source text : List Char} {shape : Shape} {pieces : List Piece}
      (head : IsLongest dialect shape text source)
      (tail : Munch dialect (source.drop text.length) pieces) :
      Munch dialect source (.lexeme shape text :: pieces)
  | unterminated {body : List Char} (head : NoLexeme dialect ('"' :: body)) :
      Munch dialect ('"' :: body) [.unterminated ('"' :: body)]
  | illegal {c : Char} {rest : List Char} {pieces : List Piece}
      (head : NoLexeme dialect (c :: rest)) (noQuote : c ≠ '"')
      (tail : Munch dialect rest pieces) : Munch dialect (c :: rest) (.illegal c :: pieces)

/-! ## Lexemes as items -/

theorem Decimal.length_le_written (whole fraction : List Char) :
    whole.length ≤ (written whole fraction).length := by
  unfold written
  split <;> simp

namespace Item

/-- The shape of an item. A faulty item has none. -/
def shape? : Item → Option Shape
  | blank _ => some .blank
  | comment _ => some .comment
  | symbol which => some (.symbol which)
  | string _ => some .string
  | number _ _ => some .number
  | word _ => some .word
  | unterminated _ | illegal _ => none

/-- An item as a piece of a text. -/
def piece (item : Item) : Piece :=
  match item with
  | unterminated body => .unterminated ('"' :: body)
  | illegal c => .illegal c
  | blank _ => .lexeme .blank item.chars
  | comment _ => .lexeme .comment item.chars
  | symbol which => .lexeme (.symbol which) item.chars
  | string _ => .lexeme .string item.chars
  | number _ _ => .lexeme .number item.chars
  | word _ => .lexeme .word item.chars

theorem piece_of_shape? {item : Item} {shape : Shape} (h : item.shape? = some shape) :
    item.piece = .lexeme shape item.chars := by
  cases item <;> cases h <;> rfl

theorem text_piece (item : Item) : item.piece.text = item.chars := by
  cases item <;> rfl

/-- The characters of an item have the shape of the item. -/
theorem spells_chars {dialect : Dialect} {item : Item} {shape : Shape}
    (h : item.WellFormed dialect) (hshape : item.shape? = some shape) :
    Spells dialect shape item.chars := by
  cases item with
  | blank c => cases hshape; exact .blank (isBlank_iff.mp h)
  | comment body => cases hshape; exact .comment h
  | symbol which => cases hshape; exact .symbol h
  | string body => cases hshape; exact .string h
  | number whole fraction =>
      cases hshape
      obtain ⟨hne, hwhole, hfraction⟩ := h
      show Spells dialect .number (Decimal.written whole fraction)
      unfold Decimal.written
      split
      next => exact .whole ⟨hne, hwhole⟩
      next hempty => exact .fraction ⟨hne, hwhole⟩ ⟨hempty, hfraction⟩
  | word letters =>
      cases hshape
      cases letters with
      | nil => exact h.elim
      | cons c letters =>
          exact .word (startsWord_iff.mp h.1) fun d hd => continuesWord_iff.mp (h.2 d hd)
  | unterminated body | illegal c => cases hshape

/-- Every lexeme consists of the characters of an item. -/
theorem exists_item_of_spells {dialect : Dialect} {shape : Shape} {text : List Char}
    (h : Spells dialect shape text) :
    ∃ item : Item, item.WellFormed dialect ∧ item.shape? = some shape ∧ item.chars = text := by
  cases h with
  | blank hblank => exact ⟨.blank _, isBlank_iff.mpr hblank, rfl, rfl⟩
  | comment hline => exact ⟨.comment _, hline, rfl, rfl⟩
  | symbol hin => exact ⟨.symbol _, hin, rfl, rfl⟩
  | string hquote => exact ⟨.string _, hquote, rfl, rfl⟩
  | whole hdigits => exact ⟨.number text [], ⟨hdigits.1, hdigits.2, by simp⟩, rfl, rfl⟩
  | @fraction digits fraction hdigits hfraction =>
      exact ⟨.number digits fraction, ⟨hdigits.1, hdigits.2, hfraction.2⟩, rfl, if_neg hfraction.1⟩
  | @word c letters hfirst hothers =>
      exact ⟨.word (c :: letters), ⟨startsWord_iff.mpr hfirst,
        fun d hd => continuesWord_iff.mpr (hothers d hd)⟩, rfl, rfl⟩

/-- What is read at a digit begins with all digits up to the first other character. -/
theorem exists_next?_of_isDigit (dialect : Dialect) {c : Char} (h : c.isDigit = true)
    (rest : List Char) :
    ∃ fraction left, next? dialect (c :: rest) =
      some (number ((c :: rest).takeWhile Char.isDigit) fraction, left) := by
  simp only [next?, startingWith_of_isDigit h, numberAt]
  split
  · split <;> exact ⟨_, _, rfl⟩
  · exact ⟨_, _, rfl⟩

/-- A reader finds a whole lexeme wherever one begins, or a longer one. -/
theorem exists_next?_chars_append {dialect : Dialect} {item : Item} (h : item.WellFormed dialect)
    (hshape : item.shape?.isSome) (more : List Char) :
    ∃ read left, next? dialect (item.chars ++ more) = some (read, left) ∧
      read.shape?.isSome ∧ item.chars.length ≤ read.chars.length := by
  cases item with
  | blank c => exact ⟨_, _, next?_chars_append ⟨h, trivial⟩, rfl, Nat.le_refl _⟩
  | string body => exact ⟨_, _, next?_chars_append ⟨h, trivial⟩, rfl, Nat.le_refl _⟩
  | comment body =>
      have hbody : ∀ c ∈ body, (c != '\n') = true := bne_of_not_mem h
      refine ⟨_, _, congrArg some startingWith_slashes, rfl, ?_⟩
      simp [chars, List.takeWhile_append_of_pos hbody]
  | symbol which =>
      by_cases hlonger : ∃ c ∈ more.head?, which.growsWith c
      case neg =>
        have hend : (symbol which).EndsBefore more := by
          intro c hc hgrows
          exact hlonger ⟨c, hc, hgrows⟩
        exact ⟨_, _, next?_chars_append ⟨h, hend⟩, rfl, Nat.le_refl _⟩
      -- The symbol grows into its double, or a slash into a comment.
      obtain ⟨c, hc, hgrows⟩ := hlonger
      obtain ⟨left, rfl⟩ := List.head?_eq_some_iff.mp hc
      rcases hgrows with ⟨hsome, rfl⟩ | ⟨rfl, rfl⟩
      · obtain ⟨double, hdouble⟩ := Option.isSome_iff_exists.mp hsome
        have hchars := Symbol.chars_withEqual hdouble
        have hstands : (symbol double).StandsBefore dialect left :=
          ⟨(Symbol.isIn_of_withEqual? dialect hdouble).2,
            fun d _ => Symbol.not_growsWith_of_withEqual? hdouble d⟩
        refine ⟨symbol double, left, ?_, rfl, by simp [chars, hchars]⟩
        simpa [chars, hchars] using next?_chars_append hstands
      · exact ⟨_, _, congrArg some startingWith_slashes, rfl, by simp [chars, Symbol.chars]⟩
  | number whole fraction =>
      obtain ⟨hne, hwhole, hfraction⟩ := h
      by_cases hempty : fraction = []
      · subst hempty
        obtain ⟨d, digits, rfl⟩ := List.exists_cons_of_ne_nil hne
        obtain ⟨fraction, left, hread⟩ :=
          exists_next?_of_isDigit dialect (hwhole d (by simp)) (digits ++ more)
        have htake : (d :: digits ++ more).takeWhile Char.isDigit =
            d :: digits ++ more.takeWhile Char.isDigit := List.takeWhile_append_of_pos hwhole
        refine ⟨_, left, hread, rfl, ?_⟩
        calc (d :: digits).length
            ≤ ((d :: digits ++ more).takeWhile Char.isDigit).length := by rw [htake]; simp
          _ ≤ _ := Decimal.length_le_written _ _
      · have hstands : (number whole (fraction ++ more.takeWhile Char.isDigit)).StandsBefore
            dialect (more.dropWhile Char.isDigit) := by
          refine ⟨⟨hne, hwhole, ?_⟩, stop_of_dropWhile, by simp [hempty]⟩
          intro c hc
          rcases List.mem_append.mp hc with hold | hmore
          · exact hfraction c hold
          · exact of_mem_takeWhile hmore
        have hread : next? dialect ((number whole fraction).chars ++ more) =
            some (number whole (fraction ++ more.takeWhile Char.isDigit),
              more.dropWhile Char.isDigit) := by
          simpa [chars, Decimal.written, hempty] using next?_chars_append hstands
        exact ⟨_, _, hread, rfl, by simp [chars, Decimal.written, hempty]⟩
  | word letters =>
      cases letters with
      | nil => exact h.elim
      | cons c letters =>
          refine ⟨_, _, congrArg some (startingWith_of_startsWord h.1), rfl, ?_⟩
          simp [chars, List.takeWhile_append_of_pos h.2]
  | unterminated body | illegal c => cases hshape

section Heads

variable {dialect : Dialect} {item : Item} {rest : List Char}

/-- An item that stands before a text is the longest lexeme there. -/
theorem isLongest_of_standsBefore (h : item.StandsBefore dialect rest) {shape : Shape}
    (hshape : item.shape? = some shape) :
    IsLongest dialect shape item.chars (item.chars ++ rest) := by
  refine ⟨spells_chars h.wellFormed hshape, List.prefix_append _ _, ?_⟩
  intro shape' text' hspells hprefix
  obtain ⟨other, hother, hshape', rfl⟩ := exists_item_of_spells hspells
  obtain ⟨more, hmore⟩ := hprefix
  obtain ⟨read, left, hread, -, hle⟩ :=
    exists_next?_chars_append hother (Option.isSome_of_mem hshape') more
  rw [hmore, next?_chars_append h] at hread
  cases hread
  exact hle

/-- No lexeme begins where a faulty item stands. -/
theorem noLexeme_of_standsBefore (h : item.StandsBefore dialect rest)
    (hshape : item.shape? = none) : NoLexeme dialect (item.chars ++ rest) := by
  intro shape text hspells hprefix
  obtain ⟨other, hother, hshape', rfl⟩ := exists_item_of_spells hspells
  obtain ⟨more, hmore⟩ := hprefix
  obtain ⟨read, left, hread, hsome, -⟩ :=
    exists_next?_chars_append hother (Option.isSome_of_mem hshape') more
  rw [hmore, next?_chars_append h] at hread
  cases hread
  simp [hshape] at hsome

end Heads

theorem token?_piece {dialect : Dialect} {item : Item} (h : item.WellFormed dialect)
    (line : Line) :
    (item.token? line).map (fun token => (token.kind, token.lexeme)) = item.piece.token? := by
  rw [token?_eq h]
  cases item <;> rfl

theorem message?_piece (item : Item) (line : Line) :
    (item.diagnostic? line).map Diagnostic.message = item.piece.message? := by
  cases item <;> rfl

end Item

/-! ## The rule determines the pieces -/

theorem Spells.ne_nil {dialect : Dialect} {shape : Shape} {text : List Char}
    (h : Spells dialect shape text) : text ≠ [] := by
  obtain ⟨item, hitem, -, rfl⟩ := Item.exists_item_of_spells h
  exact Item.chars_ne_nil_of_wellFormed hitem

/-- A text has one shape at most. -/
theorem Spells.shape_unique {dialect : Dialect} {first second : Shape} {text : List Char}
    (hfirst : Spells dialect first text) (hsecond : Spells dialect second text) :
    first = second := by
  obtain ⟨item, hitem, hshape, hchars⟩ := Item.exists_item_of_spells hfirst
  obtain ⟨other, hother, hshape', hchars'⟩ := Item.exists_item_of_spells hsecond
  obtain rfl := Item.eq_of_chars_eq hitem hother (hchars.trans hchars'.symm)
  exact Option.some.inj (hshape.symm.trans hshape')

theorem IsLongest.unique {dialect : Dialect} {first second : Shape} {text other source : List Char}
    (hfirst : IsLongest dialect first text source)
    (hsecond : IsLongest dialect second other source) : first = second ∧ text = other := by
  have hle := hfirst.longest second other hsecond.spells hsecond.isPrefix
  have hge := hsecond.longest first text hfirst.spells hfirst.isPrefix
  have htext : text = other :=
    (List.prefix_of_prefix_length_le hfirst.isPrefix hsecond.isPrefix hge).eq_of_length
      (Nat.le_antisymm hge hle)
  subst htext
  exact ⟨hfirst.spells.shape_unique hsecond.spells, rfl⟩

/-- The rule leaves no choice. -/
theorem Munch.unique {dialect : Dialect} {source : List Char} {pieces other : List Piece}
    (h : Munch dialect source pieces) (hother : Munch dialect source other) : other = pieces := by
  induction h generalizing other with
  | done =>
      cases hother with
      | done => rfl
      | lexeme head _ => exact absurd (List.prefix_nil.mp head.isPrefix) head.spells.ne_nil
  | lexeme head _ ih =>
      cases hother with
      | done => exact absurd (List.prefix_nil.mp head.isPrefix) head.spells.ne_nil
      | lexeme head' tail' =>
          obtain ⟨rfl, rfl⟩ := head.unique head'
          rw [ih tail']
      | unterminated head' => exact absurd head.isPrefix (head' _ _ head.spells)
      | illegal head' _ _ => exact absurd head.isPrefix (head' _ _ head.spells)
  | unterminated head =>
      cases hother with
      | lexeme head' _ => exact absurd head'.isPrefix (head _ _ head'.spells)
      | unterminated _ => rfl
      | illegal _ noQuote _ => exact absurd rfl noQuote
  | illegal head noQuote _ ih =>
      cases hother with
      | lexeme head' _ => exact absurd head'.isPrefix (head _ _ head'.spells)
      | unterminated _ => exact absurd rfl noQuote
      | illegal _ _ tail' => rw [ih tail']

/-! ## A scan follows the rule -/

/-- The items of a text are pieces that follow the rule. -/
theorem munch_of_isCut {dialect : Dialect} {row : List Item} (h : IsCut dialect row) :
    Munch dialect (row.flatMap Item.chars) (row.map Item.piece) := by
  induction row with
  | nil => exact .done
  | cons item row ih =>
      obtain ⟨hstands, hrow⟩ := h
      rw [List.flatMap_cons, List.map_cons]
      cases hshape : item.shape? with
      | some shape =>
          rw [Item.piece_of_shape? hshape]
          refine .lexeme (Item.isLongest_of_standsBefore hstands hshape) ?_
          rw [List.drop_left]
          exact ih hrow
      | none =>
          have hnone := Item.noLexeme_of_standsBefore hstands hshape
          cases item with
          | unterminated body =>
              obtain rfl := hrow.eq_nil hstands.endsBefore
              rw [List.flatMap_nil, List.append_nil] at hnone ⊢
              exact .unterminated hnone
          | illegal c => exact .illegal hnone hstands.wellFormed.1.ne_quote (ih hrow)
          | _ => cases hshape

theorem map_tokensFrom {dialect : Dialect} {row : List Item}
    (h : ∀ item ∈ row, item.WellFormed dialect) (line : Line) :
    (tokensFrom line row).map (fun token => (token.kind, token.lexeme)) =
      (row.map Item.piece).filterMap Piece.token? ++ [(.eof, "")] := by
  induction row generalizing line with
  | nil => rfl
  | cons item row ih =>
      obtain ⟨hitem, hrow⟩ := List.forall_mem_cons.mp h
      have hhead := Item.token?_piece hitem line
      rw [tokensFrom, List.map_append, ih hrow, List.map_cons, List.filterMap_cons, ← hhead]
      cases item.token? line <;> rfl

theorem map_diagnosticsFrom (row : List Item) (line : Line) :
    (diagnosticsFrom line row).map Diagnostic.message =
      (row.map Item.piece).filterMap Piece.message? := by
  induction row generalizing line with
  | nil => rfl
  | cons item row ih =>
      have hhead := Item.message?_piece item line
      rw [diagnosticsFrom, List.map_append, ih, List.map_cons, List.filterMap_cons, ← hhead]
      cases item.diagnostic? line <;> rfl

/-- **Maximal munch.** Every source text has exactly one row of pieces in which
each piece is the longest lexeme where it begins, or stands where no lexeme
begins. The pieces are not empty and make up the text. A scan yields their
tokens, then the token for the end, and reports the faults among them. -/
theorem scan_maximalMunch (dialect : Dialect) (source : String) :
    ∃ pieces : List Piece,
      (∀ other, Munch dialect source.toList other ↔ other = pieces) ∧
      pieces.flatMap Piece.text = source.toList ∧
      (∀ piece ∈ pieces, piece.text ≠ []) ∧
      (scan dialect source).tokens.toList.map (fun token => (token.kind, token.lexeme)) =
        pieces.filterMap Piece.token? ++ [(.eof, "")] ∧
      (scan dialect source).state.entries.toList.map Diagnostic.message =
        pieces.filterMap Piece.message? := by
  have hcut := isCut_items dialect source.toList
  have htext := flatMap_chars_items dialect source.toList
  have hmunch := munch_of_isCut hcut
  rw [htext] at hmunch
  refine ⟨(items dialect source.toList).map Item.piece, ?_, ?_, ?_, ?_, ?_⟩
  · intro other
    exact ⟨hmunch.unique, fun h => h ▸ hmunch⟩
  · rw [List.flatMap_map]
    simpa only [Item.text_piece] using htext
  · intro piece hpiece
    obtain ⟨item, hitem, rfl⟩ := List.mem_map.mp hpiece
    rw [Item.text_piece]
    exact Item.chars_ne_nil_of_wellFormed (hcut.wellFormed item hitem)
  · rw [scan_eq]
    exact map_tokensFrom hcut.wellFormed .first
  · rw [scan_eq]
    exact map_diagnosticsFrom _ .first

end Lox
