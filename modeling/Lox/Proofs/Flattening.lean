/-
# Reading a printed expression

An expression is printed with a bracket around each node that has children, and its
printed form is a text of the language too. Scanned, it is the row of tokens that is
got by flattening the tree: nothing is lost, and no two pieces that were printed
side by side are read as one.

Printed expressions are set into longer texts, so what is proved of one speaks of
every text that may follow it. In print that is a space or a closing bracket, and
`Splices` says that either ends whatever has been read.
-/

import Lox.Expr.Text
import Lox.Proofs.Plain
import Lox.Proofs.Rendering

namespace Lox

/-! ## Flattening -/

/-- The token for a symbol on the first line. -/
def Symbol.token (which : Symbol) : Token :=
  ⟨.symbol which, String.ofList which.chars, none, .first⟩

/-- The token for a reserved word on the first line. -/
def Keyword.token (keyword : Keyword) : Token := ⟨.keyword keyword, keyword.text, none, .first⟩

/-- The token for a literal on the first line. -/
def Value.token : Value → Token
  | number x => ⟨.number, (number x).text, some (.num x), .first⟩
  | str body => ⟨.string, "\"" ++ body ++ "\"", some (.str body), .first⟩
  | boolean true => Keyword.token .trueKw
  | boolean false => Keyword.token .falseKw
  | nil => Keyword.token .nilKw

namespace Expr

/-- The tokens of a name and those of some children in brackets. -/
def enclosed (name : List Token) (children : List (List Token)) : List Token :=
  Symbol.token .leftParen :: (name ++ children.flatten ++ [Symbol.token .rightParen])

/-- The tokens of an expression, each node before its children. -/
def flattened : Expr → List Token
  | binary left operator right =>
    enclosed [⟨operator.kind, operator.lexeme, none, .first⟩] [left.flattened, right.flattened]
  | grouping inner => enclosed [⟨.identifier, "group", none, .first⟩] [inner.flattened]
  | literal value => [value.token]
  | unary operator operand =>
    enclosed [⟨operator.kind, operator.lexeme, none, .first⟩] [operand.flattened]
  | ternary _ condition thenBranch _ elseBranch =>
    enclosed [Symbol.token .question, Symbol.token .colon]
      [condition.flattened, thenBranch.flattened, elseBranch.flattened]

end Expr

/-- The symbols that are operators with one or two operands. -/
def Symbol.operators : List Symbol :=
  [minus, plus, slash, star, bang, bangEqual, equal, equalEqual, greater, greaterEqual, less,
   lessEqual]

/-- Whether a token comes from a scan and is that of one of the given symbols. -/
def Token.IsOneOf (symbols : List Symbol) (token : Token) : Prop :=
  (∃ dialect, Scanned dialect token) ∧ ∃ which ∈ symbols, token.kind = .symbol which

/-- The expressions that are printed as a text of the language: their operators are
scanned tokens, and their literals are nil, truth values and finite numbers without
a sign. -/
inductive Expr.IsReadable : Expr → Prop where
  | nil : IsReadable (.literal .nil)
  | boolean (b : Bool) : IsReadable (.literal (.boolean b))
  | number {x : Binary64} (hfinite : x.isFinite = true) (hpositive : x.negative = false) :
      IsReadable (.literal (.number x))
  | grouping {inner : Expr} (hinner : inner.IsReadable) : IsReadable (.grouping inner)
  | unary {operator : Token} {operand : Expr} (hoperator : operator.IsOneOf Symbol.operators)
      (hoperand : operand.IsReadable) : IsReadable (.unary operator operand)
  | binary {left right : Expr} {operator : Token} (hleft : left.IsReadable)
      (hoperator : operator.IsOneOf Symbol.operators) (hright : right.IsReadable) :
      IsReadable (.binary left operator right)
  | ternary {question colon : Token} {condition thenBranch elseBranch : Expr}
      (hquestion : question.IsOneOf [.question]) (hcondition : condition.IsReadable)
      (hthen : thenBranch.IsReadable) (hcolon : colon.IsOneOf [.colon])
      (helse : elseBranch.IsReadable) :
      IsReadable (.ternary question condition thenBranch colon elseBranch)

/-! ## Reading on the first line -/

/-- Whether reading a text as far as the given rest of it yields some tokens on the
first line, and no report. -/
structure ReadsTo (source : List Char) (read : List Token) (rest : List Char) : Prop where
  tokens_eq : tokensFrom .first (items ⟨true⟩ source) =
    read ++ tokensFrom .first (items ⟨true⟩ rest)
  diagnostics_eq : diagnosticsFrom .first (items ⟨true⟩ source) =
    diagnosticsFrom .first (items ⟨true⟩ rest)

namespace ReadsTo

variable {source middle rest : List Char}

protected theorem refl (source : List Char) : ReadsTo source [] source := ⟨rfl, rfl⟩

protected theorem trans {first second : List Token} (h : ReadsTo source first middle)
    (h' : ReadsTo middle second rest) : ReadsTo source (first ++ second) rest := by
  constructor
  · rw [h.tokens_eq, h'.tokens_eq, List.append_assoc]
  · rw [h.diagnostics_eq, h'.diagnostics_eq]

theorem space (rest : List Char) : ReadsTo (' ' :: rest) [] rest := by
  have hnext : Item.next? ⟨true⟩ (' ' :: rest) = some (.blank ' ', rest) := rfl
  constructor <;> rw [items_of_next?_eq_some hnext] <;> rfl

/-- An item of one line that has a token is read as that token. -/
theorem item {item : Item} {kind : Kind} (h : item.StandsBefore ⟨true⟩ rest)
    (hkind : item.kind? = some kind) (hline : '\n' ∉ item.chars) :
    ReadsTo (item.chars ++ rest)
      [⟨kind, String.ofList item.chars, item.payload?, .first⟩] rest := by
  have hafter : Line.first.after item.chars = .first := by
    rw [Line.after, Line.breaks, List.count_eq_zero.mpr hline]
    rfl
  have hitems := items_of_next?_eq_some (Item.next?_chars_append h)
  constructor
  · rw [hitems, tokensFrom, Item.token?_eq h.wellFormed, hkind, hafter]
    rfl
  · rw [hitems, diagnosticsFrom, Item.diagnostic?_eq_none_of_kind? hkind, hafter]
    rfl

/-- A symbol is read where nothing makes it longer. -/
theorem symbol {which : Symbol} (h : ∀ c ∈ rest.head?, ¬ which.growsWith c) :
    ReadsTo (which.chars ++ rest) [which.token] rest := by
  have hwf : (Item.symbol which).WellFormed ⟨true⟩ := by cases which <;> rfl
  have hline : '\n' ∉ which.chars := by cases which <;> decide
  exact item ⟨hwf, h⟩ rfl hline

/-- Most symbols are read whatever follows them. -/
theorem symbol_alone {which : Symbol} (hequal : which.withEqual? = none) (hslash : which ≠ .slash) :
    ReadsTo (which.chars ++ rest) [which.token] rest := by
  apply symbol
  rintro c - (⟨hsome, -⟩ | ⟨rfl, -⟩)
  · rw [hequal] at hsome
    cases hsome
  · exact hslash rfl

end ReadsTo

/-- Whether a text is read as some tokens wherever a space or a closing bracket or
nothing follows it. -/
def Splices (text : List Char) (read : List Token) : Prop :=
  ∀ rest : List Char, (∀ c ∈ rest.head?, c ∈ [' ', ')']) → ReadsTo (text ++ rest) read rest

theorem not_continuesWord_of_stop {c : Char} (h : c ∈ [' ', ')']) : continuesWord c = false := by
  rw [List.mem_cons, List.mem_singleton] at h
  rcases h with rfl | rfl <;> rfl

namespace Splices

theorem item {item : Item} {kind : Kind} (hwf : item.WellFormed ⟨true⟩)
    (hends : ∀ rest : List Char, (∀ c ∈ rest.head?, c ∈ [' ', ')']) → item.EndsBefore rest)
    (hkind : item.kind? = some kind) (hline : '\n' ∉ item.chars) :
    Splices item.chars [⟨kind, String.ofList item.chars, item.payload?, .first⟩] :=
  fun rest hrest => .item ⟨hwf, hends rest hrest⟩ hkind hline

theorem symbol (which : Symbol) : Splices which.chars [which.token] := by
  intro rest hrest
  refine .symbol fun c hc hgrows => ?_
  have hstop := hrest c hc
  rcases hgrows with ⟨-, rfl⟩ | ⟨-, rfl⟩ <;> simp at hstop

theorem word {letters : List Char} {kind : Kind} (hwf : (Item.word letters).WellFormed ⟨true⟩)
    (hkind : (Item.word letters).kind? = some kind) :
    Splices letters [⟨kind, String.ofList letters, none, .first⟩] := by
  have hline : '\n' ∉ letters := by
    intro hmem
    cases Item.continuesWord_of_mem_word hwf _ hmem
  exact item hwf (fun rest hrest c hc => not_continuesWord_of_stop (hrest c hc)) hkind hline

theorem keyword (keyword : Keyword) : Splices keyword.text.toList [keyword.token] := by
  have hword := word (keyword.wellFormed_word ⟨true⟩) keyword.kind?_word
  rwa [String.ofList_toList] at hword

theorem numeral (numeral : Numeral) :
    Splices (Decimal.written numeral.whole numeral.fraction)
      [⟨.number, numeral.text, some (.num numeral.rounded), .first⟩] := by
  refine item (numeral.wellFormed_item _) (fun rest hrest => ⟨?_, ?_⟩) rfl numeral.newline_not_mem
  · intro c hc
    have hstop := not_continuesWord_of_stop (hrest c hc)
    exact Bool.eq_false_of_not_eq_true fun hdigit => by
      rw [continuesWord_of_isDigit hdigit] at hstop
      cases hstop
  · intro hfraction hpoint
    have hstop := hrest '.' hpoint
    simp at hstop

section Children

variable {children : List (List Char)} {childTokens : List (List Token)}

/-- Behind a name or a child comes the space before the next child, or the bracket. -/
theorem stop_of_children (children : List (List Char)) (rest : List Char) :
    ∀ c ∈ (children.flatMap (' ' :: ·) ++ ')' :: rest).head?, c ∈ [' ', ')'] := by
  cases children <;> simp

theorem readsTo_children (h : List.Forall₂ Splices children childTokens) (rest : List Char) :
    ReadsTo (children.flatMap (' ' :: ·) ++ ')' :: rest) childTokens.flatten (')' :: rest) := by
  induction h with
  | nil => exact .refl _
  | cons hchild hothers ih =>
      have hread := (ReadsTo.space _).trans ((hchild _ (stop_of_children _ rest)).trans ih)
      simpa using hread

/-- A name and some children in brackets are read as their tokens in brackets. -/
theorem bracketed {name : List Char} {nameTokens : List Token} (hname : Splices name nameTokens)
    (hchildren : List.Forall₂ Splices children childTokens) :
    Splices (Expr.bracketed name children) (Expr.enclosed nameTokens childTokens) := by
  intro rest hrest
  have hopen (following : List Char) : ReadsTo (Symbol.leftParen.chars ++ following)
      [Symbol.token .leftParen] following := .symbol_alone rfl nofun
  have hclose : ReadsTo (Symbol.rightParen.chars ++ rest) [Symbol.token .rightParen] rest :=
    .symbol_alone rfl nofun
  have hread := (hopen _).trans ((hname _ (stop_of_children children rest)).trans
    ((readsTo_children hchildren rest).trans hclose))
  simpa [Expr.bracketed, Expr.enclosed, Symbol.chars] using hread

end Children

end Splices

/-! ## Printed expressions -/

theorem Item.eq_symbol_of_kind? {item : Item} {which : Symbol}
    (h : item.kind? = some (.symbol which)) : item = .symbol which := by
  cases item with
  | symbol other =>
      cases h
      rfl
  | word letters =>
      have hkind := Option.some.inj h
      cases hword : Keyword.ofText? (String.ofList letters) <;> simp [hword] at hkind
  | _ => cases h

/-- A scanned token of a symbol is the one token of the symbol, up to its line. -/
theorem Token.IsOneOf.exists_content {symbols : List Symbol} {token : Token}
    (h : token.IsOneOf symbols) : ∃ which ∈ symbols, token.content = which.token.content := by
  obtain ⟨⟨dialect, -, source, htoken⟩, which, hwhich, hkind⟩ := h
  refine ⟨which, hwhich, ?_⟩
  cases isLexed_of_mem_scan htoken with
  | eof line => cases hkind
  | @item item kind hitem hitemKind line =>
      obtain rfl : kind = .symbol which := hkind
      rw [Item.eq_symbol_of_kind? hitemKind]
      rfl

theorem Token.IsOneOf.exists_symbol {symbols : List Symbol} {token : Token}
    (h : token.IsOneOf symbols) : ∃ which ∈ symbols, token.kind = .symbol which ∧
      token.lexeme = String.ofList which.chars := by
  obtain ⟨which, hwhich, hcontent⟩ := h.exists_content
  obtain ⟨hkind, hlexeme, -⟩ := Token.content_eq_iff.mp hcontent
  exact ⟨which, hwhich, hkind, hlexeme⟩

/-- The token of an operator is read where its lexeme is printed. -/
theorem Token.IsOneOf.splices {symbols : List Symbol} {token : Token} (h : token.IsOneOf symbols) :
    Splices token.lexeme.toList [⟨token.kind, token.lexeme, none, .first⟩] := by
  obtain ⟨which, -, hkind, hlexeme⟩ := h.exists_symbol
  rw [hkind, hlexeme, String.toList_ofList]
  exact .symbol which

/-- Nothing stands between the two operators of a ternary, and they are two. -/
theorem splices_ternary {question colon : Token} (hquestion : question.IsOneOf [.question])
    (hcolon : colon.IsOneOf [.colon]) :
    Splices (question.lexeme.toList ++ colon.lexeme.toList)
      [Symbol.token .question, Symbol.token .colon] := by
  obtain ⟨_, hmem, -, hquestion⟩ := hquestion.exists_symbol
  obtain ⟨_, hmem', -, hcolon⟩ := hcolon.exists_symbol
  rw [List.mem_singleton.mp hmem] at hquestion
  rw [List.mem_singleton.mp hmem'] at hcolon
  intro rest hrest
  have hfirst (following : List Char) : ReadsTo (Symbol.question.chars ++ following)
      [Symbol.token .question] following := .symbol_alone rfl nofun
  rw [hquestion, hcolon, String.toList_ofList, String.toList_ofList, List.append_assoc]
  exact (hfirst _).trans (Splices.symbol .colon rest hrest)

/-- Printed expressions are read as their tokens. -/
theorem Expr.IsReadable.splices {expr : Expr} (h : expr.IsReadable) :
    Splices expr.chars expr.flattened := by
  induction h with
  | nil => exact .keyword .nilKw
  | boolean b =>
      cases b
      · exact .keyword .falseKw
      · exact .keyword .trueKw
  | @number x hfinite hpositive =>
      obtain ⟨numeral, hchars, rfl⟩ := Binary64.exists_numeral_of_plain hpositive hfinite
      have htext : (Value.number numeral.rounded).text = numeral.text :=
        congrArg String.ofList hchars
      rw [Expr.flattened, Value.token, htext, Expr.chars, Value.chars, hchars]
      exact .numeral numeral
  | grouping hinner ih =>
      exact .bracketed (.word (Item.wellFormed_word _ rfl rfl) rfl) (.cons ih .nil)
  | unary hoperator hoperand ih => exact .bracketed hoperator.splices (.cons ih .nil)
  | binary hleft hoperator hright ihLeft ihRight =>
      exact .bracketed hoperator.splices (.cons ihLeft (.cons ihRight .nil))
  | ternary hquestion hcondition hthen hcolon helse ihCondition ihThen ihElse =>
      exact .bracketed (splices_ternary hquestion hcolon)
        (.cons ihCondition (.cons ihThen (.cons ihElse .nil)))

/-- **Scanning undoes printing.** The printed form of an expression, of any depth, is
scanned without a report to the tokens of the flattened tree, on one line. -/
theorem scan_printed {expr : Expr} (h : expr.IsReadable) :
    scan ⟨true⟩ expr.text = ⟨(expr.flattened ++ [Token.eof ⟨1⟩]).toArray, .empty⟩ := by
  have hread := h.splices [] nofun
  rw [List.append_nil] at hread
  rw [scan_eq, tokens, diagnostics, Expr.text_eq, String.toList_ofList, hread.tokens_eq,
    hread.diagnostics_eq, items_nil]
  rfl

/-- A ternary over the other nodes, its operators from scans of other texts. Printed, it
is `(?: true (<= (! nil) (group 45.67)) 1)`. -/
theorem scan_printed_nested :
    scan ⟨true⟩ (Expr.text (.ternary ⟨.symbol .question, "?", none, ⟨1⟩⟩
      (.literal (.boolean true))
      (.binary (.unary ⟨.symbol .bang, "!", none, ⟨2⟩⟩ (.literal .nil))
        ⟨.symbol .lessEqual, "<=", none, ⟨1⟩⟩
        (.grouping (.literal (.number (.ofBits 0x4046D5C28F5C28F6)))))
      ⟨.symbol .colon, ":", none, ⟨1⟩⟩ (.literal (.number (.ofBits 0x3FF0000000000000))))) =
    ⟨#[Symbol.token .leftParen, Symbol.token .question, Symbol.token .colon,
        Keyword.token .trueKw, Symbol.token .leftParen, Symbol.token .lessEqual,
        Symbol.token .leftParen, Symbol.token .bang, Keyword.token .nilKw,
        Symbol.token .rightParen, Symbol.token .leftParen, ⟨.identifier, "group", none, ⟨1⟩⟩,
        ⟨.number, "45.67", some (.num (.ofBits 0x4046D5C28F5C28F6)), ⟨1⟩⟩,
        Symbol.token .rightParen, Symbol.token .rightParen,
        ⟨.number, "1", some (.num (.ofBits 0x3FF0000000000000)), ⟨1⟩⟩,
        Symbol.token .rightParen, .eof ⟨1⟩], .empty⟩ := by
  have hquestion : Token.IsOneOf [.question] ⟨.symbol .question, "?", none, ⟨1⟩⟩ :=
    ⟨⟨⟨true⟩, by decide, "a?b:c", by decide +kernel⟩, .question, by decide, rfl⟩
  have hcolon : Token.IsOneOf [.colon] ⟨.symbol .colon, ":", none, ⟨1⟩⟩ :=
    ⟨⟨⟨true⟩, by decide, "a?b:c", by decide +kernel⟩, .colon, by decide, rfl⟩
  have hbang : Token.IsOneOf Symbol.operators ⟨.symbol .bang, "!", none, ⟨2⟩⟩ :=
    ⟨⟨⟨false⟩, by decide, "\n!!=", by decide +kernel⟩, .bang, by decide, rfl⟩
  have hlessEqual : Token.IsOneOf Symbol.operators ⟨.symbol .lessEqual, "<=", none, ⟨1⟩⟩ :=
    ⟨⟨⟨false⟩, by decide, "<==", by decide +kernel⟩, .lessEqual, by decide, rfl⟩
  have hnumber : Binary64.isFinite (.ofBits 0x4046D5C28F5C28F6) = true := by decide
  have hone : Binary64.isFinite (.ofBits 0x3FF0000000000000) = true := by decide
  refine (scan_printed (.ternary hquestion (.boolean true)
    (.binary (.unary hbang .nil) hlessEqual (.grouping (.number hnumber rfl))) hcolon
    (.number hone rfl))).trans (congrArg (Scan.mk · Log.empty) ?_)
  decide +kernel

end Lox
