/-
# Printed expressions are uniquely readable

A printed expression is a text in which names, literals, spaces and brackets follow
each other with nothing to mark where an operand ends. Unless there are strings in it, the tree
can be told from the text.

Neither a name nor a literal has a space or a bracket in it, so each of them ends where
one of these follows. That a text is read in one way as far as an expression goes is then proved
for every text that may follow it, from the children to the node. The name of a node and the
number of its children say which node it is: only a grouping and a unary operator
have equally many children, and no operator is written as a word.

Different numbers are written differently, except that all NaNs are written alike
(`Binary64.chars_plain_eq_iff`).
-/

import Lox.Proofs.Flattening

namespace Lox

/-! ## Sameness -/

/-- Whether two literals are the same, up to the bits of NaNs. -/
def Value.Same : Value → Value → Prop
  | number x, number y => x.Same y
  | value, other => value = other

/-- Whether two expressions are the same node for node, up to the lines of their
tokens and the bits of NaNs. -/
inductive Expr.Same : Expr → Expr → Prop where
  | literal {value other : Value} (hvalue : value.Same other) :
      Same (.literal value) (.literal other)
  | grouping {inner inner' : Expr} (hinner : inner.Same inner') :
      Same (.grouping inner) (.grouping inner')
  | unary {operator operator' : Token} {operand operand' : Expr}
      (hoperator : operator.content = operator'.content) (hoperand : operand.Same operand') :
      Same (.unary operator operand) (.unary operator' operand')
  | binary {left left' right right' : Expr} {operator operator' : Token} (hleft : left.Same left')
      (hoperator : operator.content = operator'.content) (hright : right.Same right') :
      Same (.binary left operator right) (.binary left' operator' right')
  | ternary {question question' colon colon' : Token}
      {condition condition' thenBranch thenBranch' elseBranch elseBranch' : Expr}
      (hquestion : question.content = question'.content) (hcondition : condition.Same condition')
      (hthen : thenBranch.Same thenBranch') (hcolon : colon.content = colon'.content)
      (helse : elseBranch.Same elseBranch') :
      Same (.ternary question condition thenBranch colon elseBranch)
        (.ternary question' condition' thenBranch' colon' elseBranch')

/-- The expressions without strings. Their literals are numbers, truth values and nil, and
their operators are scanned tokens. -/
inductive Expr.IsStringless : Expr → Prop where
  | literal {value : Value} (hvalue : ∀ body, value ≠ .str body) : IsStringless (.literal value)
  | grouping {inner : Expr} (hinner : inner.IsStringless) : IsStringless (.grouping inner)
  | unary {operator : Token} {operand : Expr} (hoperator : operator.IsOneOf Symbol.operators)
      (hoperand : operand.IsStringless) : IsStringless (.unary operator operand)
  | binary {left right : Expr} {operator : Token} (hleft : left.IsStringless)
      (hoperator : operator.IsOneOf Symbol.operators) (hright : right.IsStringless) :
      IsStringless (.binary left operator right)
  | ternary {question colon : Token} {condition thenBranch elseBranch : Expr}
      (hquestion : question.IsOneOf [.question]) (hcondition : condition.IsStringless)
      (hthen : thenBranch.IsStringless) (hcolon : colon.IsOneOf [.colon])
      (helse : elseBranch.IsStringless) :
      IsStringless (.ternary question condition thenBranch colon elseBranch)

/-! ## Characters that end a name or a literal -/

/-- Whether a character is a space or a bracket. -/
def isDelimiter (c : Char) : Bool := c == ' ' || c == '(' || c == ')'

theorem not_isDelimiter_of_continuesWord {c : Char} (h : continuesWord c = true) :
    isDelimiter c = false := by
  apply Bool.eq_false_of_not_eq_true
  intro hdelimiter
  have hcases : (c = ' ' ∨ c = '(') ∨ c = ')' := by simpa [isDelimiter] using hdelimiter
  rcases hcases with (rfl | rfl) | rfl <;> cases h

theorem isDelimiter_of_stop {c : Char} (h : c ∈ [' ', ')']) : isDelimiter c = true := by
  rw [List.mem_cons, List.mem_singleton] at h
  rcases h with rfl | rfl <;> rfl

/-! ## Numbers -/

theorem Numeral.not_isDelimiter_of_mem_text (numeral : Numeral) {c : Char}
    (h : c ∈ numeral.text.toList) : isDelimiter c = false := by
  have hdigits (hc : c.isDigit = true) : isDelimiter c = false :=
    not_isDelimiter_of_continuesWord (continuesWord_of_isDigit hc)
  rw [text, String.toList_ofList] at h
  rcases Decimal.mem_written h with hdigit | rfl | hdigit
  · exact hdigits (numeral.isDigits.2 c hdigit)
  · rfl
  · exact hdigits (numeral.isDigit_of_mem_fraction c hdigit)

namespace Binary64

theorem not_isDelimiter_of_mem_chars {x : Binary64} {c : Char} (h : c ∈ x.chars .plain) :
    isDelimiter c = false := by
  cases hNaN : x.isNaN with
  | true =>
      rw [chars, if_pos hNaN] at h
      fin_cases h <;> rfl
  | false =>
      rw [chars_of_not_isNaN hNaN, List.mem_append] at h
      rcases h with hsign | hmagnitude
      · split at hsign
        · rw [List.mem_singleton.mp hsign]
          rfl
        · cases hsign
      · have hcases := magnitudeChars_cases (magnitude_le_infinite hNaN)
        rcases hcases with ⟨-, hinf⟩ | ⟨numeral, htext, -⟩
        · rw [hinf] at hmagnitude
          fin_cases hmagnitude <;> rfl
        · rw [htext] at hmagnitude
          exact numeral.not_isDelimiter_of_mem_text hmagnitude

end Binary64

/-! ## Literals -/

namespace Value

/-- The literals that are written as words. -/
def words : List Value := [boolean true, boolean false, nil]

theorem number_or_mem_words {value : Value} (h : ∀ body, value ≠ str body) :
    (∃ x, value = number x) ∨ value ∈ words := by
  cases value with
  | number x => exact .inl ⟨x, rfl⟩
  | str body => exact absurd rfl (h body)
  | boolean b => cases b <;> exact .inr (by decide)
  | nil => exact .inr (by decide)

theorem not_isDelimiter_of_mem_chars {value : Value} (h : ∀ body, value ≠ str body) :
    ∀ c ∈ value.chars, isDelimiter c = false := by
  rcases number_or_mem_words h with ⟨x, rfl⟩ | hword
  · exact fun c => Binary64.not_isDelimiter_of_mem_chars
  · have hall : words.all (·.chars.all (!isDelimiter ·)) = true := by decide
    intro c hc
    simpa using List.all_eq_true.mp (List.all_eq_true.mp hall value hword) c hc

/-- No number begins with a letter that a word begins with. -/
theorem chars_number_ne (x : Binary64) {value : Value} (h : value ∈ words) :
    (number x).chars ≠ value.chars := by
  have hletters : words.all (·.chars.head?.all (· ∈ ['t', 'f', 'n'])) = true := by decide
  have hfirst : ∀ c ∈ value.chars.head?, c ∈ ['t', 'f', 'n'] := by
    intro c hc
    have hletter := List.all_eq_true.mp hletters value h
    rw [Option.mem_def.mp hc] at hletter
    exact of_decide_eq_true hletter
  intro hchars
  rw [← hchars, chars] at hfirst
  cases hNaN : x.isNaN with
  | true =>
      rw [Binary64.chars, if_pos hNaN] at hfirst
      exact absurd (hfirst 'N' rfl) (by decide)
  | false =>
      obtain ⟨c, rest, hnumber, hc⟩ := Binary64.exists_cons_chars_of_not_isNaN hNaN
      rw [hnumber] at hfirst
      have hletter := hfirst c rfl
      fin_cases hletter <;> exact absurd hc (by decide)

/-- Literals that are not strings are the same exactly if their texts are. -/
theorem chars_eq_iff {value other : Value} (h : ∀ body, value ≠ str body)
    (hother : ∀ body, other ≠ str body) : value.chars = other.chars ↔ value.Same other := by
  rcases number_or_mem_words h with ⟨x, rfl⟩ | hword
  · rcases number_or_mem_words hother with ⟨y, rfl⟩ | hword'
    · exact Binary64.chars_plain_eq_iff
    · apply iff_of_false (chars_number_ne x hword')
      fin_cases hword' <;> exact nofun
  · rcases number_or_mem_words hother with ⟨y, rfl⟩ | hword'
    · apply iff_of_false (chars_number_ne y hword).symm
      fin_cases hword <;> exact nofun
    · have hall : ∀ value ∈ words, ∀ other ∈ words, value.chars = other.chars ↔ value = other := by
        decide
      rw [hall value hword other hword']
      fin_cases hword <;> rfl

theorem Same.chars_eq {value other : Value} (h : value.Same other) :
    value.chars = other.chars := by
  cases value with
  | number x =>
      cases other with
      | number y => exact Binary64.chars_plain_eq_iff.mpr h
      | _ => cases h
  | _ =>
      cases other <;> cases h
      rfl

end Value

/-! ## Nodes -/

namespace Expr

/-- What stands behind the bracket of a node, or a literal. -/
def label : Expr → List Char
  | literal value => value.chars
  | grouping _ => ['g', 'r', 'o', 'u', 'p']
  | unary operator _ | binary _ operator _ => operator.lexeme.toList
  | ternary question _ _ colon _ => question.lexeme.toList ++ colon.lexeme.toList

/-- The children of a node, from left to right. -/
def children : Expr → List Expr
  | literal _ => []
  | grouping inner => [inner]
  | unary _ operand => [operand]
  | binary left _ right => [left, right]
  | ternary _ condition thenBranch _ elseBranch => [condition, thenBranch, elseBranch]

theorem chars_eq (expr : Expr) : expr.chars =
    if expr.children = [] then expr.label else bracketed expr.label (expr.children.map chars) := by
  cases expr <;> rfl

end Expr

/-- The symbols that stand in the label of a node are no brackets. -/
theorem Symbol.not_isDelimiter_of_mem_chars {which : Symbol}
    (h : which ∈ operators ++ [question, colon]) : ∀ c ∈ which.chars, isDelimiter c = false := by
  have hall : (operators ++ [question, colon]).all (·.chars.all (!isDelimiter ·)) = true := by
    decide
  intro c hc
  simpa using List.all_eq_true.mp (List.all_eq_true.mp hall which h) c hc

theorem Token.IsOneOf.not_isDelimiter_of_mem_lexeme {symbols : List Symbol} {token : Token}
    (h : token.IsOneOf symbols) (hsymbols : symbols ⊆ Symbol.operators ++ [.question, .colon]) :
    ∀ c ∈ token.lexeme.toList, isDelimiter c = false := by
  obtain ⟨which, hwhich, -, hlexeme⟩ := h.exists_symbol
  rw [hlexeme, String.toList_ofList]
  exact Symbol.not_isDelimiter_of_mem_chars (hsymbols hwhich)

/-- Tokens of the same class of symbols are the same if their lexemes are. -/
theorem Token.IsOneOf.content_eq {symbols : List Symbol} {a b : Token} (ha : a.IsOneOf symbols)
    (hb : b.IsOneOf symbols) (h : a.lexeme = b.lexeme) : a.content = b.content := by
  obtain ⟨which, -, hwhich⟩ := ha.exists_content
  obtain ⟨other, -, hother⟩ := hb.exists_content
  have hlexeme : which.token.lexeme = other.token.lexeme := by
    rw [← (Token.content_eq_iff.mp hwhich).2.1, h, (Token.content_eq_iff.mp hother).2.1]
  rw [hwhich, hother, Symbol.chars_injective (String.ofList_inj.mp hlexeme)]

theorem Token.IsOneOf.content_eq_of_singleton {which : Symbol} {token : Token}
    (h : token.IsOneOf [which]) : token.content = which.token.content := by
  obtain ⟨other, hother, hcontent⟩ := h.exists_content
  rw [hcontent, List.mem_singleton.mp hother]

/-- No operator is written as the word for a grouping. -/
theorem Token.IsOneOf.lexeme_ne_group {symbols : List Symbol} {token : Token}
    (h : token.IsOneOf symbols) : ['g', 'r', 'o', 'u', 'p'] ≠ token.lexeme.toList := by
  obtain ⟨which, -, -, hlexeme⟩ := h.exists_symbol
  rw [hlexeme, String.toList_ofList]
  cases which <;> exact nofun

namespace Expr

variable {a b : Expr}

theorem IsStringless.not_isDelimiter_of_mem_label (h : a.IsStringless) :
    ∀ c ∈ a.label, isDelimiter c = false := by
  have hoperators : Symbol.operators ⊆ Symbol.operators ++ [.question, .colon] :=
    List.subset_append_left _ _
  cases h with
  | literal hvalue => exact Value.not_isDelimiter_of_mem_chars hvalue
  | grouping hinner =>
      have hall : ['g', 'r', 'o', 'u', 'p'].all (!isDelimiter ·) = true := by decide
      intro c hc
      simpa using List.all_eq_true.mp hall c hc
  | unary hoperator hoperand => exact hoperator.not_isDelimiter_of_mem_lexeme hoperators
  | binary hleft hoperator hright => exact hoperator.not_isDelimiter_of_mem_lexeme hoperators
  | ternary hquestion hcondition hthen hcolon helse =>
      intro c hc
      rcases List.mem_append.mp hc with hc | hc
      · exact hquestion.not_isDelimiter_of_mem_lexeme (by decide) c hc
      · exact hcolon.not_isDelimiter_of_mem_lexeme (by decide) c hc

/-- A node is known from its label and its children. -/
theorem IsStringless.same_of_label_eq (ha : a.IsStringless) (hb : b.IsStringless)
    (hlabel : a.label = b.label) (hchildren : List.Forall₂ Same a.children b.children) :
    a.Same b := by
  have hlength := hchildren.length_eq
  cases ha with
  | literal hvalue =>
      cases hb with
      | literal hvalue' => exact .literal ((Value.chars_eq_iff hvalue hvalue').mp hlabel)
      | _ => cases hlength
  | grouping hinner =>
      cases hb with
      | grouping hinner' => exact .grouping (List.forall₂_cons.mp hchildren).1
      | unary hoperator hoperand => exact absurd hlabel hoperator.lexeme_ne_group
      | _ => cases hlength
  | unary hoperator hoperand =>
      cases hb with
      | unary hoperator' hoperand' =>
          have hcontent := hoperator.content_eq hoperator' (String.toList_inj.mp hlabel)
          exact .unary hcontent (List.forall₂_cons.mp hchildren).1
      | grouping hinner => exact absurd hlabel.symm hoperator.lexeme_ne_group
      | _ => cases hlength
  | binary hleft hoperator hright =>
      cases hb with
      | binary hleft' hoperator' hright' =>
          obtain ⟨hl, hrest⟩ := List.forall₂_cons.mp hchildren
          have hcontent := hoperator.content_eq hoperator' (String.toList_inj.mp hlabel)
          exact .binary hl hcontent (List.forall₂_cons.mp hrest).1
      | _ => cases hlength
  | ternary hquestion hcondition hthen hcolon helse =>
      cases hb with
      | ternary hquestion' hcondition' hthen' hcolon' helse' =>
          obtain ⟨hc, hrest⟩ := List.forall₂_cons.mp hchildren
          obtain ⟨ht, hlast⟩ := List.forall₂_cons.mp hrest
          have hfirst := hquestion.content_eq_of_singleton.trans
            hquestion'.content_eq_of_singleton.symm
          have hsecond := hcolon.content_eq_of_singleton.trans hcolon'.content_eq_of_singleton.symm
          exact .ternary hfirst hc ht hsecond (List.forall₂_cons.mp hlast).1
      | _ => cases hlength

theorem IsStringless.of_mem_children (h : a.IsStringless) : ∀ child ∈ a.children,
    child.IsStringless := by
  cases h with
  | literal hvalue => exact fun _ => nofun
  | grouping hinner => simpa [children] using hinner
  | unary hoperator hoperand => simpa [children] using hoperand
  | binary hleft hoperator hright => simpa [children] using ⟨hleft, hright⟩
  | ternary hquestion hcondition hthen hcolon helse =>
      simpa [children] using ⟨hcondition, hthen, helse⟩

/-! ## Reading -/

/-- Whether only one expression can be read at the head of a text that begins with this
one, and only as far. -/
def IsReadAlone (expr : Expr) : Prop :=
  ∀ other : Expr, other.IsStringless → ∀ x y : List Char, (∀ c ∈ x.head?, c ∈ [' ', ')']) →
    (∀ c ∈ y.head?, c ∈ [' ', ')']) → expr.chars ++ x = other.chars ++ y →
      expr.Same other ∧ x = y

/-- Children are read one after another, up to the bracket that closes their node. -/
theorem forall₂_same_of_children {as bs : List Expr} (has : ∀ a ∈ as, a.IsReadAlone)
    (hbs : ∀ b ∈ bs, b.IsStringless) {x y : List Char}
    (h : (as.map chars).flatMap (' ' :: ·) ++ ')' :: x =
      (bs.map chars).flatMap (' ' :: ·) ++ ')' :: y) : List.Forall₂ Same as bs ∧ x = y := by
  induction as generalizing bs with
  | nil =>
      cases bs with
      | nil => exact ⟨.nil, (List.cons.inj h).2⟩
      | cons b bs => cases h
  | cons a as ih =>
      cases bs with
      | nil => cases h
      | cons b bs =>
          obtain ⟨ha, has⟩ := List.forall_mem_cons.mp has
          obtain ⟨hb, hbs⟩ := List.forall_mem_cons.mp hbs
          rw [List.map_cons, List.map_cons, List.flatMap_cons, List.flatMap_cons, List.append_assoc,
            List.append_assoc] at h
          obtain ⟨hsame, hrest⟩ := ha b hb _ _ (Splices.stop_of_children _ x)
            (Splices.stop_of_children _ y) (List.cons.inj h).2
          obtain ⟨hothers, hxy⟩ := ih has hbs hrest
          exact ⟨.cons hsame hothers, hxy⟩

theorem bracketed_append (name : List Char) (children : List (List Char)) (rest : List Char) :
    bracketed name children ++ rest =
      '(' :: (name ++ (children.flatMap (' ' :: ·) ++ ')' :: rest)) := by
  simp [bracketed]

/-- No literal is read where a bracket opens. -/
theorem IsStringless.label_append_ne (h : a.IsStringless) {x : List Char}
    (hx : ∀ c ∈ x.head?, c ∈ [' ', ')']) (text : List Char) : a.label ++ x ≠ '(' :: text := by
  intro hopen
  cases hlabel : a.label with
  | nil =>
      rw [hlabel, List.nil_append] at hopen
      subst hopen
      exact absurd (hx '(' rfl) (by decide)
  | cons c label =>
      rw [hlabel] at hopen
      obtain rfl : c = '(' := (List.cons.inj hopen).1
      cases h.not_isDelimiter_of_mem_label '(' (hlabel ▸ List.mem_cons_self)

/-- The label is read first and then the children, so an expression is read alone if its
children are. -/
theorem IsStringless.isReadAlone_of_children (ha : a.IsStringless)
    (hchildren : ∀ child ∈ a.children, child.IsReadAlone) : a.IsReadAlone := by
  intro b hb x y hx hy h
  have hlabel {expr : Expr} (hexpr : expr.IsStringless) :
      ∀ c ∈ expr.label, (!isDelimiter c) = true := by
    intro c hc
    rw [hexpr.not_isDelimiter_of_mem_label c hc, Bool.not_false]
  have hstop {rest : List Char} (hrest : ∀ c ∈ rest.head?, c ∈ [' ', ')']) :
      ∀ c ∈ rest.head?, (!isDelimiter c) = false := by
    intro c hc
    rw [isDelimiter_of_stop (hrest c hc), Bool.not_true]
  rw [chars_eq a, chars_eq b] at h
  by_cases hleaf : a.children = []
  · by_cases hleaf' : b.children = []
    · rw [if_pos hleaf, if_pos hleaf'] at h
      obtain ⟨hsame, hxy⟩ := append_inj_of_stop (hlabel ha) (hlabel hb) (hstop hx) (hstop hy) h
      refine ⟨ha.same_of_label_eq hb hsame ?_, hxy⟩
      rw [hleaf, hleaf']
      exact .nil
    · rw [if_pos hleaf, if_neg hleaf', bracketed_append] at h
      exact absurd h (ha.label_append_ne hx _)
  · by_cases hleaf' : b.children = []
    · rw [if_neg hleaf, if_pos hleaf', bracketed_append] at h
      exact absurd h.symm (hb.label_append_ne hy _)
    · rw [if_neg hleaf, if_neg hleaf', bracketed_append, bracketed_append] at h
      obtain ⟨hsame, hrest⟩ := append_inj_of_stop (hlabel ha) (hlabel hb)
        (hstop (Splices.stop_of_children _ x)) (hstop (Splices.stop_of_children _ y))
        (List.cons.inj h).2
      obtain ⟨hothers, hxy⟩ := forall₂_same_of_children hchildren hb.of_mem_children hrest
      exact ⟨ha.same_of_label_eq hb hsame hothers, hxy⟩

theorem IsStringless.isReadAlone (h : a.IsStringless) : a.IsReadAlone := by
  induction h with
  | literal hvalue =>
      exact (literal hvalue).isReadAlone_of_children fun _ => nofun
  | grouping hinner ih =>
      exact (grouping hinner).isReadAlone_of_children (by simpa [children] using ih)
  | unary hoperator hoperand ih =>
      exact (unary hoperator hoperand).isReadAlone_of_children (by simpa [children] using ih)
  | binary hleft hoperator hright ihLeft ihRight =>
      exact (binary hleft hoperator hright).isReadAlone_of_children
        (by simpa [children] using ⟨ihLeft, ihRight⟩)
  | ternary hquestion hcondition hthen hcolon helse ihCondition ihThen ihElse =>
      exact (ternary hquestion hcondition hthen hcolon helse).isReadAlone_of_children
        (by simpa [children] using ⟨ihCondition, ihThen, ihElse⟩)

/-- The same expressions are printed alike. -/
theorem Same.chars_eq (h : a.Same b) : a.chars = b.chars := by
  induction h with
  | literal hvalue => exact hvalue.chars_eq
  | grouping hinner ih => rw [chars, chars, ih]
  | unary hoperator hoperand ih =>
      rw [chars, chars, (Token.content_eq_iff.mp hoperator).2.1, ih]
  | binary hleft hoperator hright ihLeft ihRight =>
      rw [chars, chars, (Token.content_eq_iff.mp hoperator).2.1, ihLeft, ihRight]
  | ternary hquestion hcondition hthen hcolon helse ihCondition ihThen ihElse =>
      rw [chars, chars, (Token.content_eq_iff.mp hquestion).2.1,
        (Token.content_eq_iff.mp hcolon).2.1, ihCondition, ihThen, ihElse]

/-- **Printed expressions are uniquely readable.** Two expressions without strings are printed
alike exactly if they are the same node for node, up to the lines of their tokens and the
bits of NaNs. -/
theorem text_eq_iff (ha : a.IsStringless) (hb : b.IsStringless) :
    a.text = b.text ↔ a.Same b := by
  rw [text_eq, text_eq, String.ofList_inj]
  constructor
  · intro h
    have happend : a.chars ++ [] = b.chars ++ [] := congrArg (· ++ []) h
    exact (ha.isReadAlone b hb [] [] (fun _ => nofun) (fun _ => nofun) happend).1
  · exact Same.chars_eq

/-- Two NaNs behind operators on different lines are printed alike. A negative number and a
positive one behind the operator for its negation are not. -/
theorem text_eq_iff_negated :
    (unary ⟨.symbol .minus, "-", none, ⟨1⟩⟩ (literal (.number (.ofBits 0x7FF8000000000000)))).Same
        (unary ⟨.symbol .minus, "-", none, ⟨2⟩⟩ (literal (.number (.ofBits 0xFFF0000000000001)))) ∧
      (unary ⟨.symbol .minus, "-", none, ⟨1⟩⟩
          (literal (.number (.ofBits 0x3FF0000000000000)))).text ≠
        (literal (.number (.ofBits 0xBFF0000000000000))).text := by
  have hfirst : Token.IsOneOf Symbol.operators ⟨.symbol .minus, "-", none, ⟨1⟩⟩ :=
    ⟨⟨⟨false⟩, by decide, "-\n-", by decide +kernel⟩, .minus, by decide, rfl⟩
  have hsecond : Token.IsOneOf Symbol.operators ⟨.symbol .minus, "-", none, ⟨2⟩⟩ :=
    ⟨⟨⟨false⟩, by decide, "-\n-", by decide +kernel⟩, .minus, by decide, rfl⟩
  have hnumber (x : Binary64) : (literal (.number x)).IsStringless := .literal fun _ => nofun
  constructor
  · apply (text_eq_iff (.unary hfirst (hnumber _)) (.unary hsecond (hnumber _))).mp
    decide +kernel
  · exact (text_eq_iff (.unary hfirst (hnumber _)) (hnumber _)).not.mpr nofun

end Expr

end Lox
