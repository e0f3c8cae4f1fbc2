/-
# Equality of expressions

Expressions are compared node by node, and the numbers in them as arithmetic compares
numbers. That is no identity. A NaN is not equal to itself, whether it is a literal or the
payload of an operator, and the two zeros are equal though they are written differently.

Values and payloads are numbers or things that are taken as they are, and `ComparesNumbers` says
what holds of all such equalities. A node shows how many children it has, so a tree can be told
from the row of its nodes, and two trees are equal exactly if their rows are, node by node
(`Expr.equal_iff_forall₂`). What is said of equality is then proved of two nodes, and rows
carry it over to trees of any depth.

An operator is written as its lexeme and never as its payload. Only the literals decide
whether equal trees are written alike, and they do unless one of them is the negative zero.
-/

import Mathlib
import Lox.Expr.Text

namespace Lox

universe u

/-- Whether an equality can be turned round and chained. It need not hold between a thing
and itself. -/
structure IsPartialEquivalence {α : Type u} (equal : α → α → Prop) : Prop where
  symm : ∀ {a b}, equal a b → equal b a
  trans : ∀ {a b c}, equal a b → equal b c → equal a c

/-- Rows can be compared one by one. -/
theorem IsPartialEquivalence.forall₂ {α : Type u} {equal : α → α → Prop}
    (h : IsPartialEquivalence equal) : IsPartialEquivalence (List.Forall₂ equal) where
  symm hab := (hab.imp fun _ _ => h.symm).flip
  trans {a b c} hab hbc := by
    induction hab generalizing c with
    | nil => exact hbc
    | cons hhead htail ih =>
        cases hbc with
        | cons hhead' htail' => exact .cons (h.trans hhead hhead') (ih htail')

/-! ## Numbers -/

namespace Binary64

/-- The zero whose sign bit is set. -/
def negativeZero : Binary64 := ⟨true, 0, by decide⟩

variable {x y : Binary64}

theorem equal_iff : x.equal y = true ↔ x.isNaN = false ∧ y.isNaN = false ∧
    x.magnitude = y.magnitude ∧ (x.negative = y.negative ∨ x.magnitude = 0) := by
  simp [equal, and_assoc]

theorem equal_self_iff : x.equal x = true ↔ x.isNaN = false := by
  simp [equal_iff]

theorem isPartialEquivalence_equal : IsPartialEquivalence fun x y : Binary64 => x.equal y where
  symm h := by
    obtain ⟨hx, hy, hmagnitude, hsign⟩ := equal_iff.mp h
    rw [hmagnitude] at hsign
    exact equal_iff.mpr ⟨hy, hx, hmagnitude.symm, hsign.imp_left Eq.symm⟩
  trans hxy hyz := by
    obtain ⟨hx, -, hmagnitude, hsign⟩ := equal_iff.mp hxy
    obtain ⟨-, hz, hmagnitude', hsign'⟩ := equal_iff.mp hyz
    refine equal_iff.mpr ⟨hx, hz, hmagnitude.trans hmagnitude', ?_⟩
    rw [← hmagnitude] at hsign'
    rcases hsign with hsign | hzero
    · rw [hsign]
      exact hsign'
    · exact .inr hzero

/-- Equal numbers are the same number, unless one of them is the negative zero. -/
theorem eq_of_equal (h : x.equal y = true) (hx : x ≠ negativeZero) (hy : y ≠ negativeZero) :
    x = y := by
  obtain ⟨-, -, hmagnitude, hsign⟩ := equal_iff.mp h
  obtain ⟨xnegative, xmagnitude, hxbound⟩ := x
  obtain ⟨ynegative, ymagnitude, hybound⟩ := y
  obtain rfl : xmagnitude = ymagnitude := hmagnitude
  rcases hsign with hsign | hzero
  · obtain rfl : xnegative = ynegative := hsign
    rfl
  · obtain rfl : xmagnitude = 0 := hzero
    cases xnegative with
    | true => exact absurd rfl hx
    | false =>
        cases ynegative with
        | true => exact absurd rfl hy
        | false => rfl

end Binary64

/-! ## Things with numbers among them -/

/-- Whether an equality takes things as they are, except for the numbers among them, which it
compares as arithmetic does. -/
structure ComparesNumbers {α : Type u} (number : Binary64 → α) (equal : α → α → Prop) : Prop where
  injective : Function.Injective number
  equal_iff : ∀ {a b}, equal a b ↔
    (∃ x y, a = number x ∧ b = number y ∧ x.equal y = true) ∨ ((∀ x, a ≠ number x) ∧ a = b)

namespace ComparesNumbers

variable {α : Type u} {number : Binary64 → α} {equal : α → α → Prop} {a b : α}

theorem self_iff (h : ComparesNumbers number equal) :
    equal a a ↔ ∀ x, a = number x → x.isNaN = false := by
  rw [h.equal_iff]
  constructor
  · rintro (⟨x, y, rfl, hsame, hequal⟩ | ⟨hother, -⟩) z hz
    · obtain rfl := h.injective hsame
      obtain rfl := h.injective hz
      exact Binary64.equal_self_iff.mp hequal
    · exact absurd hz (hother z)
  · intro hNaN
    by_cases hnumber : ∃ x, a = number x
    · obtain ⟨x, rfl⟩ := hnumber
      exact .inl ⟨x, x, rfl, rfl, Binary64.equal_self_iff.mpr (hNaN x rfl)⟩
    · exact .inr ⟨not_exists.mp hnumber, rfl⟩

theorem isPartialEquivalence (h : ComparesNumbers number equal) : IsPartialEquivalence equal where
  symm hab := by
    rcases h.equal_iff.mp hab with ⟨x, y, rfl, rfl, hxy⟩ | ⟨-, rfl⟩
    · exact h.equal_iff.mpr
        (.inl ⟨y, x, rfl, rfl, Binary64.isPartialEquivalence_equal.symm hxy⟩)
    · exact hab
  trans hab hbc := by
    rcases h.equal_iff.mp hab with ⟨x, y, rfl, rfl, hxy⟩ | ⟨-, rfl⟩
    · rcases h.equal_iff.mp hbc with ⟨y', z, hsame, rfl, hyz⟩ | ⟨hother, -⟩
      · obtain rfl := h.injective hsame
        exact h.equal_iff.mpr
          (.inl ⟨x, z, rfl, rfl, Binary64.isPartialEquivalence_equal.trans hxy hyz⟩)
      · exact absurd rfl (hother y)
    · exact hbc

/-- Equal things are the same, unless one of them is the negative zero. -/
theorem eq_of_equal (h : ComparesNumbers number equal) (hab : equal a b)
    (ha : a ≠ number .negativeZero) (hb : b ≠ number .negativeZero) : a = b := by
  rcases h.equal_iff.mp hab with ⟨x, y, rfl, rfl, hxy⟩ | ⟨-, rfl⟩
  · have hx : x ≠ .negativeZero := fun hzero => ha (congrArg number hzero)
    have hy : y ≠ .negativeZero := fun hzero => hb (congrArg number hzero)
    rw [Binary64.eq_of_equal hxy hx hy]
  · rfl

end ComparesNumbers

theorem Token.comparesNumbers_payloadEqual :
    ComparesNumbers (fun x => some (.num x)) fun a b => payloadEqual a b where
  injective x y h := Payload.num.inj (Option.some.inj h)
  equal_iff {a b} := by
    rcases a with _ | body | x <;> rcases b with _ | body' | y <;>
      simp [payloadEqual, Payload.equal]

theorem Value.comparesNumbers_equal : ComparesNumbers number fun a b => a.equal b where
  injective x y h := number.inj h
  equal_iff {a b} := by cases a <;> cases b <;> simp [equal]

/-! ## Tokens -/

namespace Token

variable {a b : Token}

theorem equal_iff : a.equal b = true ↔ a.kind = b.kind ∧ a.lexeme = b.lexeme ∧
    payloadEqual a.payload b.payload = true ∧ a.line = b.line := by
  simp [equal, and_assoc]

theorem equal_self_iff :
    a.equal a = true ↔ ∀ x, a.payload = some (.num x) → x.isNaN = false := by
  simp [equal_iff, comparesNumbers_payloadEqual.self_iff]

theorem isPartialEquivalence_equal : IsPartialEquivalence fun a b : Token => a.equal b where
  symm h := by
    obtain ⟨hkind, hlexeme, hpayload, hline⟩ := equal_iff.mp h
    have hpayload' := comparesNumbers_payloadEqual.isPartialEquivalence.symm hpayload
    exact equal_iff.mpr ⟨hkind.symm, hlexeme.symm, hpayload', hline.symm⟩
  trans hab hbc := by
    obtain ⟨hkind, hlexeme, hpayload, hline⟩ := equal_iff.mp hab
    obtain ⟨hkind', hlexeme', hpayload', hline'⟩ := equal_iff.mp hbc
    have hpayload'' := comparesNumbers_payloadEqual.isPartialEquivalence.trans hpayload hpayload'
    exact equal_iff.mpr
      ⟨hkind.trans hkind', hlexeme.trans hlexeme', hpayload'', hline.trans hline'⟩

end Token

/-! ## Nodes -/

namespace Node

/-- Equality of nodes: nodes of one sort, with equal tokens and equal values. -/
def Equal : Node → Node → Prop
  | binary operator, binary operator' => operator.equal operator'
  | grouping, grouping => True
  | literal value, literal value' => value.equal value'
  | unary operator, unary operator' => operator.equal operator'
  | ternary question colon, ternary question' colon' =>
    question.equal question' ∧ colon.equal colon'
  | _, _ => False

/-- The operators at a node. -/
def operators : Node → List Token
  | binary operator | unary operator => [operator]
  | grouping | literal _ => []
  | ternary question colon => [question, colon]

/-- The value at a node, if it is a literal. -/
def value? : Node → Option Value
  | literal value => some value
  | _ => none

theorem equal_self_iff {node : Node} : node.Equal node ↔
    (∀ x, node.value? = some (.number x) → x.isNaN = false) ∧
      ∀ operator ∈ node.operators, ∀ x, operator.payload = some (.num x) → x.isNaN = false := by
  cases node <;>
    simp [Equal, operators, value?, Token.equal_self_iff, Value.comparesNumbers_equal.self_iff]

theorem isPartialEquivalence_equal : IsPartialEquivalence Equal where
  symm {a b} h := by
    -- Nodes of two sorts are not equal, so only one case of each sort is left.
    cases a <;> cases b <;> try exact h.elim
    · exact Token.isPartialEquivalence_equal.symm h
    · trivial
    · exact Value.comparesNumbers_equal.isPartialEquivalence.symm h
    · exact Token.isPartialEquivalence_equal.symm h
    · exact h.imp Token.isPartialEquivalence_equal.symm Token.isPartialEquivalence_equal.symm
  trans {a b c} hab hbc := by
    cases a <;> cases b <;> try exact hab.elim
    all_goals cases c <;> try exact hbc.elim
    · exact Token.isPartialEquivalence_equal.trans hab hbc
    · trivial
    · exact Value.comparesNumbers_equal.isPartialEquivalence.trans hab hbc
    · exact Token.isPartialEquivalence_equal.trans hab hbc
    · exact ⟨Token.isPartialEquivalence_equal.trans hab.1 hbc.1,
        Token.isPartialEquivalence_equal.trans hab.2 hbc.2⟩

end Node

/-! ## Expressions -/

namespace Expr

/-- The values of the literals in an expression. -/
def literals (expr : Expr) : List Value := expr.preorder.filterMap Node.value?

/-- The operators in an expression. -/
def operators (expr : Expr) : List Token := expr.preorder.flatMap Node.operators

variable {a b : Expr}

/-- Rows of nodes that begin with two trees are equal if the trees are and what follows
them is. Equal nodes have equally many children, so no row can end one tree before the other. -/
theorem forall₂_preorder_append_iff {x y : List Node} :
    List.Forall₂ Node.Equal (a.preorder ++ x) (b.preorder ++ y) ↔
      a.equal b = true ∧ List.Forall₂ Node.Equal x y := by
  induction a generalizing b x y with
  | binary left operator right ihLeft ihRight =>
      cases b <;> simp [preorder, equal, Node.Equal, ihLeft, ihRight, and_assoc, and_left_comm]
  | grouping inner ih => cases b <;> simp [preorder, equal, Node.Equal, ih]
  | literal value => cases b <;> simp [preorder, equal, Node.Equal]
  | unary operator operand ih => cases b <;> simp [preorder, equal, Node.Equal, ih, and_assoc]
  | ternary question condition thenBranch colon elseBranch ihCondition ihThen ihElse =>
      cases b <;>
        simp [preorder, equal, Node.Equal, ihCondition, ihThen, ihElse, and_assoc, and_left_comm]

/-- Two trees are equal exactly if their nodes are, one by one. -/
theorem equal_iff_forall₂ :
    a.equal b = true ↔ List.Forall₂ Node.Equal a.preorder b.preorder := by
  have hrows := forall₂_preorder_append_iff (a := a) (b := b) (x := []) (y := [])
  rw [List.append_nil, List.append_nil] at hrows
  exact (hrows.trans (and_iff_left .nil)).symm

theorem isPartialEquivalence_equal : IsPartialEquivalence fun a b : Expr => a.equal b where
  symm h := by
    rw [equal_iff_forall₂] at h ⊢
    exact Node.isPartialEquivalence_equal.forall₂.symm h
  trans hab hbc := by
    rw [equal_iff_forall₂] at hab hbc ⊢
    exact Node.isPartialEquivalence_equal.forall₂.trans hab hbc

/-- Nothing but a NaN keeps a tree from being equal to itself. -/
theorem equal_self_iff : a.equal a = true ↔
    (∀ x, .number x ∈ a.literals → x.isNaN = false) ∧
      ∀ operator ∈ a.operators, ∀ x, operator.payload = some (.num x) → x.isNaN = false := by
  rw [equal_iff_forall₂, List.forall₂_same]
  simp only [Node.equal_self_iff, literals, operators, List.mem_filterMap, List.mem_flatMap]
  constructor
  · intro h
    refine ⟨?_, ?_⟩
    · rintro x ⟨node, hnode, hvalue⟩
      exact (h node hnode).1 x hvalue
    · rintro operator ⟨node, hnode, hoperator⟩
      exact (h node hnode).2 operator hoperator
  · rintro ⟨hliterals, hoperators⟩ node hnode
    exact ⟨fun x hvalue => hliterals x ⟨node, hnode, hvalue⟩,
      fun operator hoperator => hoperators operator ⟨node, hnode, hoperator⟩⟩

section Literals

variable (left right inner condition thenBranch elseBranch : Expr)
  (operator question colon : Token)

theorem literals_binary :
    (binary left operator right).literals = left.literals ++ right.literals := by
  simp [literals, preorder, Node.value?, List.filterMap_cons]

theorem literals_grouping : (grouping inner).literals = inner.literals := rfl

theorem literals_literal (value : Value) : (literal value).literals = [value] := rfl

theorem literals_unary : (unary operator inner).literals = inner.literals := rfl

theorem literals_ternary : (ternary question condition thenBranch colon elseBranch).literals =
    condition.literals ++ thenBranch.literals ++ elseBranch.literals := by
  simp [literals, preorder, Node.value?, List.filterMap_cons]

end Literals

/-- Equal trees are written alike, unless a literal in one of them is the negative zero. -/
theorem chars_eq_of_equal (h : a.equal b = true) (ha : .number .negativeZero ∉ a.literals)
    (hb : .number .negativeZero ∉ b.literals) : a.chars = b.chars := by
  fun_induction equal a b with
  | case1 left operator right left' operator' right' ihLeft ihRight =>
      simp only [Bool.and_eq_true] at h
      obtain ⟨⟨hleft, hoperator⟩, hright⟩ := h
      rw [literals_binary, List.mem_append, not_or] at ha hb
      rw [chars, chars, (Token.equal_iff.mp hoperator).2.1, ihLeft hleft ha.1 hb.1,
        ihRight hright ha.2 hb.2]
  | case2 inner inner' ih =>
      rw [literals_grouping] at ha hb
      rw [chars, chars, ih h ha hb]
  | case3 value value' =>
      rw [literals_literal, List.mem_singleton] at ha hb
      rw [chars, chars, Value.comparesNumbers_equal.eq_of_equal h (Ne.symm ha) (Ne.symm hb)]
  | case4 operator operand operator' operand' ih =>
      simp only [Bool.and_eq_true] at h
      obtain ⟨hoperator, hoperand⟩ := h
      rw [literals_unary] at ha hb
      rw [chars, chars, (Token.equal_iff.mp hoperator).2.1, ih hoperand ha hb]
  | case5 question condition thenBranch colon elseBranch question' condition' thenBranch' colon'
      elseBranch' ihCondition ihThen ihElse =>
      simp only [Bool.and_eq_true] at h
      obtain ⟨⟨⟨⟨hquestion, hcondition⟩, hthen⟩, hcolon⟩, helse⟩ := h
      simp only [literals_ternary, List.mem_append, not_or] at ha hb
      rw [chars, chars, (Token.equal_iff.mp hquestion).2.1, (Token.equal_iff.mp hcolon).2.1,
        ihCondition hcondition ha.1.1 hb.1.1, ihThen hthen ha.1.2 hb.1.2,
        ihElse helse ha.2 hb.2]
  | case6 => cases h

/-- **Equality of expressions.** It can be turned round and chained, for any operators and
any literals. An expression is equal to itself exactly if no literal in it and no payload of
an operator in it is a NaN. Equal expressions are printed alike, unless a literal in one of
them is the negative zero. -/
theorem equal_laws (a b c : Expr) :
    (a.equal b = true → b.equal a = true) ∧
      (a.equal b = true → b.equal c = true → a.equal c = true) ∧
      (a.equal a = true ↔ (∀ x, .number x ∈ a.literals → x.isNaN = false) ∧
        ∀ operator ∈ a.operators, ∀ x, operator.payload = some (.num x) → x.isNaN = false) ∧
      (a.equal b = true → .number .negativeZero ∉ a.literals →
        .number .negativeZero ∉ b.literals → a.text = b.text) := by
  refine ⟨isPartialEquivalence_equal.symm, isPartialEquivalence_equal.trans, equal_self_iff, ?_⟩
  intro h ha hb
  rw [text_eq, text_eq, chars_eq_of_equal h ha hb]

/-- The two zeros are equal, as literals and in payloads of operators, where they are not
printed. A NaN there keeps an expression from being equal to itself. -/
theorem equal_laws_zeros :
    (literal (.number .negativeZero)).equal (literal (.number (.ofBits 0))) = true ∧
      (literal (.number (.ofBits 0))).equal (literal (.number (.ofBits 0))) = true ∧
      (unary ⟨.number, "0", some (.num (.ofBits 0)), ⟨1⟩⟩ (literal .nil)).text =
        (unary ⟨.number, "0", some (.num .negativeZero), ⟨1⟩⟩ (literal .nil)).text ∧
      (unary ⟨.number, "0", some (.num (.ofBits 0x7FF8000000000000)), ⟨1⟩⟩
        (literal .nil)).equal (unary ⟨.number, "0", some (.num (.ofBits 0x7FF8000000000000)), ⟨1⟩⟩
          (literal .nil)) = false := by
  refine ⟨?_, ?_, ?_, ?_⟩
  · exact (equal_laws (literal (.number (.ofBits 0))) _ (literal .nil)).1 (by decide)
  · exact (equal_laws _ (literal (.number .negativeZero)) _).2.1 (by decide) (by decide)
  · exact (equal_laws _ _ (literal .nil)).2.2.2 (by decide) (by decide) (by decide)
  · apply Bool.eq_false_iff.mpr
    intro h
    have hpayload := ((equal_laws _ (literal .nil) (literal .nil)).2.2.1.mp h).2
    exact absurd (hpayload _ (List.mem_singleton.mpr rfl) _ rfl) (by decide)

/-- As literals the two zeros are printed differently. -/
example : (literal (.number (.ofBits 0))).text ≠ (literal (.number .negativeZero)).text := by
  decide +kernel

end Expr

end Lox
