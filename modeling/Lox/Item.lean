/-
# Items of a source text

A source text is cut into items from left to right, each as long as it can be.
Six classes of items belong to the language: blanks, comments, symbols, strings,
numbers and words. Where none of them begins, the scan does not stop. A quote
that is never closed takes the rest of the text as one item, and any other
character is an item by itself.

An item keeps its characters, so the items of a text put together are the text
again, whatever is wrong with it. This is what lets every question about
positions and lines be asked of the items instead of the reader.
-/

import Lox.Numeric.Decimal
import Lox.Token.Symbol

namespace Lox

/-- Whether a character only separates: space, tab, carriage return, line feed. -/
def isBlank (c : Char) : Bool := c == ' ' || c == '\t' || c == '\r' || c == '\n'

/-- Whether a word may begin with a character: an ASCII letter or an underline. -/
def startsWord (c : Char) : Bool := c.isAlpha || c == '_'

/-- Whether a word may go on with a character. -/
def continuesWord (c : Char) : Bool := startsWord c || c.isDigit

/-- The pieces that a source text is cut into. -/
inductive Item where
  /-- One character that only separates. -/
  | blank (c : Char)
  /-- Two slashes and the characters up to the end of the line. -/
  | comment (body : List Char)
  /-- An operator or a punctuation mark. -/
  | symbol (which : Symbol)
  /-- Characters between two quotes. -/
  | string (body : List Char)
  /-- Digits, and a fraction unless it is empty. -/
  | number (whole fraction : List Char)
  /-- A name or a reserved word. -/
  | word (letters : List Char)
  /-- A quote that no other follows, and everything after it. -/
  | unterminated (body : List Char)
  /-- A character with which nothing begins. -/
  | illegal (c : Char)
deriving DecidableEq

namespace Item

/-- The characters of an item. -/
def chars : Item → List Char
  | blank c => [c]
  | comment body => '/' :: '/' :: body
  | symbol which => which.chars
  | string body => '"' :: (body ++ ['"'])
  | number whole fraction => Decimal.written whole fraction
  | word letters => letters
  | unterminated body => '"' :: body
  | illegal c => [c]

/-- The item after an opening quote, and what follows it. -/
def afterQuote (rest : List Char) : Item × List Char :=
  match rest.dropWhile (· != '"') with
  | [] => (unterminated rest, [])
  | _ :: left => (string (rest.takeWhile (· != '"')), left)

/-- The number at the head of a text that begins with a digit, and what follows
it. A point belongs to the number only if a digit stands behind it. -/
def numberAt (source : List Char) : Item × List Char :=
  let whole := source.takeWhile Char.isDigit
  let rest := source.dropWhile Char.isDigit
  match rest with
  | '.' :: left =>
    if left.takeWhile Char.isDigit = [] then (number whole [], rest)
    else (number whole (left.takeWhile Char.isDigit), left.dropWhile Char.isDigit)
  | _ => (number whole [], rest)

/-- The symbol that begins with the given character, and what follows it; or the
character as an illegal one. -/
def symbolAt (dialect : Dialect) (c : Char) (rest : List Char) : Item × List Char :=
  match Symbol.ofChar? dialect c with
  | none => (illegal c, rest)
  | some single =>
    match single.withEqual?, rest with
    | some double, '=' :: left => (symbol double, left)
    | _, _ => (symbol single, rest)

/-- The item that begins with the given character, and what follows it. -/
def startingWith (dialect : Dialect) (c : Char) (rest : List Char) : Item × List Char :=
  if isBlank c then (blank c, rest)
  else if c = '"' then afterQuote rest
  else if c.isDigit then numberAt (c :: rest)
  else if startsWord c then (word (c :: rest.takeWhile continuesWord), rest.dropWhile continuesWord)
  else
    match c, rest with
    | '/', '/' :: left => (comment (left.takeWhile (· != '\n')), left.dropWhile (· != '\n'))
    | _, _ => symbolAt dialect c rest

/-- The first item of a text, and what follows it. Only the empty text has none. -/
def next? (dialect : Dialect) : List Char → Option (Item × List Char)
  | [] => none
  | c :: rest => some (startingWith dialect c rest)

/-! ## Nothing is lost -/

private theorem afterQuote_chars (rest : List Char) :
    (afterQuote rest).1.chars ++ (afterQuote rest).2 = '"' :: rest := by
  have whole : rest.takeWhile (· != '"') ++ rest.dropWhile (· != '"') = rest :=
    List.takeWhile_append_dropWhile
  have stop := List.head?_dropWhile_not (· != '"') rest
  unfold afterQuote
  split
  next => simp [chars]
  next c left h =>
    rw [h] at whole stop
    have hc : c = '"' := by simpa using stop
    subst hc
    simp only [chars, List.cons_append, List.append_assoc, List.nil_append]
    rw [whole]

private theorem numberAt_chars (source : List Char) :
    (numberAt source).1.chars ++ (numberAt source).2 = source := by
  have both : source.takeWhile Char.isDigit ++ source.dropWhile Char.isDigit = source :=
    List.takeWhile_append_dropWhile
  unfold numberAt
  simp only
  split
  next left h =>
    rw [h] at both
    by_cases hfraction : left.takeWhile Char.isDigit = []
    · simp [hfraction, chars, Decimal.written, h, both]
    · simp [hfraction, chars, Decimal.written, both]
  · simp [chars, Decimal.written, both]

private theorem symbolAt_chars (dialect : Dialect) (c : Char) (rest : List Char) :
    (symbolAt dialect c rest).1.chars ++ (symbolAt dialect c rest).2 = c :: rest := by
  unfold symbolAt
  split
  · rfl
  next single h =>
    have hchars : single.chars = [c] := by
      have := List.find?_some h
      simp at this
      exact this.1
    split
    next double left hdouble => simp [chars, Symbol.chars_withEqual hdouble, hchars]
    · simp [chars, hchars]

private theorem startingWith_chars (dialect : Dialect) (c : Char) (rest : List Char) :
    (startingWith dialect c rest).1.chars ++ (startingWith dialect c rest).2 = c :: rest := by
  unfold startingWith
  split
  · rfl
  split
  next h => rw [afterQuote_chars, h]
  split
  · exact numberAt_chars _
  split
  · simp [chars, List.takeWhile_append_dropWhile]
  split
  · simp [chars, List.takeWhile_append_dropWhile]
  · exact symbolAt_chars _ _ _

/-- An item and what follows it make up the text that was read. -/
theorem chars_append_of_next? {dialect : Dialect} {source rest : List Char} {item : Item}
    (h : next? dialect source = some (item, rest)) : item.chars ++ rest = source := by
  cases source with
  | nil => simp [next?] at h
  | cons c tail =>
    have hpair : startingWith dialect c tail = (item, rest) := by simpa [next?] using h
    simpa [hpair] using startingWith_chars dialect c tail

/-! ## Every item has a character -/

private theorem numberAt_ne_nil {source : List Char} (h : source.takeWhile Char.isDigit ≠ []) :
    (numberAt source).1.chars ≠ [] := by
  unfold numberAt
  simp only
  split
  next => split <;> exact Decimal.written_ne_nil h
  next => exact Decimal.written_ne_nil h

private theorem symbolAt_ne_nil (dialect : Dialect) (c : Char) (rest : List Char) :
    (symbolAt dialect c rest).1.chars ≠ [] := by
  have symbol_ne_nil (which : Symbol) : which.chars ≠ [] := by cases which <;> decide
  unfold symbolAt
  split
  · simp [chars]
  · split <;> exact symbol_ne_nil _

/-- No item is empty, so reading one always makes progress. -/
theorem chars_ne_nil_of_next? {dialect : Dialect} {source rest : List Char} {item : Item}
    (h : next? dialect source = some (item, rest)) : item.chars ≠ [] := by
  cases source with
  | nil => simp [next?] at h
  | cons c tail =>
    have hitem : (startingWith dialect c tail).1 = item := by
      have hpair : startingWith dialect c tail = (item, rest) := by simpa [next?] using h
      rw [hpair]
    rw [← hitem]
    unfold startingWith
    split
    · simp [chars]
    split
    · unfold afterQuote
      split <;> simp [chars]
    split
    next hdigit => exact numberAt_ne_nil (by simp [hdigit])
    split
    · simp [chars]
    split
    · simp [chars]
    · exact symbolAt_ne_nil _ _ _

/-- What follows an item is shorter than the text that the item was read from. -/
theorem length_lt_of_next? {dialect : Dialect} {source rest : List Char} {item : Item}
    (h : next? dialect source = some (item, rest)) : rest.length < source.length := by
  have hne := List.length_pos_iff.2 (chars_ne_nil_of_next? h)
  have hlength := congrArg List.length (chars_append_of_next? h)
  rw [List.length_append] at hlength
  omega

end Item

/-- The items of a text, from left to right. -/
def items (dialect : Dialect) (source : List Char) : List Item :=
  match h : Item.next? dialect source with
  | none => []
  | some (item, rest) =>
    have := Item.length_lt_of_next? h
    item :: items dialect rest
termination_by source.length

theorem items_of_next?_eq_none {dialect : Dialect} {source : List Char}
    (h : Item.next? dialect source = none) : items dialect source = [] := by
  rw [items]
  split <;> simp_all

theorem items_nil (dialect : Dialect) : items dialect [] = [] := items_of_next?_eq_none rfl

theorem items_of_next?_eq_some {dialect : Dialect} {source rest : List Char} {item : Item}
    (h : Item.next? dialect source = some (item, rest)) :
    items dialect source = item :: items dialect rest := by
  rw [items]
  split <;> simp_all

/-- The items of a text, put together, are the text. -/
theorem flatMap_chars_items (dialect : Dialect) (source : List Char) :
    (items dialect source).flatMap Item.chars = source := by
  induction source using (measure List.length).wf.induction with
  | h source ih =>
    cases h : Item.next? dialect source with
    | none =>
      rw [items_of_next?_eq_none h]
      cases source with
      | nil => rfl
      | cons c rest => simp [Item.next?] at h
    | some pair =>
      obtain ⟨item, rest⟩ := pair
      rw [items_of_next?_eq_some h, List.flatMap_cons, ih rest (Item.length_lt_of_next? h)]
      exact Item.chars_append_of_next? h

end Lox
