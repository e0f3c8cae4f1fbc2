/-
# Line endings

A carriage return is a blank to the scan and ends no line. So a text may have one before
each of its line feeds or not, and the tokens, the lines and the reports are the same. A
string keeps what is between its quotes, line endings with them, and nothing else does.

Item by item little changes, because no item but a comment can tell a carriage return from a
line feed. A comment that ends at a line feed takes in the carriage return before it, so
it is changed together with the line feed (`returnedRow`).
-/

import Lox.Proofs.Listing

namespace Lox

/-- Characters with a carriage return before each line feed. -/
def addReturns (text : List Char) : List Char :=
  text.flatMap fun c => if c = '\n' then ['\r', '\n'] else [c]

/-- A text with a carriage return before each line feed. -/
def withReturns (text : String) : String := String.ofList (addReturns text.toList)

/-- A payload with carriage returns in its string, if it is one. -/
def Payload.returned : Payload → Payload
  | str body => str (withReturns body)
  | num value => num value

/-- A token with carriage returns in its lexeme and its payload if it is that of a string,
and any other token as it is. -/
def Token.returned (token : Token) : Token :=
  if token.kind = .string then
    { token with
      lexeme := withReturns token.lexeme
      payload := token.payload.map Payload.returned }
  else token

/-! ## Texts -/

section Texts

variable {text : List Char}

theorem addReturns_append (first second : List Char) :
    addReturns (first ++ second) = addReturns first ++ addReturns second :=
  List.flatMap_append

theorem addReturns_cons_of_ne {c : Char} (h : c ≠ '\n') (text : List Char) :
    addReturns (c :: text) = c :: addReturns text := by
  rw [addReturns, List.flatMap_cons, if_neg h]
  rfl

theorem addReturns_of_not_mem (h : '\n' ∉ text) : addReturns text = text := by
  induction text with
  | nil => rfl
  | cons c text ih =>
      have hc : c ≠ '\n' := by
        rintro rfl
        exact h List.mem_cons_self
      rw [addReturns_cons_of_ne hc, ih (mt (List.mem_cons_of_mem c) h)]

theorem mem_addReturns {c : Char} (h : c ∈ addReturns text) : c = '\r' ∨ c ∈ text := by
  obtain ⟨d, hd, hc⟩ := List.mem_flatMap.mp h
  split at hc
  next hfeed =>
    subst hfeed
    rcases List.mem_pair.mp hc with rfl | rfl
    · exact .inl rfl
    · exact .inr hd
  next =>
    rw [List.mem_singleton.mp hc]
    exact .inr hd

theorem quote_not_mem_addReturns (h : '"' ∉ text) : '"' ∉ addReturns text := by
  intro hmem
  rcases mem_addReturns hmem with hreturn | hquote
  · cases hreturn
  · exact h hquote

/-- A text begins as it did, or with a blank. -/
theorem head?_addReturns : ∀ c ∈ (addReturns text).head?, isBlank c = true ∨ c ∈ text.head? := by
  cases text with
  | nil => exact fun _ => nofun
  | cons d text =>
      by_cases hfeed : d = '\n'
      · subst hfeed
        rintro c ⟨⟩
        exact .inl rfl
      · rw [addReturns_cons_of_ne hfeed]
        exact fun c => .inr

theorem breaks_addReturns (text : List Char) :
    Line.breaks (addReturns text) = Line.breaks text := by
  induction text with
  | nil => rfl
  | cons c text ih =>
      have hhead : (if c = '\n' then ['\r', '\n'] else [c]).count '\n' = [c].count '\n' := by
        split
        next hfeed =>
          subst hfeed
          rfl
        next => rfl
      rw [Line.breaks, Line.breaks] at ih
      rw [Line.breaks, Line.breaks, addReturns, List.flatMap_cons, List.count_append, hhead,
        ← addReturns, ih, ← List.count_append, List.singleton_append]

end Texts

/-! ## Items -/

/-- What an item becomes. -/
def Item.returned : Item → List Item
  | blank c => if c = '\n' then [blank '\r', blank '\n'] else [blank c]
  | string body => [string (addReturns body)]
  | unterminated body => [unterminated (addReturns body)]
  | item => [item]

/-- What a row of items becomes. -/
def returnedRow : List Item → List Item
  | [] => []
  | .comment body :: .blank '\n' :: row =>
    .comment (body ++ ['\r']) :: .blank '\n' :: returnedRow row
  | item :: row => item.returned ++ returnedRow row

/-- Items become what they do one by one, but for a comment in front of a line feed. -/
theorem returnedRow_cons {item : Item} {row : List Item}
    (h : ∀ body rest, item = .comment body → row = .blank '\n' :: rest → False) :
    returnedRow (item :: row) = item.returned ++ returnedRow row := by
  rw [returnedRow]
  exact h

/-- Whether one row of items is another one with carriage returns, in its text, its tokens
and its reports. -/
structure IsReturned (row row' : List Item) : Prop where
  chars : row'.flatMap Item.chars = addReturns (row.flatMap Item.chars)
  tokens : ∀ line, tokensWithin line row' = (tokensWithin line row).map Token.returned
  diagnostics : ∀ line, diagnosticsFrom line row' = diagnosticsFrom line row

namespace IsReturned

theorem after {row row' : List Item} (h : IsReturned row row') (line : Line) :
    line.after (row'.flatMap Item.chars) = line.after (row.flatMap Item.chars) := by
  rw [Line.after, h.chars, breaks_addReturns, Line.after]

protected theorem append {first first' second second' : List Item} (h : IsReturned first first')
    (h' : IsReturned second second') : IsReturned (first ++ second) (first' ++ second') := by
  constructor
  · rw [List.flatMap_append, List.flatMap_append, addReturns_append, h.chars, h'.chars]
  · intro line
    rw [tokensWithin_append, tokensWithin_append, List.map_append, h.after, h.tokens, h'.tokens]
  · intro line
    rw [diagnosticsFrom_append, diagnosticsFrom_append, h.after, h.diagnostics, h'.diagnostics]

/-- The token for the end is on the same line. -/
theorem tokensFrom_eq {row row' : List Item} (h : IsReturned row row') (line : Line) :
    tokensFrom line row' = (tokensFrom line row).map Token.returned := by
  have hend := tokensFrom_append line row []
  have hend' := tokensFrom_append line row' []
  rw [List.append_nil] at hend hend'
  rw [hend, hend', List.map_append, h.tokens, h.after]
  rfl

/-- A comment reads the carriage return, and the line feed is read after it as before. -/
theorem comment {body : List Char} (h : '\n' ∉ body) :
    IsReturned [.comment body, .blank '\n'] [.comment (body ++ ['\r']), .blank '\n'] := by
  refine ⟨?_, fun _ => rfl, fun _ => rfl⟩
  have hbody : addReturns ('/' :: '/' :: body) = '/' :: '/' :: body := by
    apply addReturns_of_not_mem
    simpa using h
  have htext : ([.comment body, .blank '\n'] : List Item).flatMap Item.chars =
      ('/' :: '/' :: body) ++ ['\n'] := rfl
  rw [htext, addReturns_append, hbody]
  simp [Item.chars, addReturns]

/-- An item without a line feed has the same token and stays as it is, unless it is a string. -/
theorem of_not_mem {dialect : Dialect} {item : Item} (h : item.WellFormed dialect)
    (hfeed : '\n' ∉ item.chars) (hstring : ∀ body, item ≠ .string body) :
    IsReturned [item] [item] := by
  refine ⟨?_, ?_, fun _ => rfl⟩
  · rw [List.flatMap_singleton, addReturns_of_not_mem hfeed]
  · intro line
    rw [tokensWithin, tokensWithin, List.append_nil, Item.token?_eq h]
    cases hkind : item.kind? with
    | none => rfl
    | some kind =>
        have hother : kind ≠ .string := by
          rintro rfl
          obtain ⟨body, hbody⟩ := Item.exists_string_of_kind? hkind
          exact hstring body hbody
        exact congrArg ([·]) (if_neg hother).symm

theorem string (body : List Char) : IsReturned [.string body] [.string (addReturns body)] := by
  refine ⟨?_, ?_, fun _ => rfl⟩
  · simp [Item.chars, addReturns]
  · intro line
    simp [tokensWithin, Item.token?, Item.chars, Token.returned, Payload.returned, withReturns,
      addReturns]

theorem unterminated (body : List Char) :
    IsReturned [.unterminated body] [.unterminated (addReturns body)] := by
  have hchars : (Item.unterminated (addReturns body)).chars =
      addReturns (Item.unterminated body).chars := by
    simp [Item.chars, addReturns]
  refine ⟨?_, fun _ => rfl, ?_⟩
  · rw [List.flatMap_singleton, List.flatMap_singleton, hchars]
  · intro line
    simp only [diagnosticsFrom, Item.diagnostic?, hchars, Line.after, breaks_addReturns]

theorem item {dialect : Dialect} {item : Item} (h : item.WellFormed dialect) :
    IsReturned [item] item.returned := by
  cases item with
  | blank c =>
      rw [Item.returned]
      split
      next hfeed =>
        subst hfeed
        exact ⟨rfl, fun _ => rfl, fun _ => rfl⟩
      next hfeed =>
        apply of_not_mem h
        · simpa [Item.chars] using Ne.symm hfeed
        · rintro _ ⟨⟩
  | string body => exact .string body
  | unterminated body => exact .unterminated body
  | _ =>
      apply of_not_mem h
      · intro hmem
        rcases Item.newline_mem_cases h hmem with hitem | ⟨_, hitem⟩ | ⟨_, hitem⟩ <;> cases hitem
      · rintro _ ⟨⟩

theorem row {dialect : Dialect} {row : List Item} (h : ∀ item ∈ row, item.WellFormed dialect) :
    IsReturned row (returnedRow row) := by
  induction row using returnedRow.induct with
  | case1 => exact ⟨rfl, fun _ => rfl, fun _ => rfl⟩
  | case2 body row ih =>
      obtain ⟨hbody, hrest⟩ := List.forall_mem_cons.mp h
      exact (comment hbody).append (ih (List.forall_mem_cons.mp hrest).2)
  | case3 item row hcomment ih =>
      obtain ⟨hitem, hrow⟩ := List.forall_mem_cons.mp h
      rw [returnedRow_cons hcomment]
      exact (IsReturned.item hitem).append (ih hrow)

end IsReturned

/-! ## Rows that stand before each other -/

/-- No item but a comment is read any further over a carriage return. -/
theorem Item.EndsBefore.addReturns {item : Item} {rest : List Char} (h : item.EndsBefore rest)
    (hitem : ∀ body, item ≠ .comment body) : item.EndsBefore (addReturns rest) := by
  by_cases hblank : item.EndsAtBlank
  · apply h.mono hblank head?_addReturns
    intro hdot
    cases rest with
    | nil => cases hdot
    | cons c rest =>
        by_cases hfeed : c = '\n'
        · subst hfeed
          cases hdot
        · rw [addReturns_cons_of_ne hfeed]
          exact head?_addReturns
  · cases item with
    | comment body => exact absurd rfl (hitem body)
    | unterminated body =>
        obtain rfl : rest = [] := h
        rfl
    | _ => exact absurd trivial hblank

/-- An item that begins with a line feed is the line feed. -/
theorem Item.eq_blank_newline {dialect : Dialect} {item : Item} (h : item.WellFormed dialect)
    (hhead : ∀ c ∈ item.chars.head?, c = '\n') : item = blank '\n' := by
  obtain ⟨c, rest, hchars⟩ := List.exists_cons_of_ne_nil (chars_ne_nil_of_wellFormed h)
  obtain rfl : c = '\n' := hhead c (by rw [hchars]; rfl)
  have hread := next?_chars_append ⟨h, item.endsBefore_nil⟩
  have hblank : (blank '\n').StandsBefore dialect rest := ⟨rfl, trivial⟩
  rw [List.append_nil, hchars, ← List.singleton_append, ← chars.eq_1, next?_chars_append hblank]
    at hread
  exact (Prod.mk.inj (Option.some.inj hread)).1.symm

theorem isCut_returnedRow {dialect : Dialect} {row : List Item} (h : IsCut dialect row) :
    IsCut dialect (returnedRow row) := by
  induction row using returnedRow.induct with
  | case1 => trivial
  | case2 body row ih =>
      obtain ⟨⟨hbody, -⟩, -, hrow⟩ := h
      have hreturn : '\n' ∉ body ++ ['\r'] := by
        have hfeed : '\n' ∉ body := hbody
        simpa using hfeed
      refine ⟨⟨hreturn, ?_⟩, ⟨rfl, trivial⟩, ih hrow⟩
      rintro c ⟨⟩
      rfl
  | case3 item row hcomment ih =>
      obtain ⟨⟨hwf, hends⟩, hrow⟩ := h
      have hrest (hother : ∀ body, item ≠ .comment body) :
          item.EndsBefore ((returnedRow row).flatMap Item.chars) := by
        rw [(IsReturned.row hrow.wellFormed).chars]
        exact hends.addReturns hother
      rw [returnedRow_cons hcomment]
      cases item with
      | blank c =>
          rw [Item.returned]
          split
          next => exact ⟨⟨rfl, trivial⟩, ⟨rfl, trivial⟩, ih hrow⟩
          next => exact ⟨⟨hwf, trivial⟩, ih hrow⟩
      | comment body =>
          -- A line feed behind the comment would have been taken together with it.
          cases row with
          | nil => exact ⟨⟨hwf, Item.endsBefore_nil _⟩, trivial⟩
          | cons next row =>
              have hne := Item.chars_ne_nil_of_wellFormed hrow.1.wellFormed
              rw [List.flatMap_cons] at hends
              obtain rfl := Item.eq_blank_newline hrow.1.wellFormed
                fun c hc => hends c (List.head?_append_of_ne_nil _ hne ▸ hc)
              exact absurd rfl (hcomment body row rfl)
      | string body => exact ⟨⟨quote_not_mem_addReturns hwf, trivial⟩, ih hrow⟩
      | unterminated body => exact ⟨⟨quote_not_mem_addReturns hwf, hrest nofun⟩, ih hrow⟩
      | symbol which | number whole fraction | word letters | illegal c =>
          exact ⟨⟨hwf, hrest nofun⟩, ih hrow⟩

/-! ## Scans -/

/-- **Line endings do not matter.** A scan of a text with a carriage return before each line
feed yields the same tokens, but for the line feeds in strings, and the same
reports. -/
theorem scan_withReturns (dialect : Dialect) (source : String) :
    scan dialect (withReturns source) =
      ⟨(scan dialect source).tokens.map Token.returned, (scan dialect source).state⟩ := by
  have hcut := isCut_items dialect source.toList
  have hrow := IsReturned.row hcut.wellFormed
  have hitems : items dialect (withReturns source).toList =
      returnedRow (items dialect source.toList) := by
    apply items_eq_iff.mpr
    refine ⟨?_, isCut_returnedRow hcut⟩
    rw [hrow.chars, flatMap_chars_items, withReturns, String.toList_ofList]
  rw [scan_eq, scan_eq, tokens, tokens, diagnostics, diagnostics, hitems, hrow.tokensFrom_eq,
    hrow.diagnostics, List.map_toArray]

/-- A number with a point behind it, a comment that has a carriage return already, and a
string over two lines. -/
example : (scan ⟨false⟩ (withReturns "1.\n// a\r\n\"b\nc\"\n@")).tokens.toList =
    [⟨.number, "1", some (.num (.ofBits 0x3FF0000000000000)), ⟨1⟩⟩, ⟨.symbol .dot, ".", none, ⟨1⟩⟩,
      ⟨.string, "\"b\r\nc\"", some (.str "b\r\nc"), ⟨3⟩⟩, .eof ⟨5⟩] := by decide +kernel

end Lox
