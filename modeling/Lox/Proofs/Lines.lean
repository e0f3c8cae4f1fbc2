/-
# The lines of tokens and reports

A line is never looked up in the source text. It is counted while the text is
read, over blanks, comments and strings alike, and a token or a report is given
the count of the moment. This module says what the counts come to: a token is on
the line on which its lexeme begins, whatever the lexeme goes on to contain, and
the token for the end is on the last line.

Both lists of a scan are read off the same row of items, so their order is one
fact. What belongs to an item is marked with a line between the one on which the
item begins and the one on which it ends, and the next item begins there.
-/

import Lox.Proofs.MaximalMunch

namespace Lox

universe u

/-- The line of the character that follows the given text in a source text. -/
def lineBehind (text : List Char) : Line := ⟨1 + text.count '\n'⟩

/-- The pieces of a text that goes on after `before`, each with all the text that
stands before it. -/
def Piece.located (before : List Char) : List Piece → List (List Char × Piece)
  | [] => []
  | piece :: pieces => (before, piece) :: located (before ++ piece.text) pieces

/-- The kind, the lexeme and the line of the token for a piece behind a text. -/
def Piece.tokenBehind? (place : List Char × Piece) : Option (Kind × String × Line) :=
  place.2.token?.map fun token => (token.1, token.2, lineBehind place.1)

theorem lineBehind_append (before text : List Char) :
    lineBehind (before ++ text) = (lineBehind before).after text := by
  simp [lineBehind, Line.after, Line.plus, Line.breaks, Nat.add_assoc]

theorem Line.le_after (line : Line) (text : List Char) :
    line.number ≤ (line.after text).number :=
  Nat.le_add_right _ _

/-! ## What is collected along a row -/

/-- What the items of a row yield, each on the line on which it begins. -/
def along {α : Type u} (yield? : Line → Item → Option α) (line : Line) : List Item → List α
  | [] => []
  | item :: row => (yield? line item).toList ++ along yield? (line.after item.chars) row

theorem tokensFrom_eq_along (line : Line) (row : List Item) :
    tokensFrom line row = along (fun line item => item.token? line) line row ++
      [.eof (line.after (row.flatMap Item.chars))] := by
  induction row generalizing line with
  | nil => rfl
  | cons item row ih =>
      rw [tokensFrom, ih, along, List.flatMap_cons, Line.after_append, List.append_assoc]

theorem tokensWithin_eq_along (line : Line) (row : List Item) :
    tokensWithin line row = along (fun line item => item.token? line) line row := by
  induction row generalizing line with
  | nil => rfl
  | cons item row ih => rw [tokensWithin, ih, along]

theorem diagnosticsFrom_eq_along (line : Line) (row : List Item) :
    diagnosticsFrom line row = along (fun line item => item.diagnostic? line) line row := by
  induction row generalizing line with
  | nil => rfl
  | cons item row ih => rw [diagnosticsFrom, ih, along]

/-- The items of a second row begin where the characters of the first end. -/
theorem along_append {α : Type u} (yield? : Line → Item → Option α) (line : Line)
    (first second : List Item) :
    along yield? line (first ++ second) =
      along yield? line first ++ along yield? (line.after (first.flatMap Item.chars)) second := by
  induction first generalizing line with
  | nil => rfl
  | cons item first ih =>
      rw [List.cons_append, along, ih, along, List.flatMap_cons, Line.after_append,
        List.append_assoc]

/-- What a filter leaves of a row is what it leaves of each item. -/
theorem filter_along {α : Type u} (keep : α → Bool) (yield? : Line → Item → Option α) (line : Line)
    (row : List Item) :
    (along yield? line row).filter keep =
      along (fun line item => (yield? line item).filter keep) line row := by
  induction row generalizing line with
  | nil => rfl
  | cons item row ih =>
      rw [along, along, List.filter_append, ih, Option.toList_filter]

/-- A change of the items that leaves their characters as they are leaves every item
on its line. -/
theorem along_map {α : Type u} {change : Item → Item}
    (hchars : ∀ item, (change item).chars = item.chars) (yield? : Line → Item → Option α)
    (line : Line) (row : List Item) :
    along yield? line (row.map change) =
      along (fun line item => yield? line (change item)) line row := by
  induction row generalizing line with
  | nil => rfl
  | cons item row ih => rw [List.map_cons, along, along, hchars, ih]

section Order

variable {α : Type u} {yield? : Line → Item → Option α} {mark : α → Line}

/-- Whether all that an item yields is marked with a line of that item. -/
def MarksWithin (yield? : Line → Item → Option α) (mark : α → Line) : Prop :=
  ∀ line item, ∀ a ∈ yield? line item,
    line.number ≤ (mark a).number ∧ (mark a).number ≤ (line.after item.chars).number

/-- What a row yields is marked with lines of the row. -/
theorem MarksWithin.bounds (h : MarksWithin yield? mark) (line : Line) (row : List Item) :
    ∀ a ∈ along yield? line row, line.number ≤ (mark a).number ∧
      (mark a).number ≤ (line.after (row.flatMap Item.chars)).number := by
  induction row generalizing line with
  | nil => exact fun _ => nofun
  | cons item row ih =>
      intro a ha
      rw [List.flatMap_cons, Line.after_append]
      rcases List.mem_append.mp ha with hhead | htail
      · have hitem := h line item a (Option.mem_toList.mp hhead)
        exact ⟨hitem.1, Nat.le_trans hitem.2 (Line.le_after _ _)⟩
      · have hrow := ih (line.after item.chars) a htail
        exact ⟨Nat.le_trans (Line.le_after _ _) hrow.1, hrow.2⟩

/-- The lines never decrease along a row. -/
theorem MarksWithin.pairwise (h : MarksWithin yield? mark) (line : Line) (row : List Item) :
    (along yield? line row).Pairwise fun a b => (mark a).number ≤ (mark b).number := by
  induction row generalizing line with
  | nil => exact List.Pairwise.nil
  | cons item row ih =>
      apply List.pairwise_append.mpr
      refine ⟨?_, ih _, ?_⟩
      · cases yield? line item with
        | none => exact List.Pairwise.nil
        | some a => exact List.pairwise_singleton _ _
      · intro a ha b hb
        have hitem := h line item a (Option.mem_toList.mp ha)
        exact Nat.le_trans hitem.2 (h.bounds _ row b hb).1

end Order

section Moving

variable {α : Type u} {yield? : Line → Item → Option α} {mark : α → Line} {place : α → Line → α}

theorem Line.after_plus (line : Line) (n : Nat) (text : List Char) :
    (line.plus n).after text = (line.after text).plus n := by
  simp [Line.after, Line.plus, Nat.add_right_comm]

/-- Whether an item yields the same wherever it stands, only on another line. -/
def MovesWith (yield? : Line → Item → Option α) (mark : α → Line) (place : α → Line → α) : Prop :=
  ∀ line n item, yield? (line.plus n) item =
    (yield? line item).map fun a => place a ((mark a).plus n)

/-- A row that begins further down yields the same, as much further down. -/
theorem MovesWith.along_plus (h : MovesWith yield? mark place) (line : Line) (n : Nat)
    (row : List Item) :
    along yield? (line.plus n) row =
      (along yield? line row).map fun a => place a ((mark a).plus n) := by
  induction row generalizing line with
  | nil => rfl
  | cons item row ih =>
      rw [along, along, List.map_append, Line.after_plus, ih, h]
      cases yield? line item <;> rfl

end Moving

/-- A token on another line. -/
def Token.onLine (token : Token) (line : Line) : Token := { token with line := line }

/-- A diagnostic about another line. -/
def Diagnostic.onLine (diagnostic : Diagnostic) (line : Line) : Diagnostic :=
  { diagnostic with line := line }

namespace Item

/-- A token is on the line on which its item begins. -/
theorem line_of_token? {item : Item} {line : Line} {token : Token}
    (h : item.token? line = some token) : token.line = line := by
  cases item with
  | number whole fraction =>
      obtain ⟨value, -, hvalue⟩ := Option.map_eq_some_iff.mp h
      exact hvalue ▸ rfl
  | blank c | comment body | unterminated body | illegal c => cases h
  | symbol which | string body | word letters =>
      cases h
      rfl

theorem marksWithin_token? : MarksWithin (fun line item => item.token? line) Token.line := by
  intro line item token h
  rw [line_of_token? h]
  exact ⟨Nat.le_refl _, Line.le_after _ _⟩

theorem marksWithin_diagnostic? :
    MarksWithin (fun line item => item.diagnostic? line) Diagnostic.line := by
  intro line item report h
  cases item with
  | unterminated body =>
      cases h
      exact ⟨Line.le_after _ _, Nat.le_refl _⟩
  | illegal c =>
      cases h
      exact ⟨Nat.le_refl _, Line.le_after _ _⟩
  | _ => cases h

theorem movesWith_token? :
    MovesWith (fun line item => item.token? line) Token.line Token.onLine := by
  intro line n item
  cases item with
  | number whole fraction => simp [token?, Option.map_map, Function.comp_def, Token.onLine]
  | _ => rfl

theorem movesWith_diagnostic? :
    MovesWith (fun line item => item.diagnostic? line) Diagnostic.line Diagnostic.onLine := by
  intro line n item
  cases item with
  | unterminated body =>
      simp [diagnostic?, Diagnostic.ofFault, Diagnostic.onLine, Line.after_plus]
  | _ => rfl

end Item

/-- The tokens of a row that begins further down are as much further down, the one
for the end with them. -/
theorem tokensFrom_plus (line : Line) (n : Nat) (row : List Item) :
    tokensFrom (line.plus n) row =
      (tokensFrom line row).map fun token => token.onLine (token.line.plus n) := by
  rw [tokensFrom_eq_along, tokensFrom_eq_along, Item.movesWith_token?.along_plus, Line.after_plus,
    List.map_append]
  rfl

theorem diagnosticsFrom_plus (line : Line) (n : Nat) (row : List Item) :
    diagnosticsFrom (line.plus n) row =
      (diagnosticsFrom line row).map fun report => report.onLine (report.line.plus n) := by
  rw [diagnosticsFrom_eq_along, diagnosticsFrom_eq_along, Item.movesWith_diagnostic?.along_plus]

/-- The lines of the tokens of a row never decrease and end with the last one. -/
theorem lines_tokensFrom (line : Line) (row : List Item) :
    (tokensFrom line row).Pairwise (fun a b => a.line.number ≤ b.line.number) ∧
      ∀ token ∈ tokensFrom line row,
        token.line.number ≤ (line.after (row.flatMap Item.chars)).number := by
  have hbounds := Item.marksWithin_token?.bounds line row
  rw [tokensFrom_eq_along]
  constructor
  · apply List.pairwise_append.mpr
    refine ⟨Item.marksWithin_token?.pairwise line row, List.pairwise_singleton _ _, ?_⟩
    intro token htoken last hlast
    rw [List.mem_singleton.mp hlast]
    exact (hbounds token htoken).2
  · intro token htoken
    rcases List.mem_append.mp htoken with hwithin | hlast
    · exact (hbounds token hwithin).2
    · rw [List.mem_singleton.mp hlast]
      exact Nat.le_refl _

/-- The lines of the reports of a row never decrease and stay within it. -/
theorem lines_diagnosticsFrom (line : Line) (row : List Item) :
    (diagnosticsFrom line row).Pairwise (fun a b => a.line.number ≤ b.line.number) ∧
      ∀ report ∈ diagnosticsFrom line row,
        report.line.number ≤ (line.after (row.flatMap Item.chars)).number := by
  rw [diagnosticsFrom_eq_along]
  refine ⟨Item.marksWithin_diagnostic?.pairwise line row, ?_⟩
  intro report hreport
  exact (Item.marksWithin_diagnostic?.bounds line row report hreport).2

/-! ## Where the tokens of a text are -/

/-- Each token of a row is on the line behind the text before its piece. -/
theorem map_tokensFrom_lineBehind {dialect : Dialect} {row : List Item}
    (h : ∀ item ∈ row, item.WellFormed dialect) (before : List Char) :
    (tokensFrom (lineBehind before) row).map (fun token => (token.kind, token.lexeme, token.line)) =
      (Piece.located before (row.map Item.piece)).filterMap Piece.tokenBehind? ++
        [(.eof, "", lineBehind (before ++ row.flatMap Item.chars))] := by
  induction row generalizing before with
  | nil => simp [tokensFrom, Token.eof, Piece.located]
  | cons item row ih =>
      obtain ⟨hitem, hrow⟩ := List.forall_mem_cons.mp h
      have hhead : (item.token? (lineBehind before)).map
            (fun token => (token.kind, token.lexeme, token.line)) =
          Piece.tokenBehind? (before, item.piece) := by
        rw [Piece.tokenBehind?, ← Item.token?_piece hitem (lineBehind before), Option.map_map]
        apply Option.map_congr
        intro token htoken
        simp [Item.line_of_token? htoken]
      rw [tokensFrom, List.map_append, ← lineBehind_append, ih hrow, List.map_cons, Piece.located,
        List.filterMap_cons, ← hhead, Item.text_piece, List.flatMap_cons, List.append_assoc]
      cases item.token? (lineBehind before) <;> rfl

/-- Whether a report is about a character. -/
def Diagnostic.isUnexpected (report : Diagnostic) : Bool := report.message == "Unexpected character."

/-- Whether a report is about a missing quote. -/
def Diagnostic.isUnterminated (report : Diagnostic) : Bool := report.message == "Unterminated String"

/-- Whether a report is about a character of a text that begins on the given line,
and is made where that character stands. -/
def Diagnostic.IsUnexpectedIn (line : Line) (text : List Char) (report : Diagnostic) : Prop :=
  ∃ before c behind, text = before ++ c :: behind ∧
    report = ⟨line.after before, "Unexpected character."⟩

theorem Diagnostic.IsUnexpectedIn.message {line : Line} {text : List Char} {report : Diagnostic}
    (h : report.IsUnexpectedIn line text) : report.message = "Unexpected character." := by
  obtain ⟨before, c, behind, -, rfl⟩ := h
  rfl

theorem Diagnostic.IsUnexpectedIn.append_left {line : Line} {text : List Char} {report : Diagnostic}
    (head : List Char) (h : report.IsUnexpectedIn (line.after head) text) :
    report.IsUnexpectedIn line (head ++ text) := by
  obtain ⟨before, c, behind, htext, hreport⟩ := h
  refine ⟨head ++ before, c, behind, ?_, ?_⟩
  · rw [htext, List.append_assoc]
  · rw [hreport, Line.after_append]

/-- Characters are reported where they stand. A string that is open to the end of
the text is reported there, after all characters. -/
theorem exists_unexpected_of_isCut {dialect : Dialect} {row : List Item} (h : IsCut dialect row)
    (line : Line) :
    ∃ unexpected : List Diagnostic,
      (∀ report ∈ unexpected, report.IsUnexpectedIn line (row.flatMap Item.chars)) ∧
        (diagnosticsFrom line row = unexpected ∨
          diagnosticsFrom line row = unexpected ++
            [⟨line.after (row.flatMap Item.chars), "Unterminated String"⟩]) := by
  induction row generalizing line with
  | nil => exact ⟨[], fun _ => nofun, .inl rfl⟩
  | cons item row ih =>
      obtain ⟨hstands, hrow⟩ := h
      obtain ⟨unexpected, hplaces, hreports⟩ := ih hrow (line.after item.chars)
      rw [List.flatMap_cons, Line.after_append]
      have hothers : ∀ report ∈ unexpected,
          report.IsUnexpectedIn line (item.chars ++ row.flatMap Item.chars) :=
        fun report hreport => (hplaces report hreport).append_left item.chars
      cases item with
      | unterminated body =>
          obtain rfl := hrow.eq_nil hstands.endsBefore
          exact ⟨[], fun _ => nofun, .inr rfl⟩
      | illegal c =>
          refine ⟨⟨line, "Unexpected character."⟩ :: unexpected, ?_, ?_⟩
          · exact List.forall_mem_cons.mpr ⟨⟨[], c, _, rfl, rfl⟩, hothers⟩
          · rw [diagnosticsFrom]
            exact hreports.imp (congrArg (_ :: ·)) (congrArg (_ :: ·))
      | _ => exact ⟨unexpected, hothers, hreports⟩

/-- A report tells of a character where it stands, or of a missing quote where the
text ends. -/
theorem place_of_mem_diagnosticsFrom {dialect : Dialect} {row : List Item}
    (h : IsCut dialect row) {line : Line} {report : Diagnostic}
    (hreport : report ∈ diagnosticsFrom line row) :
    report.IsUnexpectedIn line (row.flatMap Item.chars) ∨
      report = ⟨line.after (row.flatMap Item.chars), "Unterminated String"⟩ := by
  obtain ⟨unexpected, hplaces, hall | hall⟩ := exists_unexpected_of_isCut h line
  · rw [hall] at hreport
    exact .inl (hplaces report hreport)
  · rw [hall] at hreport
    exact (List.mem_append.mp hreport).imp (hplaces report) List.mem_singleton.mp

/-- **Lines.** Each token is on the line that follows from the text before its
lexeme, and the token for the end is on the last line. The lines of the tokens
and of the reports never decrease and never exceed the last. A missing quote is
reported at most once, after everything else and on the last line. -/
theorem scan_lines (dialect : Dialect) (source : String) :
    (∃ pieces : List Piece, Munch dialect source.toList pieces ∧
        pieces.flatMap Piece.text = source.toList ∧
        (scan dialect source).tokens.toList.map
            (fun token => (token.kind, token.lexeme, token.line)) =
          (Piece.located [] pieces).filterMap Piece.tokenBehind? ++
            [(.eof, "", lineBehind source.toList)]) ∧
      (scan dialect source).tokens.toList.Pairwise
        (fun first second => first.line.number ≤ second.line.number) ∧
      (scan dialect source).state.entries.toList.Pairwise
        (fun first second => first.line.number ≤ second.line.number) ∧
      (∀ token ∈ (scan dialect source).tokens,
        token.line.number ≤ (lineBehind source.toList).number) ∧
      (∀ report ∈ (scan dialect source).state.entries,
        report.line.number ≤ (lineBehind source.toList).number) ∧
      ∃ unexpected : List Diagnostic,
        (∀ report ∈ unexpected, report.message = "Unexpected character.") ∧
          ((scan dialect source).state.entries.toList = unexpected ∨
            (scan dialect source).state.entries.toList = unexpected ++
              [⟨lineBehind source.toList, "Unterminated String"⟩]) := by
  have hcut := isCut_items dialect source.toList
  have htext := flatMap_chars_items dialect source.toList
  have htokens := lines_tokensFrom .first (items dialect source.toList)
  have hreports := lines_diagnosticsFrom .first (items dialect source.toList)
  obtain ⟨unexpected, hplaced, hfaults⟩ := exists_unexpected_of_isCut hcut .first
  have hplaces := map_tokensFrom_lineBehind hcut.wellFormed []
  have hmunch := munch_of_isCut hcut
  rw [htext] at htokens hreports hfaults hplaces hmunch
  simp only [scan_eq, List.mem_toArray, List.toList_toArray]
  refine ⟨⟨(items dialect source.toList).map Item.piece, hmunch, ?_, hplaces⟩,
    htokens.1, hreports.1, htokens.2, hreports.2,
    unexpected, fun report hreport => (hplaced report hreport).message, hfaults⟩
  simpa only [List.flatMap_map, Item.text_piece] using htext

end Lox
