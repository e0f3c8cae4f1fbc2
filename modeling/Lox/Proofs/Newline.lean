/-
# Texts that a line feed divides

Only a string goes on over a line feed. If no string is open where a text ends,
then nothing in the text is read differently because a line feed and more text
follow: no number, no operator and no comment reaches beyond it. The items of the
whole are the items of the two sides with the line feed between them.

What the second side yields is then what it yields by itself, further down. The
distance is all that a scan carries over a line feed.
-/

import Lox.Proofs.Lines

namespace Lox

/-! ## Open strings -/

/-- Whether no string of a row is left open. -/
def IsClosed (row : List Item) : Prop := ∀ body, .unterminated body ∉ row

/-- An open string is what a missing quote is reported for, and nothing else is. -/
theorem isClosed_iff {row : List Item} {line : Line} :
    IsClosed row ↔ ∀ report ∈ diagnosticsFrom line row, report.message ≠ "Unterminated String" := by
  have hmessages := map_diagnosticsFrom row line
  have hpiece (item : Item) : item.piece.message? = some "Unterminated String" ↔
      ∃ body, item = .unterminated body := by
    cases item <;> simp [Item.piece, Piece.message?]
  have hreported : "Unterminated String" ∈ (diagnosticsFrom line row).map Diagnostic.message ↔
      ∃ body, .unterminated body ∈ row := by
    rw [hmessages, List.filterMap_map, List.mem_filterMap]
    constructor
    · rintro ⟨item, hitem, hmessage⟩
      obtain ⟨body, rfl⟩ := (hpiece item).mp hmessage
      exact ⟨body, hitem⟩
    · rintro ⟨body, hitem⟩
      exact ⟨_, hitem, rfl⟩
  constructor
  · intro hclosed report hreport hmessage
    obtain ⟨body, hitem⟩ := hreported.mp (List.mem_map.mpr ⟨report, hreport, hmessage⟩)
    exact hclosed body hitem
  · intro hother body hitem
    obtain ⟨report, hreport, hmessage⟩ := List.mem_map.mp (hreported.mpr ⟨body, hitem⟩)
    exact hother report hreport hmessage

/-! ## Items before a line feed -/

/-- A line feed and what follows it make no item longer but an open string. -/
theorem Item.EndsBefore.append_newline {item : Item} {rest : List Char} (h : item.EndsBefore rest)
    (hitem : ∀ body, item ≠ .unterminated body) (more : List Char) :
    item.EndsBefore (rest ++ '\n' :: more) := by
  have hfirst {text : List Char} :
      ∀ c ∈ (text ++ '\n' :: more).head?, c = '\n' ∨ c ∈ text.head? := by
    intro c hc
    cases text with
    | nil => exact .inl (Option.some.inj hc).symm
    | cons d text => exact .inr hc
  have hfeed {c : Char} (hc : c = '\n') : isBlank c = true := by
    rw [hc]
    rfl
  by_cases hblank : item.EndsAtBlank
  · apply h.mono hblank
    · intro c hc
      exact (hfirst c hc).imp hfeed id
    · intro hdot c hc
      cases rest with
      | nil => cases hdot
      | cons d rest => exact (hfirst c hc).imp hfeed id
  · cases item with
    | comment body =>
        intro c hc
        exact (hfirst c hc).elim id (h c)
    | unterminated body => exact absurd rfl (hitem body)
    | _ => exact absurd trivial hblank

/-- A closed row, a line feed and another row stand before each other. -/
theorem IsCut.append_newline {dialect : Dialect} {row row' : List Item} (h : IsCut dialect row)
    (hclosed : IsClosed row) (h' : IsCut dialect row') :
    IsCut dialect (row ++ .blank '\n' :: row') := by
  induction row with
  | nil => exact ⟨⟨rfl, trivial⟩, h'⟩
  | cons item row ih =>
      obtain ⟨hstands, hrow⟩ := h
      have hitem : ∀ body, item ≠ .unterminated body := by
        rintro body rfl
        exact hclosed body List.mem_cons_self
      have hrest : IsClosed row := fun body hmem => hclosed body (List.mem_cons_of_mem _ hmem)
      have hends := hstands.endsBefore.append_newline hitem (row'.flatMap Item.chars)
      refine ⟨⟨hstands.wellFormed, ?_⟩, ih hrow hrest⟩
      show item.EndsBefore ((row ++ .blank '\n' :: row').flatMap Item.chars)
      rwa [List.flatMap_append, List.flatMap_cons]

/-- The items on both sides of a line feed are those of the sides by themselves. -/
theorem items_append_newline {dialect : Dialect} {a b : List Char}
    (h : IsClosed (items dialect a)) :
    items dialect (a ++ '\n' :: b) = items dialect a ++ .blank '\n' :: items dialect b := by
  apply items_eq_iff.mpr
  refine ⟨?_, (isCut_items dialect a).append_newline h (isCut_items dialect b)⟩
  rw [List.flatMap_append, List.flatMap_cons, flatMap_chars_items, flatMap_chars_items]
  rfl

/-- An open string goes on over a line feed and stays open. -/
theorem IsCut.exists_unterminated_newline {dialect : Dialect} {row : List Item}
    (h : IsCut dialect row) {body : List Char} (hmem : .unterminated body ∈ row) :
    ∃ row', IsCut dialect row' ∧ row'.flatMap Item.chars = row.flatMap Item.chars ++ ['\n'] ∧
      .unterminated (body ++ ['\n']) ∈ row' := by
  induction row with
  | nil => cases hmem
  | cons item row ih =>
      obtain ⟨hstands, hrow⟩ := h
      rcases List.mem_cons.mp hmem with rfl | htail
      · have hbody : '"' ∉ body := hstands.wellFormed
        have hquote : '"' ∉ body ++ ['\n'] := by simpa using hbody
        obtain rfl := hrow.eq_nil hstands.endsBefore
        exact ⟨[.unterminated (body ++ ['\n'])], ⟨⟨hquote, rfl⟩, trivial⟩, by simp [Item.chars],
          List.mem_singleton_self _⟩
      · obtain ⟨row', hrow', hchars, hopen⟩ := ih hrow htail
        -- An open string has nothing behind it, so the first item is another one.
        have hitem : ∀ other, item ≠ .unterminated other := by
          rintro other rfl
          obtain rfl := hrow.eq_nil hstands.endsBefore
          cases htail
        have hends := hstands.endsBefore.append_newline hitem []
        refine ⟨item :: row', ⟨⟨hstands.wellFormed, hchars ▸ hends⟩, hrow'⟩, ?_,
          List.mem_cons_of_mem _ hopen⟩
        rw [List.flatMap_cons, hchars, List.flatMap_cons, List.append_assoc]

/-- No string is open before a line feed if none is open behind it. -/
theorem isClosed_of_append_newline {dialect : Dialect} {text : List Char}
    (h : IsClosed (items dialect (text ++ ['\n']))) : IsClosed (items dialect text) := by
  intro body hmem
  obtain ⟨row', hcut, hchars, hopen⟩ := (isCut_items dialect text).exists_unterminated_newline hmem
  rw [flatMap_chars_items] at hchars
  rw [items_eq_iff.mpr ⟨hchars, hcut⟩] at h
  exact h _ hopen

/-! ## Scans -/

/-- **Line feeds divide a scan.** If no string is open where a text ends, then what
a line feed and a second text add to its tokens and its reports is what a scan of
the second text yields, moved down by the lines that come before. -/
theorem scan_append_newline {dialect : Dialect} {a b : String}
    (h : ∀ report ∈ (scan dialect a).state.entries, report.message ≠ "Unterminated String") :
    (scan dialect (a ++ "\n" ++ b)).tokens.toList =
        (scan dialect a).tokens.toList.filter (·.kind ≠ .eof) ++
          (scan dialect b).tokens.toList.map
            (fun token => token.onLine (token.line.plus (1 + a.toList.count '\n'))) ∧
      (scan dialect (a ++ "\n" ++ b)).state.entries.toList =
        (scan dialect a).state.entries.toList ++
          (scan dialect b).state.entries.toList.map
            (fun report => report.onLine (report.line.plus (1 + a.toList.count '\n'))) := by
  simp only [← Array.mem_toList_iff, toList_entries_scan] at h
  have htext : (a ++ "\n" ++ b).toList = a.toList ++ '\n' :: b.toList := by simp
  have hitems := items_append_newline (b := b.toList) (isClosed_iff.mpr h)
  have hline : (Line.first.after a.toList).after (Item.blank '\n').chars =
      Line.first.plus (1 + a.toList.count '\n') := by
    simp [Line.after, Line.plus, Line.breaks, Item.chars, Nat.add_assoc, Nat.add_comm 1]
  simp only [toList_tokens_scan, toList_entries_scan, htext, hitems]
  constructor
  · rw [tokensFrom_append, flatMap_chars_items, filter_tokensFrom, ← tokensFrom_plus, ← hline]
    rfl
  · rw [diagnosticsFrom_append, flatMap_chars_items, ← diagnosticsFrom_plus, ← hline]
    rfl

/-- A point, an open comment and a fault before the line feed, and behind it what a
number, a fraction or a string could have gone on with. -/
theorem scan_append_newline_boundary :
    (∀ report ∈ (scan ⟨false⟩ "@\n3.//\"").state.entries, report.message ≠ "Unterminated String") ∧
      (scan ⟨false⟩ ("@\n3.//\"" ++ "\n" ++ "4=\"\n")).tokens.toList.map Token.text =
        ["NUMBER 3 3.0", "DOT . null", "NUMBER 4 4.0", "EQUAL = null", "EOF  null"] ∧
      (scan ⟨false⟩ ("@\n3.//\"" ++ "\n" ++ "4=\"\n")).tokens.toList.map Token.line =
        [⟨2⟩, ⟨2⟩, ⟨3⟩, ⟨3⟩, ⟨4⟩] ∧
      (scan ⟨false⟩ ("@\n3.//\"" ++ "\n" ++ "4=\"\n")).state.entries.toList =
        [⟨⟨1⟩, "Unexpected character."⟩, ⟨⟨4⟩, "Unterminated String"⟩] := by
  have hclosed : ∀ report ∈ (scan ⟨false⟩ "@\n3.//\"").state.entries,
      report.message ≠ "Unterminated String" := by decide +kernel
  have hscan := scan_append_newline (b := "4=\"\n") hclosed
  refine ⟨hclosed, ?_, ?_, ?_⟩
  · rw [hscan.1]
    decide +kernel
  · rw [hscan.1]
    decide +kernel
  · rw [hscan.2]
    decide +kernel

end Lox
