/-
# Scanning undoes rendering

Tokens are rendered by writing their lexemes one after another with blanks
between them. The tokens may come from scans of different texts, and any row of
blanks will do as a separator, as long as there is one between two neighbours.
Scanning the rendering gives the tokens back. Only their lines are new: they are
the lines on which the lexemes stand in the rendering.

Two facts carry the proof. The lexeme of a scanned token belongs to a well-formed
item, and no item with a token is made longer by a blank behind it. The items of
a rendering can then be named, and nothing has to be read again.
-/

import Lox.Proofs.Lexeme

namespace Lox

/-- A token, other than the one for the end, that a scan of some text yields. -/
def Scanned (dialect : Dialect) (token : Token) : Prop :=
  token.kind ≠ .eof ∧ ∃ source, token ∈ (scan dialect source).tokens

/-- A text that has only blanks. -/
def IsGap (text : List Char) : Prop := ∀ c ∈ text, c ∈ [' ', '\t', '\r', '\n']

/-- Lexemes written one after another, each with a gap behind it. -/
def rendered : List (Token × List Char) → List Char
  | [] => []
  | (token, gap) :: row => token.lexeme.toList ++ gap ++ rendered row

/-- The tokens of a rendering that stands behind the text `before`, and the one
for the end. Each is on the line that follows from the text before its lexeme. -/
def placed (before : List Char) : List (Token × List Char) → List Token
  | [] => [.eof ⟨1 + before.count '\n'⟩]
  | (token, gap) :: row =>
      { token with line := ⟨1 + before.count '\n'⟩ } ::
        placed (before ++ token.lexeme.toList ++ gap) row

theorem IsGap.isBlank {gap : List Char} (h : IsGap gap) : ∀ c ∈ gap, isBlank c = true :=
  fun c hc => isBlank_iff.mpr (h c hc)

/-! ## Scanned tokens -/

theorem Item.endsAtBlank_of_kind? {item : Item} {kind : Kind} (h : item.kind? = some kind) :
    item.EndsAtBlank := by
  cases item with
  | comment body | unterminated body => cases h
  | _ => trivial

/-- A scanned token is the token of a well-formed item. -/
theorem exists_item_of_scanned {dialect : Dialect} {token : Token} (h : Scanned dialect token) :
    ∃ item : Item, item.WellFormed dialect ∧ item.EndsAtBlank ∧
      token.lexeme.toList = item.chars ∧
      (∀ line, item.token? line = some { token with line := line }) ∧
      ∀ line, item.diagnostic? line = none := by
  obtain ⟨hkind, source, hmem⟩ := h
  rw [scan_eq] at hmem
  obtain ⟨item, hitem, start, htoken⟩ :=
    exists_item_of_mem_tokensFrom (List.mem_toArray.mp hmem) hkind
  have hwf := (isCut_items dialect source.toList).wellFormed item hitem
  rw [Item.token?_eq hwf, Option.map_eq_some_iff] at htoken
  obtain ⟨kind, hitemKind, rfl⟩ := htoken
  refine ⟨item, hwf, Item.endsAtBlank_of_kind? hitemKind, String.toList_ofList, ?_, ?_⟩
  · intro line
    rw [Item.token?_eq hwf, hitemKind]
    rfl
  · exact Item.diagnostic?_eq_none_of_kind? hitemKind

/-! ## Renderings -/

theorem gaps_of_cons {token : Token} {gap : List Char} {row : List (Token × List Char)}
    (h : ∀ pair ∈ ((token, gap) :: row).dropLast, pair.2 ≠ []) :
    (gap = [] → row = []) ∧ ∀ pair ∈ row.dropLast, pair.2 ≠ [] := by
  cases row with
  | nil => simp
  | cons next row =>
      obtain ⟨hgap, hrow⟩ := List.forall_mem_cons.mp h
      exact ⟨fun hempty => absurd hempty hgap, hrow⟩

/-- Behind a lexeme comes a gap, and without a gap the rendering is over. -/
theorem isBlank_of_mem_head? {gap : List Char} {row : List (Token × List Char)} (hgap : IsGap gap)
    (hlast : gap = [] → row = []) : ∀ c ∈ (gap ++ rendered row).head?, isBlank c = true := by
  intro c hc
  cases gap with
  | nil =>
      rw [hlast rfl] at hc
      cases hc
  | cons d gap =>
      rw [← Option.some.inj hc]
      exact hgap.isBlank d List.mem_cons_self

/-- A rendering has items of its own: those of the tokens, and those of the gaps. -/
theorem exists_cut_of_row {dialect : Dialect} {row : List (Token × List Char)}
    (hscanned : ∀ pair ∈ row, Scanned dialect pair.1) (hgaps : ∀ pair ∈ row, IsGap pair.2)
    (hbetween : ∀ pair ∈ row.dropLast, pair.2 ≠ []) :
    ∃ cut : List Item, IsCut dialect cut ∧ cut.flatMap Item.chars = rendered row ∧
      (∀ before, tokensFrom ⟨1 + before.count '\n'⟩ cut = placed before row) ∧
      ∀ line, diagnosticsFrom line cut = [] := by
  induction row with
  | nil => exact ⟨[], trivial, rfl, fun _ => rfl, fun _ => rfl⟩
  | cons pair row ih =>
      obtain ⟨token, gap⟩ := pair
      obtain ⟨htoken, hscanned⟩ := List.forall_mem_cons.mp hscanned
      obtain ⟨hgap, hgaps⟩ := List.forall_mem_cons.mp hgaps
      obtain ⟨hlast, hbetween⟩ := gaps_of_cons hbetween
      obtain ⟨cut, hcut, hchars, htokens, hreports⟩ := ih hscanned hgaps hbetween
      obtain ⟨item, hwf, hblank, hlexeme, hmoved, hsilent⟩ := exists_item_of_scanned htoken
      have htext : (gapItems gap ++ cut).flatMap Item.chars = gap ++ rendered row := by
        rw [List.flatMap_append, flatMap_chars_gapItems, hchars]
      have hnext := isBlank_of_mem_head? hgap hlast
      have hends : item.EndsBefore (gap ++ rendered row) := by
        apply item.endsBefore_nil.mono hblank
        · intro c hc
          exact .inl (hnext c hc)
        · intro hdot
          exact absurd (hnext '.' hdot) (by decide)
      refine ⟨item :: (gapItems gap ++ cut), ⟨⟨hwf, ?_⟩, ?_⟩, ?_, ?_, ?_⟩
      · rwa [htext]
      · exact isCut_gapItems_append hgap.isBlank hcut
      · rw [List.flatMap_cons, htext, rendered, ← hlexeme, List.append_assoc]
      · intro before
        have hline : ((⟨1 + before.count '\n'⟩ : Line).after item.chars).after gap =
            ⟨1 + (before ++ token.lexeme.toList ++ gap).count '\n'⟩ := by
          rw [hlexeme]
          simp [Line.after, Line.plus, Line.breaks, Nat.add_assoc]
        rw [tokensFrom, tokensFrom_append, tokensWithin_gapItems, flatMap_chars_gapItems, hline,
          htokens, hmoved]
        rfl
      · intro line
        rw [diagnosticsFrom, diagnosticsFrom_append, diagnosticsFrom_gapItems, hreports, hsilent]
        rfl

/-- A rendering behind a gap is scanned without reports, to its tokens. -/
theorem scan_gap_rendered {dialect : Dialect} {leading : List Char}
    {row : List (Token × List Char)} (hleading : IsGap leading)
    (hscanned : ∀ pair ∈ row, Scanned dialect pair.1) (hgaps : ∀ pair ∈ row, IsGap pair.2)
    (hbetween : ∀ pair ∈ row.dropLast, pair.2 ≠ []) :
    scan dialect (String.ofList (leading ++ rendered row)) =
      ⟨(placed leading row).toArray, .empty⟩ := by
  obtain ⟨cut, hcut, hchars, htokens, hreports⟩ := exists_cut_of_row hscanned hgaps hbetween
  have hitems : items dialect (leading ++ rendered row) = gapItems leading ++ cut := by
    apply items_eq_iff.mpr
    refine ⟨?_, isCut_gapItems_append hleading.isBlank hcut⟩
    rw [List.flatMap_append, flatMap_chars_gapItems, hchars]
  have hline : Line.first.after leading = ⟨1 + leading.count '\n'⟩ := rfl
  rw [scan_eq, tokens, diagnostics, String.toList_ofList, hitems, tokensFrom_append,
    diagnosticsFrom_append, tokensWithin_gapItems, diagnosticsFrom_gapItems,
    flatMap_chars_gapItems, hreports, hline, htokens]
  rfl

/-- **Scanning undoes rendering.** Scanned tokens with blanks between them are
scanned without a report to the same tokens on their new lines, and the lexeme of
a scanned token by itself is scanned to that token alone. -/
theorem scan_rendered {dialect : Dialect} {leading : List Char}
    {row : List (Token × List Char)} (hleading : IsGap leading)
    (hscanned : ∀ pair ∈ row, Scanned dialect pair.1) (hgaps : ∀ pair ∈ row, IsGap pair.2)
    (hbetween : ∀ pair ∈ row.dropLast, pair.2 ≠ []) :
    scan dialect (String.ofList (leading ++ rendered row)) =
        ⟨(placed leading row).toArray, .empty⟩ ∧
      ∀ token, Scanned dialect token → scan dialect token.lexeme =
        ⟨#[{ token with line := ⟨1⟩ }, .eof ⟨1 + token.lexeme.toList.count '\n'⟩], .empty⟩ := by
  refine ⟨scan_gap_rendered hleading hscanned hgaps hbetween, ?_⟩
  intro token htoken
  have hempty : IsGap [] := by simp [IsGap]
  have hone : scan dialect (String.ofList ([] ++ rendered [(token, [])])) = _ :=
    scan_gap_rendered hempty (by simpa using htoken) (by simpa using hempty) (by simp)
  simpa [rendered, placed] using hone

/-- A string over two lines, an operator and a reserved word, each from a scan of
its own, put together with gaps of different kinds. -/
theorem scan_rendered_three :
    scan ⟨false⟩ (String.ofList (['\n'] ++ rendered
        [(⟨.string, "\"a\n//\"", some (.str "a\n//"), ⟨1⟩⟩, ['\t', '\n']),
          (⟨.symbol .equalEqual, "==", none, ⟨1⟩⟩, ['\r']),
          (⟨.keyword .orKw, "or", none, ⟨2⟩⟩, [])])) =
      ⟨#[⟨.string, "\"a\n//\"", some (.str "a\n//"), ⟨2⟩⟩,
          ⟨.symbol .equalEqual, "==", none, ⟨4⟩⟩, ⟨.keyword .orKw, "or", none, ⟨4⟩⟩, .eof ⟨4⟩],
        .empty⟩ := by
  have hstring : Scanned ⟨false⟩ ⟨.string, "\"a\n//\"", some (.str "a\n//"), ⟨1⟩⟩ :=
    ⟨by decide, "\"a\n//\"", by decide +kernel⟩
  have hequal : Scanned ⟨false⟩ ⟨.symbol .equalEqual, "==", none, ⟨1⟩⟩ :=
    ⟨by decide, "===", by decide +kernel⟩
  have hor : Scanned ⟨false⟩ ⟨.keyword .orKw, "or", none, ⟨2⟩⟩ :=
    ⟨by decide, "?\nor+", by decide +kernel⟩
  refine (scan_rendered ?_ ?_ ?_ ?_).1
  · simp [IsGap]
  · simp [hstring, hequal, hor]
  · simp [IsGap]
  · simp

end Lox
