/-
# String bodies are opaque

What stands between the quotes of a string is never read as anything else. Another text
without a quote may take its place, with operators, comment marks or line feeds in it,
and every other token and every report is what it was. Only lines are counted over a
string, so what comes behind it moves by the difference in line feeds.

The quotes are what makes this true. Items before the string look at its opening quote
at most, and never at the character behind that (`Item.EndsBefore.change_body`); the items
after it begin behind its closing quote.
-/

import Lox.Proofs.Listing
import Lox.Proofs.Places

namespace Lox

/-- The text that goes on with a string at a place, and behind that with another text. -/
def Place.withString (place : Place) (body behind : String) : String :=
  String.ofList place.before ++ ("\"" ++ body ++ "\"") ++ behind

/-- Whether a token is another one that has moved by some lines. -/
def Token.IsMoved (lines : ℤ) (token moved : Token) : Prop :=
  moved.content = token.content ∧ (moved.line.number : ℤ) = token.line.number + lines

/-- Whether a report is another one that has moved by some lines. -/
def Diagnostic.IsMoved (lines : ℤ) (report moved : Diagnostic) : Prop :=
  moved.message = report.message ∧ (moved.line.number : ℤ) = report.line.number + lines

/-! ## Rows that begin on other lines -/

section Moving

variable (line : Line) (m n : ℕ) (row : List Item)

theorem isMoved_tokensFrom_plus :
    List.Forall₂ (Token.IsMoved (n - m)) (tokensFrom (line.plus m) row)
      (tokensFrom (line.plus n) row) := by
  rw [tokensFrom_plus, tokensFrom_plus, List.forall₂_map_left_iff, List.forall₂_map_right_iff,
    List.forall₂_same]
  intro token _
  refine ⟨rfl, ?_⟩
  simp only [Token.onLine, Line.number_plus]
  omega

theorem isMoved_diagnosticsFrom_plus :
    List.Forall₂ (Diagnostic.IsMoved (n - m)) (diagnosticsFrom (line.plus m) row)
      (diagnosticsFrom (line.plus n) row) := by
  rw [diagnosticsFrom_plus, diagnosticsFrom_plus, List.forall₂_map_left_iff,
    List.forall₂_map_right_iff, List.forall₂_same]
  intro report _
  refine ⟨rfl, ?_⟩
  simp only [Diagnostic.onLine, Line.number_plus]
  omega

end Moving

/-! ## Rows with another body -/

/-- An item that ends before a text with a quote ends before it whatever is behind the quote. -/
theorem Item.EndsBefore.change_body {item : Item} {text rest : List Char}
    (h : item.EndsBefore (text ++ '"' :: rest)) (rest' : List Char) :
    item.EndsBefore (text ++ '"' :: rest') := by
  cases item with
  | blank c | string body | illegal c => trivial
  | unterminated body => cases (List.append_eq_nil_iff.mp h).2
  | comment body | symbol which | word letters => cases text <;> exact h
  | number whole fraction =>
      obtain ⟨hstop, hpoint⟩ := h
      cases text with
      | nil => exact ⟨hstop, fun _ => nofun⟩
      | cons c text =>
          refine ⟨hstop, ?_⟩
          cases text <;> exact hpoint

section Rows

variable {dialect : Dialect} {front back : List Item} {old : List Char}

/-- Another body without a quote makes no item longer or shorter. -/
theorem IsCut.change_body (h : IsCut dialect (front ++ .string old :: back)) {body : List Char}
    (hbody : '"' ∉ body) : IsCut dialect (front ++ .string body :: back) := by
  induction front with
  | nil => exact ⟨⟨hbody, trivial⟩, h.2⟩
  | cons item front ih =>
      rw [List.cons_append] at h
      obtain ⟨⟨hwf, hends⟩, hothers⟩ := h
      refine ⟨⟨hwf, ?_⟩, ih hothers⟩
      have hchars (body : List Char) : (front ++ .string body :: back).flatMap Item.chars =
          front.flatMap Item.chars ++ '"' :: (body ++ '"' :: back.flatMap Item.chars) := by
        simp [Item.chars]
      rw [hchars] at hends
      show item.EndsBefore ((front ++ .string body :: back).flatMap Item.chars)
      rw [hchars]
      exact hends.change_body _

theorem after_chars_string (line : Line) (body : List Char) :
    line.after (Item.string body).chars = line.plus (body.count '\n') := by
  simp [Line.after, Line.breaks, Item.chars]

theorem Item.token?_string (line : Line) (body : String) :
    (string body.toList).token? line =
      some ⟨.string, "\"" ++ body ++ "\"", some (.str body), line⟩ := by
  have hlexeme : String.ofList (string body.toList).chars = "\"" ++ body ++ "\"" := by
    apply String.toList_inj.mp
    simp [chars]
  rw [token?, hlexeme, String.ofList_toList]

theorem Item.exists_string_of_token? {item : Item} (h : item.WellFormed dialect) {line : Line}
    {token : Token} (htoken : item.token? line = some token) (hkind : token.kind = .string) :
    ∃ body : String, item = string body.toList := by
  rw [token?_eq h, Option.map_eq_some_iff] at htoken
  obtain ⟨kind, hitem, rfl⟩ := htoken
  obtain rfl : kind = .string := hkind
  obtain ⟨body, rfl⟩ := exists_string_of_kind? hitem
  exact ⟨String.ofList body, by rw [String.toList_ofList]⟩

/-- A row with a string yields what is before it, its token, and what is behind it, as many
lines further down as the body has line feeds. -/
theorem tokensFrom_append_string (line : Line) (body : String) :
    tokensFrom line (front ++ .string body.toList :: back) = tokensWithin line front ++
      ⟨.string, "\"" ++ body ++ "\"", some (.str body), line.after (front.flatMap Item.chars)⟩ ::
        tokensFrom ((line.after (front.flatMap Item.chars)).plus (body.toList.count '\n'))
          back := by
  rw [tokensFrom_append, tokensFrom, after_chars_string, Item.token?_string]
  rfl

theorem diagnosticsFrom_append_string (line : Line) (body : List Char) :
    diagnosticsFrom line (front ++ .string body :: back) = diagnosticsFrom line front ++
      diagnosticsFrom ((line.after (front.flatMap Item.chars)).plus (body.count '\n')) back := by
  rw [diagnosticsFrom_append, diagnosticsFrom, after_chars_string]
  rfl

end Rows

theorem Place.items_withString {dialect : Dialect} {place : Place} {front back : List Item}
    {body : String} (h : IsCut dialect (front ++ .string body.toList :: back))
    (hbefore : place.before = front.flatMap Item.chars) :
    items dialect (place.withString body (String.ofList (back.flatMap Item.chars))).toList =
      front ++ .string body.toList :: back := by
  apply items_eq_iff.mpr
  refine ⟨?_, h⟩
  simp [withString, hbefore, Item.chars]

/-- **String bodies are opaque.** A text without a quote may take the place of the body of any
string of a source text. The tokens up to the string and what is reported up to it, which is what
is reported in the text before it, stay as they are. The string has the new lexeme and
payload on its old line. Every token and every report behind it stays too, up to its line,
which changes by the line feeds of the new body less those of the old one. -/
theorem scan_stringBodies (dialect : Dialect) (source : String) :
    ∃ places, (∀ other, IsPlaced dialect source other ↔ other = places) ∧
      ∀ earlier place later, places = earlier ++ place :: later → place.token.kind = .string →
        ∃ (old behind : String) (reports : List Diagnostic),
          place.token.payload = some (.str old) ∧
          source = place.withString old behind ∧
          (scan dialect source).state.entries.toList =
            (scan dialect (String.ofList place.before)).state.entries.toList ++ reports ∧
          ∀ body : String, '"' ∉ body.toList → ∃ tokens' reports',
            (scan dialect (place.withString body behind)).tokens.toList =
              earlier.map Place.token ++
                ⟨.string, "\"" ++ body ++ "\"", some (.str body), place.token.line⟩ :: tokens' ∧
            (scan dialect (place.withString body behind)).state.entries.toList =
              (scan dialect (String.ofList place.before)).state.entries.toList ++ reports' ∧
            List.Forall₂ (Token.IsMoved (body.toList.count '\n' - old.toList.count '\n'))
              (later.map Place.token) tokens' ∧
            List.Forall₂ (Diagnostic.IsMoved (body.toList.count '\n' - old.toList.count '\n'))
              reports reports' := by
  refine ⟨placesBehind [] (items dialect source.toList), fun _ => isPlaced_iff, ?_⟩
  intro earlier place later hplaces hkind
  have hnotEnd : place.token.kind ≠ .eof := by
    rw [hkind]
    exact nofun
  obtain ⟨front, item, back, hrow, hbefore, htoken, hearlier, rfl⟩ :=
    exists_item_of_placesBehind hplaces hnotEnd
  rw [List.nil_append] at hbefore
  have hcut := isCut_items dialect source.toList
  rw [hrow] at hcut
  obtain ⟨old, rfl⟩ := Item.exists_string_of_token? hcut.of_append.2.1.wellFormed htoken hkind
  rw [Item.token?_string, Option.some.injEq] at htoken
  -- The line on which the string begins, and what is reported before it.
  have hline : Line.first.after (front.flatMap Item.chars) = lineBehind place.before := by
    rw [hbefore]
    rfl
  have hfront : (scan dialect (String.ofList place.before)).state.entries.toList =
      diagnosticsFrom .first front := by
    rw [hbefore, scan_flatMap_chars hcut.of_append.1]
  have hsource : source = place.withString old (String.ofList (back.flatMap Item.chars)) := by
    have hchars := flatMap_chars_items dialect source.toList
    rw [hrow, ← Place.items_withString hcut hbefore, flatMap_chars_items] at hchars
    exact String.toList_inj.mp hchars.symm
  refine ⟨old, String.ofList (back.flatMap Item.chars),
    diagnosticsFrom ((lineBehind place.before).plus (old.toList.count '\n')) back,
    htoken ▸ rfl, hsource, ?_, ?_⟩
  · rw [toList_entries_scan, hrow, diagnosticsFrom_append_string, hfront, hline]
  · intro body hbody
    have hitems := Place.items_withString (hcut.change_body hbody) hbefore
    refine ⟨tokensFrom ((lineBehind place.before).plus (body.toList.count '\n')) back,
      diagnosticsFrom ((lineBehind place.before).plus (body.toList.count '\n')) back,
      ?_, ?_, ?_, ?_⟩
    · rw [toList_tokens_scan, hitems, tokensFrom_append_string, hearlier, hline, ← htoken]
      rfl
    · rw [toList_entries_scan, hitems, diagnosticsFrom_append_string, hfront, hline]
    · rw [map_token_placesBehind, lineBehind_append, after_chars_string]
      exact isMoved_tokensFrom_plus _ _ _ _
    · exact isMoved_diagnosticsFrom_plus _ _ _ _

/-- A body that looks like a comment over two lines takes the place of a letter, between two
faults and in front of a semicolon. -/
theorem scan_stringBodies_comment :
    '"' ∉ "//\n+".toList ∧ ∃ tokens' reports',
      (scan ⟨false⟩ "@\"//\n+\"@;").tokens.toList =
        ⟨.string, "\"//\n+\"", some (.str "//\n+"), ⟨1⟩⟩ :: tokens' ∧
      (scan ⟨false⟩ "@\"//\n+\"@;").state.entries.toList =
        ⟨⟨1⟩, "Unexpected character."⟩ :: reports' ∧
      List.Forall₂ (Token.IsMoved 1) [⟨.symbol .semicolon, ";", none, ⟨1⟩⟩, .eof ⟨1⟩] tokens' ∧
      List.Forall₂ (Diagnostic.IsMoved 1) [⟨⟨1⟩, "Unexpected character."⟩] reports' := by
  have hbody : '"' ∉ "//\n+".toList := by decide
  obtain ⟨places, hunique, hplaces⟩ := scan_stringBodies ⟨false⟩ "@\"a\"@;"
  obtain rfl := (hunique _).mp (isPlaced_iff.mpr rfl)
  have hsplit : placesBehind [] (items ⟨false⟩ "@\"a\"@;".toList) =
      [] ++ ⟨['@'], ⟨.string, "\"a\"", some (.str "a"), ⟨1⟩⟩⟩ ::
        [⟨"@\"a\"@".toList, ⟨.symbol .semicolon, ";", none, ⟨1⟩⟩⟩,
          ⟨"@\"a\"@;".toList, .eof ⟨1⟩⟩] :=
    eq_of_map_before_eq (by decide +kernel) (by decide +kernel)
  obtain ⟨old, behind, reports, hold, hsource, hreports, hchanged⟩ := hplaces _ _ _ hsplit rfl
  obtain rfl : "a" = old := by simpa using hold
  obtain rfl : "@;" = behind := by
    apply String.toList_inj.mp
    simpa [Place.withString] using congrArg String.toList hsource
  have hfirst : (scan ⟨false⟩ (String.ofList ['@'])).state.entries.toList =
      [⟨⟨1⟩, "Unexpected character."⟩] := by decide +kernel
  have hboth : (scan ⟨false⟩ "@\"a\"@;").state.entries.toList =
      [⟨⟨1⟩, "Unexpected character."⟩] ++ [⟨⟨1⟩, "Unexpected character."⟩] := by decide +kernel
  rw [hboth, hfirst] at hreports
  obtain rfl := List.append_cancel_left hreports
  obtain ⟨tokens', reports', htokens, hentries, hmoved⟩ := hchanged "//\n+" hbody
  rw [hfirst] at hentries
  exact ⟨hbody, tokens', reports', htokens, hentries, hmoved⟩

end Lox
