/-
# Restarting a scan

Between two items a scan knows the line it is on, the text that is left, the tokens it has
found and the reports it has made. Only the text that is left decides how it goes on. The
line is copied into what comes next, and the tokens and reports are added to and never looked
at. A new scan of the text from a token on therefore yields this token and the later ones,
and makes the reports that were still to come, with lines that count from the token.

`Stage` holds what a scan knows between two items. One step takes an item over from the
items that are left to those that were read, `Stage.step?_between_cons`. By induction along a
run, the stages that a scan reaches are those between its items, `Stage.isReached_iff`. The
text that is left then tells the stage, and with it the reports that were made before.
-/

import Lox.Proofs.StringBodies

namespace Lox

/-- What a scan knows between two items. -/
structure Stage where
  /-- The line of the next item. -/
  line : Line
  /-- What is left of the source text. -/
  rest : List Char
  /-- The tokens that were found so far. -/
  tokens : Array Token
  /-- The reports that were made so far. -/
  log : Log

namespace Stage

/-- The stage in which a scan begins. -/
def start (source : String) : Stage := ⟨.first, source.toList, #[], .empty⟩

/-- The stage behind an item, where the given text is left. -/
def behind (stage : Stage) (item : Item) (rest : List Char) : Stage where
  line := stage.line.after item.chars
  rest := rest
  tokens := (item.token? stage.line).elim stage.tokens stage.tokens.push
  log := (item.diagnostic? stage.line).elim stage.log stage.log.report

/-- The stage behind the next item. There is none at the end of the text. -/
def step? (dialect : Dialect) (stage : Stage) : Option Stage :=
  (Item.next? dialect stage.rest).map fun next => stage.behind next.1 next.2

/-- What a scan yields in the end that goes on from a stage. -/
def finish (dialect : Dialect) (stage : Stage) : Scan Log :=
  scanFrom dialect Log.report stage.line stage.rest stage.tokens stage.log

variable {dialect : Dialect}

/-- A turn of the loop of a scan is a step. -/
theorem finish_of_step? {stage later : Stage} (h : stage.step? dialect = some later) :
    later.finish dialect = stage.finish dialect := by
  obtain ⟨⟨item, rest⟩, hnext, rfl⟩ := Option.map_eq_some_iff.mp h
  rw [finish, finish, scanFrom.eq_def dialect Log.report stage.line]
  split
  next hnone =>
    rw [hnone] at hnext
    cases hnext
  next other left hread =>
    obtain ⟨rfl, rfl⟩ := Prod.mk.inj (Option.some.inj (hread.symm.trans hnext))
    rfl

/-- Wherever a scan is interrupted, going on from there leads to the same end. -/
theorem finish_of_reaches {stage later : Stage}
    (h : StateTransition.Reaches (step? dialect) stage later) :
    later.finish dialect = stage.finish dialect := by
  induction h with
  | refl => rfl
  | tail _ hstep ih => rw [finish_of_step? hstep, ih]

/-! ## The stages of a row -/

/-- The stage of a scan that has read one row of items and has another one left. -/
def between (front back : List Item) : Stage where
  line := Line.first.after (front.flatMap Item.chars)
  rest := back.flatMap Item.chars
  tokens := (tokensWithin .first front).toArray
  log := ⟨(diagnosticsFrom .first front).toArray⟩

theorem start_eq_between (dialect : Dialect) (source : String) :
    start source = between [] (items dialect source.toList) := by
  rw [between, flatMap_chars_items]
  rfl

theorem behind_between (item : Item) (front back : List Item) :
    (between front (item :: back)).behind item (back.flatMap Item.chars) =
      between (front ++ [item]) back := by
  simp only [behind, between, tokensWithin_append, diagnosticsFrom_append, List.flatMap_append,
    Line.after_append, List.flatMap_singleton]
  congr 1
  · cases htoken : item.token? (Line.first.after (front.flatMap Item.chars)) <;>
      simp [tokensWithin, htoken]
  · cases hreport : item.diagnostic? (Line.first.after (front.flatMap Item.chars)) <;>
      simp [diagnosticsFrom, Log.report, hreport]

/-- A step takes the first item that is left. -/
theorem step?_between_cons {item : Item} {back : List Item}
    (h : item.StandsBefore dialect (back.flatMap Item.chars)) (front : List Item) :
    (between front (item :: back)).step? dialect = some (between (front ++ [item]) back) := by
  have hnext : Item.next? dialect (between front (item :: back)).rest =
      some (item, back.flatMap Item.chars) := Item.next?_chars_append h
  rw [step?, hnext, Option.map_some, behind_between]

/-- Whether a scan of a source text comes to a stage. -/
def IsReached (dialect : Dialect) (source : String) (stage : Stage) : Prop :=
  StateTransition.Reaches (step? dialect) (start source) stage

/-- A scan comes to the stages between the items of its text, and to no others. -/
theorem isReached_iff {source : String} {stage : Stage} :
    stage.IsReached dialect source ↔ ∃ front back,
      items dialect source.toList = front ++ back ∧ stage = between front back := by
  have hcut := isCut_items dialect source.toList
  rw [IsReached, start_eq_between dialect]
  generalize items dialect source.toList = row at hcut ⊢
  constructor
  · intro hreached
    induction hreached with
    | refl => exact ⟨[], row, rfl, rfl⟩
    | tail _ hstep ih =>
        -- The run so far has left a row, and the step takes its first item.
        obtain ⟨front, back, rfl, rfl⟩ := ih
        cases back with
        | nil => cases hstep
        | cons item back =>
            rw [Option.mem_def, step?_between_cons hcut.of_append.2.1] at hstep
            obtain rfl := Option.some.inj hstep
            exact ⟨front ++ [item], back, by simp, rfl⟩
  · rintro ⟨front, back, rfl, rfl⟩
    -- The last step of a run takes the last item that was read.
    induction front using List.reverseRecOn generalizing back with
    | nil => exact .refl
    | append_singleton front item ih =>
        rw [List.append_assoc] at hcut ⊢
        exact (ih _ hcut).tail (step?_between_cons hcut.of_append.2.1 front)

/-- The text that is left tells how far a scan has come. -/
theorem isReached_and_rest_eq_iff {source : String} {front back : List Item}
    (h : items dialect source.toList = front ++ back) {stage : Stage} :
    stage.IsReached dialect source ∧ stage.rest = back.flatMap Item.chars ↔
      stage = between front back := by
  constructor
  · rintro ⟨hreached, hrest⟩
    obtain ⟨front', back', hrow, rfl⟩ := isReached_iff.mp hreached
    have hcut := (items_eq_iff.mp h).2
    have hcut' := (items_eq_iff.mp hrow).2
    -- Both rows are the items of the text that is left.
    obtain rfl : back' = back := by
      rw [← items_flatMap_chars hcut'.of_append.2, ← items_flatMap_chars hcut.of_append.2]
      exact congrArg (items dialect) hrest
    rw [List.append_cancel_right (hrow.symm.trans h)]
  · rintro rfl
    exact ⟨isReached_iff.mpr ⟨front, back, h, rfl⟩, rfl⟩

end Stage

/-- From behind a text it is as many lines back to the first as the text has line feeds. -/
theorem one_sub_number_lineBehind (before : List Char) :
    (1 - (lineBehind before).number : ℤ) = (0 : ℕ) - (before.count '\n' : ℕ) := by
  simp only [lineBehind]
  omega

/-- **Restarts.** A scan can be restarted at each of its tokens, the one for the end included. Let
`suffix` be the source text from the lexeme of the token on. The scan comes to exactly one
stage with this text left. It has found the earlier tokens there and has made some of its
reports. A scan of the suffix yields the token and the later ones, and makes the other
reports. All lines are less by the number of lines before that of the token. -/
theorem scan_restart (dialect : Dialect) (source : String) :
    ∃ places, (∀ other, IsPlaced dialect source other ↔ other = places) ∧
      ∀ earlier place later, places = earlier ++ place :: later →
        ∃ (suffix : String) (stage : Stage) (reports : List Diagnostic),
          source = String.ofList place.before ++ suffix ∧
          place.token.lexeme.toList <+: suffix.toList ∧
          (place.token.kind = .eof → suffix = "") ∧
          (∀ other : Stage, other.IsReached dialect source ∧ other.rest = suffix.toList ↔
            other = stage) ∧
          stage.finish dialect = scan dialect source ∧
          stage.tokens.toList = earlier.map Place.token ∧
          (scan dialect source).state.entries.toList = stage.log.entries.toList ++ reports ∧
          List.Forall₂ (Token.IsMoved (1 - place.token.line.number))
            ((place :: later).map Place.token) (scan dialect suffix).tokens.toList ∧
          List.Forall₂ (Diagnostic.IsMoved (1 - place.token.line.number))
            reports (scan dialect suffix).state.entries.toList := by
  refine ⟨placesBehind [] (items dialect source.toList), fun _ => isPlaced_iff, ?_⟩
  intro earlier place later hplaces
  obtain ⟨front, back, hrow, hbefore, hhead, hearlier, hlater⟩ :=
    exists_split_of_placesBehind hplaces
  rw [List.nil_append] at hbefore
  obtain ⟨htext, hcut⟩ := items_eq_iff.mp hrow
  rw [List.flatMap_append, ← hbefore] at htext
  have hstage : ∀ other : Stage, other.IsReached dialect source ∧
      other.rest = back.flatMap Item.chars ↔ other = .between front back :=
    fun _ => Stage.isReached_and_rest_eq_iff hrow
  have hreached := ((hstage _).mpr rfl).1
  have hsuffix := scan_flatMap_chars hcut.of_append.2
  refine ⟨String.ofList (back.flatMap Item.chars), .between front back,
    diagnosticsFrom (lineBehind place.before) back,
    ?_, ?_, ?_, ?_, Stage.finish_of_reaches hreached, hearlier.symm, ?_, ?_, ?_⟩
  · rw [← String.ofList_append, htext, String.ofList_toList]
  · rw [String.toList_ofList]
    exact hhead.lexeme_isPrefix hcut.of_append.2.wellFormed
  · intro hkind
    rw [hhead.eq_nil hkind]
    rfl
  · rwa [String.toList_ofList]
  · rw [toList_entries_scan, hrow, diagnosticsFrom_append, hbefore]
    rfl
  · rw [← hlater, map_token_placesBehind, hsuffix, hhead.line_eq, one_sub_number_lineBehind]
    exact isMoved_tokensFrom_plus .first _ 0 back
  · rw [hsuffix, hhead.line_eq, one_sub_number_lineBehind]
    exact isMoved_diagnosticsFrom_plus .first _ 0 back

/-- A restart on the third line, at an equals sign that the symbol before it has no room for. A
character was reported before. Another one and an open string are still to come. -/
theorem scan_restart_equal :
    ∃ earlier place later, IsPlaced ⟨false⟩ "@\"a\n\"\n!==#\"x" (earlier ++ place :: later) ∧
      place = ⟨"@\"a\n\"\n!=".toList, ⟨.symbol .equal, "=", none, ⟨3⟩⟩⟩ ∧
      ∃ stage : Stage, stage.rest = "=#\"x".toList ∧
        stage.finish ⟨false⟩ = scan ⟨false⟩ "@\"a\n\"\n!==#\"x" ∧
        stage.tokens.toList = earlier.map Place.token ∧
        stage.log.entries.toList = [⟨⟨1⟩, "Unexpected character."⟩] ∧
        List.Forall₂ (Token.IsMoved (-2)) ((place :: later).map Place.token)
          (scan ⟨false⟩ "=#\"x").tokens.toList ∧
        List.Forall₂ (Diagnostic.IsMoved (-2))
          [⟨⟨3⟩, "Unexpected character."⟩, ⟨⟨3⟩, "Unterminated String"⟩]
          (scan ⟨false⟩ "=#\"x").state.entries.toList := by
  have hsplit : placesBehind [] (items ⟨false⟩ "@\"a\n\"\n!==#\"x".toList) =
      [⟨['@'], ⟨.string, "\"a\n\"", some (.str "a\n"), ⟨1⟩⟩⟩,
        ⟨"@\"a\n\"\n".toList, ⟨.symbol .bangEqual, "!=", none, ⟨3⟩⟩⟩] ++
      ⟨"@\"a\n\"\n!=".toList, ⟨.symbol .equal, "=", none, ⟨3⟩⟩⟩ ::
        [⟨"@\"a\n\"\n!==#\"x".toList, .eof ⟨3⟩⟩] :=
    eq_of_map_before_eq (by decide +kernel) (by decide +kernel)
  obtain ⟨places, hunique, hplaces⟩ := scan_restart ⟨false⟩ "@\"a\n\"\n!==#\"x"
  obtain rfl := (hunique _).mp (isPlaced_iff.mpr rfl)
  obtain ⟨suffix, stage, reports, hsource, -, -, hstage, hfinish, hearlier, hreports, htokens,
    hmoved⟩ := hplaces _ _ _ hsplit
  obtain rfl : "=#\"x" = suffix := by
    apply String.toList_inj.mp
    simpa using congrArg String.toList hsource
  have hentries : (scan ⟨false⟩ "@\"a\n\"\n!==#\"x").state.entries.toList =
      [⟨⟨1⟩, "Unexpected character."⟩] ++
        [⟨⟨3⟩, "Unexpected character."⟩, ⟨⟨3⟩, "Unterminated String"⟩] := by decide +kernel
  have hlength : reports.length = 2 := hmoved.length_eq.trans (by decide +kernel)
  rw [hentries] at hreports
  obtain ⟨hlog, rfl⟩ := List.append_inj' hreports hlength.symm
  exact ⟨_, _, _, isPlaced_iff.mpr hsplit.symm, rfl, stage, ((hstage stage).mpr rfl).2, hfinish,
    hearlier, hlog.symm, htokens, hmoved⟩

end Lox
