/-
# Where the tokens of a text are

A token knows its line and not its place. What is said about the place of a token, or
about the text in front of its lexeme, needs the places beside the tokens. They are
those of the pieces that the text is cut into, so they can be told from the text by
the rule of the longest lexeme, and no token is asked for them.

`isPlaced_iff` says that a text has its places in one way only, and gives them along
the row of its items.
-/

import Lox.Proofs.Lines

namespace Lox

/-- A token of a text, and the text that stands before its lexeme. -/
@[ext]
structure Place where
  /-- All characters before the lexeme. -/
  before : List Char
  /-- The token that the lexeme belongs to. -/
  token : Token

/-- How many characters of the text there are up to the end of the lexeme. -/
def Place.stop (place : Place) : ℕ := place.before.length + place.token.lexeme.length

/-- The text before a piece, with the kind and the lexeme of the token for the piece. -/
def Piece.placeBehind? (place : List Char × Piece) : Option (List Char × Kind × String) :=
  place.2.token?.map fun token => (place.1, token)

/-- Whether the tokens of a scan are given with their places. Each of them belongs to a
piece of the text, in the order of the pieces, and the one for the end stands behind
all of them. -/
structure IsPlaced (dialect : Dialect) (source : String) (places : List Place) : Prop where
  tokens : places.map Place.token = (scan dialect source).tokens.toList
  pieces : ∃ pieces, Munch dialect source.toList pieces ∧
    places.map (fun place => (place.before, place.token.kind, place.token.lexeme)) =
      (Piece.located [] pieces).filterMap Piece.placeBehind? ++ [(source.toList, .eof, "")]

/-- The token of an item that stands behind the text `before`, with its place. -/
def Item.place? (before : List Char) (item : Item) : Option Place :=
  (item.token? (lineBehind before)).map (Place.mk before)

/-- The tokens of a row of items that stands behind the text `before`, each with its
place. -/
def placesBehind (before : List Char) : List Item → List Place
  | [] => [⟨before, .eof (lineBehind before)⟩]
  | item :: row => (item.place? before).toList ++ placesBehind (before ++ item.chars) row

theorem Item.map_token_place? (before : List Char) (item : Item) :
    (item.place? before).map Place.token = item.token? (lineBehind before) := by
  rw [place?, Option.map_map]
  exact Option.map_id'

/-- The lexeme of an item ends where the item ends. -/
theorem Item.stop_of_place? {dialect : Dialect} {item : Item} (h : item.WellFormed dialect)
    {before : List Char} {place : Place} (hplace : item.place? before = some place) :
    place.stop = (before ++ item.chars).length := by
  rw [place?, token?_eq h, Option.map_map, Option.map_eq_some_iff] at hplace
  obtain ⟨kind, -, rfl⟩ := hplace
  simp [Place.stop]

theorem map_token_placesBehind (before : List Char) (row : List Item) :
    (placesBehind before row).map Place.token = tokensFrom (lineBehind before) row := by
  induction row generalizing before with
  | nil => rfl
  | cons item row ih =>
      rw [placesBehind, List.map_append, ih, tokensFrom, lineBehind_append,
        ← Item.map_token_place?, Option.toList_map]

/-- The places of a row are those of its pieces. -/
theorem map_placesBehind {dialect : Dialect} {row : List Item}
    (h : ∀ item ∈ row, item.WellFormed dialect) (before : List Char) :
    (placesBehind before row).map
        (fun place => (place.before, place.token.kind, place.token.lexeme)) =
      (Piece.located before (row.map Item.piece)).filterMap Piece.placeBehind? ++
        [(before ++ row.flatMap Item.chars, .eof, "")] := by
  induction row generalizing before with
  | nil => simp [placesBehind, Token.eof, Piece.located]
  | cons item row ih =>
      obtain ⟨hitem, hrow⟩ := List.forall_mem_cons.mp h
      have hhead := Item.token?_piece hitem (lineBehind before)
      rw [placesBehind, List.map_append, ih hrow, List.map_cons, Piece.located,
        List.filterMap_cons, Piece.placeBehind?, ← hhead, Item.text_piece, List.flatMap_cons,
        List.append_assoc, Item.place?]
      cases item.token? (lineBehind before) <;> rfl

/-- Nothing of a row is in front of it. -/
theorem length_le_of_mem_placesBehind {before : List Char} {row : List Item} {place : Place}
    (h : place ∈ placesBehind before row) : before.length ≤ place.before.length := by
  induction row generalizing before with
  | nil =>
      rw [List.mem_singleton.mp h]
  | cons item row ih =>
      rcases List.mem_append.mp h with hhead | htail
      · obtain ⟨token, -, rfl⟩ := Option.map_eq_some_iff.mp (Option.mem_toList.mp hhead)
        exact Nat.le_refl _
      · have hle := ih htail
        rw [List.length_append] at hle
        exact Nat.le_of_add_right_le hle

/-- Whether a place is the first of a row that stands behind the same text. It belongs to the
first item of the row, or to the end if the row has none. -/
inductive Place.IsHeadOf (place : Place) : List Item → Prop where
  | item {item : Item} {row : List Item}
      (token : item.token? (lineBehind place.before) = some place.token) :
      IsHeadOf place (item :: row)
  | eof (token : place.token = .eof (lineBehind place.before)) : IsHeadOf place []

section Heads

variable {dialect : Dialect} {row : List Item} {place : Place}

theorem Place.IsHeadOf.line_eq (h : place.IsHeadOf row) :
    place.token.line = lineBehind place.before := by
  cases h with
  | item htoken => exact Item.line_of_token? htoken
  | eof htoken => exact htoken ▸ rfl

theorem Place.IsHeadOf.eq_nil (h : place.IsHeadOf row) (hkind : place.token.kind = .eof) :
    row = [] := by
  cases h with
  | item htoken => exact absurd hkind (Item.kind_ne_eof_of_token? htoken)
  | eof => rfl

/-- The text of a row begins with the lexeme of its first place. -/
theorem Place.IsHeadOf.lexeme_isPrefix (h : place.IsHeadOf row)
    (hrow : ∀ item ∈ row, item.WellFormed dialect) :
    place.token.lexeme.toList <+: row.flatMap Item.chars := by
  cases h with
  | item htoken =>
      rw [Item.token?_eq (hrow _ List.mem_cons_self), Option.map_eq_some_iff] at htoken
      obtain ⟨kind, -, htoken⟩ := htoken
      rw [← htoken, String.toList_ofList, List.flatMap_cons]
      exact List.prefix_append _ _
  | eof htoken =>
      rw [htoken]
      exact List.nil_prefix

end Heads

/-- Every place divides its row. The items before it yield the earlier tokens, and it is the
first place of those behind. -/
theorem exists_split_of_placesBehind {before : List Char} {row : List Item}
    {earlier later : List Place} {place : Place}
    (h : placesBehind before row = earlier ++ place :: later) :
    ∃ front back, row = front ++ back ∧ place.before = before ++ front.flatMap Item.chars ∧
      place.IsHeadOf back ∧ earlier.map Place.token = tokensWithin (lineBehind before) front ∧
      placesBehind place.before back = place :: later := by
  induction row generalizing before earlier with
  | nil =>
      rcases List.append_eq_singleton_iff.mp h.symm with ⟨rfl, hlast⟩ | ⟨-, hnone⟩
      · obtain ⟨rfl, rfl⟩ := List.cons.inj hlast
        exact ⟨[], [], rfl, (List.append_nil _).symm, .eof rfl, rfl, rfl⟩
      · cases hnone
  | cons item row ih =>
      -- Either the item has the token, or the place is one of those behind the item.
      have hstep (earlier' : List Place)
          (hearlier : earlier = (item.place? before).toList ++ earlier')
          (hrest : placesBehind (before ++ item.chars) row = earlier' ++ place :: later) :
          ∃ front back, item :: row = front ++ back ∧
            place.before = before ++ front.flatMap Item.chars ∧ place.IsHeadOf back ∧
            earlier.map Place.token = tokensWithin (lineBehind before) front ∧
            placesBehind place.before back = place :: later := by
        obtain ⟨front, back, rfl, hbefore, hhead, htokens, hplaces⟩ := ih hrest
        refine ⟨item :: front, back, rfl, ?_, hhead, ?_, hplaces⟩
        · rw [hbefore, List.flatMap_cons, List.append_assoc]
        · rw [hearlier, List.map_append, htokens, tokensWithin, ← Item.map_token_place?,
            Option.toList_map, lineBehind_append]
      cases hplace : item.place? before with
      | none =>
          rw [hplace] at hstep
          rw [placesBehind, hplace] at h
          exact hstep earlier rfl h
      | some first =>
          rw [hplace] at hstep
          have hrow := h
          rw [placesBehind, hplace] at hrow
          cases earlier with
          | nil =>
              obtain ⟨rfl, -⟩ := List.cons.inj hrow
              obtain ⟨token, htoken, rfl⟩ := Option.map_eq_some_iff.mp hplace
              exact ⟨[], item :: row, rfl, (List.append_nil _).symm, .item htoken, rfl, h⟩
          | cons other earlier =>
              obtain ⟨rfl, hrest⟩ := List.cons.inj hrow
              exact hstep earlier rfl hrest

/-- A token other than the one for the end belongs to an item. The items before it yield the
earlier tokens, and those behind it the later places. -/
theorem exists_item_of_placesBehind {before : List Char} {row : List Item}
    {earlier later : List Place} {place : Place}
    (h : placesBehind before row = earlier ++ place :: later) (hkind : place.token.kind ≠ .eof) :
    ∃ front item back, row = front ++ item :: back ∧
      place.before = before ++ front.flatMap Item.chars ∧
      item.token? (lineBehind place.before) = some place.token ∧
      earlier.map Place.token = tokensWithin (lineBehind before) front ∧
      later = placesBehind (place.before ++ item.chars) back := by
  obtain ⟨front, back, rfl, hbefore, hhead, htokens, hplaces⟩ := exists_split_of_placesBehind h
  cases hhead with
  | eof htoken =>
      rw [htoken] at hkind
      exact absurd rfl hkind
  | @item item row htoken =>
      rw [placesBehind, Item.place?, htoken] at hplaces
      exact ⟨front, item, row, rfl, hbefore, htoken, htokens, (List.cons.inj hplaces).2.symm⟩

/-- Places are known from the texts before them and the tokens. -/
theorem eq_of_map_before_eq {places other : List Place}
    (hbefore : places.map Place.before = other.map Place.before)
    (htokens : places.map Place.token = other.map Place.token) : places = other := by
  induction places generalizing other with
  | nil => exact (List.map_eq_nil_iff.mp hbefore.symm).symm
  | cons place places ih =>
      cases other with
      | nil => cases hbefore
      | cons first others =>
          obtain ⟨hplace, hbefore⟩ := List.cons.inj hbefore
          obtain ⟨htoken, htokens⟩ := List.cons.inj htokens
          rw [Place.ext hplace htoken, ih hbefore htokens]

/-- A text has its places in one way only. -/
theorem isPlaced_iff {dialect : Dialect} {source : String} {places : List Place} :
    IsPlaced dialect source places ↔ places = placesBehind [] (items dialect source.toList) := by
  have hcut := isCut_items dialect source.toList
  have htext := flatMap_chars_items dialect source.toList
  have hmunch := munch_of_isCut hcut
  have hplaces := map_placesBehind hcut.wellFormed []
  have htokens := map_token_placesBehind [] (items dialect source.toList)
  rw [htext] at hmunch hplaces
  rw [List.nil_append] at hplaces
  constructor
  · rintro ⟨hsame, pieces, hpieces, hbefore⟩
    rw [hmunch.unique hpieces, ← hplaces] at hbefore
    have hfirst := congrArg (List.map Prod.fst) hbefore
    rw [List.map_map, List.map_map] at hfirst
    rw [toList_tokens_scan] at hsame
    exact eq_of_map_before_eq hfirst (hsame.trans htokens.symm)
  · rintro rfl
    exact ⟨htokens.trans (toList_tokens_scan dialect source).symm, _, hmunch, hplaces⟩

end Lox
