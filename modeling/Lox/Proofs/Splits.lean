/-
# Cursors as divided texts

A cursor divides its source text into what was read and what is left. `Split` is
such a division without any position or line in it, and `Split.Moves` says of each
thing that can be asked of a cursor what the answer is, and which characters pass
from the one part to the other.

Cursors do exactly that, and so the position and the line can be told from what was
read at any time, however the moves of several cursors over one text follow upon
each other. This is `session_refines`.
-/

import Mathlib
import Lox.Proofs.Position

namespace Lox

/-- What can be asked of a cursor. -/
inductive Move where
  | next
  | peek
  | peekSecond
  | nth (count : Nat)
  | collect
  | advanceIf (expected : Char)
  | advanceWhile (condition : Char → Bool)

/-- What a cursor answers: a character unless the text ended, a stretch of text,
whether a character was taken, or nothing at all. -/
inductive Answer where
  | char (c : Option Char)
  | text (chars : List Char)
  | taken (b : Bool)
  | done

/-- The answer of a cursor, and the cursor afterwards. -/
def Cursor.perform (cursor : Cursor) : Move → Answer × Cursor
  | .next => (.char cursor.next.1, cursor.next.2)
  | .peek => (.char cursor.peek?, cursor)
  | .peekSecond => (.char cursor.peekSecond?, cursor)
  | .nth count => (.char (cursor.nth count).1, (cursor.nth count).2)
  | .collect => (.text cursor.collect.1, cursor.collect.2)
  | .advanceIf expected =>
    (.taken (cursor.advanceIf expected).1, (cursor.advanceIf expected).2)
  | .advanceWhile condition => (.done, cursor.advanceWhile condition)

/-! ## The law of the two parts -/

/-- A text, divided into what was read and what is left. -/
structure Split where
  read : List Char
  rest : List Char

namespace Split

/-- The whole text. -/
def whole (split : Split) : List Char := split.read ++ split.rest

/-- The cursor that has read the one part and has the other left. -/
def cursor (split : Split) : Cursor := .between split.read split.rest

/-- What each move answers, and which characters it takes from what is left. -/
inductive Moves : Split → Move → Answer → Split → Prop where
  | next {read rest : List Char} {c : Char} :
      Moves ⟨read, c :: rest⟩ .next (.char (some c)) ⟨read ++ [c], rest⟩
  | nextAtEnd {read : List Char} : Moves ⟨read, []⟩ .next (.char none) ⟨read, []⟩
  | peek {split : Split} : Moves split .peek (.char split.rest[0]?) split
  | peekSecond {split : Split} : Moves split .peekSecond (.char split.rest[1]?) split
  | nth {read skipped rest : List Char} {c : Char} {count : Nat}
      (skips : skipped.length = count) :
      Moves ⟨read, skipped ++ c :: rest⟩ (.nth count) (.char (some c))
        ⟨read ++ skipped ++ [c], rest⟩
  | nthBeyond {read rest : List Char} {count : Nat} (short : rest.length ≤ count) :
      Moves ⟨read, rest⟩ (.nth count) (.char none) ⟨read ++ rest, []⟩
  | collect {read rest : List Char} :
      Moves ⟨read, rest⟩ .collect (.text rest) ⟨read ++ rest, []⟩
  | advanceIf {read rest : List Char} {c : Char} :
      Moves ⟨read, c :: rest⟩ (.advanceIf c) (.taken true) ⟨read ++ [c], rest⟩
  | advanceIfOther {split : Split} {expected : Char} (other : split.rest[0]? ≠ some expected) :
      Moves split (.advanceIf expected) (.taken false) split
  | advanceWhile {read run rest : List Char} {condition : Char → Bool}
      (satisfied : ∀ c ∈ run, condition c = true)
      (longest : ∀ other, other <+: run ++ rest → (∀ c ∈ other, condition c = true) →
        other.length ≤ run.length) :
      Moves ⟨read, run ++ rest⟩ (.advanceWhile condition) .done ⟨read ++ run, rest⟩

/-- A cursor stands for one division only. -/
theorem cursor_injective {a b : Split} (h : a.cursor = b.cursor) : a = b := by
  obtain ⟨aread, arest⟩ := a
  obtain ⟨bread, brest⟩ := b
  obtain rfl : arest = brest := congrArg Cursor.rest h
  have hread : aread ++ arest = bread ++ arest := congrArg Cursor.source h
  rw [List.append_cancel_right hread]

/-- Moves take characters from what is left, in order, and keep the whole text. -/
theorem Moves.exists_taken {split later : Split} {move : Move} {answer : Answer}
    (h : split.Moves move answer later) :
    ∃ taken, split.rest = taken ++ later.rest ∧ later.read = split.read ++ taken := by
  cases h with
  | next => exact ⟨[_], rfl, rfl⟩
  | nextAtEnd | peek | peekSecond | advanceIfOther => exact ⟨[], rfl, (List.append_nil _).symm⟩
  | nth => exact ⟨_ ++ [_], by simp, List.append_assoc _ _ _⟩
  | nthBeyond | collect => exact ⟨_, (List.append_nil _).symm, rfl⟩
  | advanceIf => exact ⟨[_], rfl, rfl⟩
  | advanceWhile => exact ⟨_, rfl, rfl⟩

/-- A run that is as long as can be is followed by a character that does not belong
to it. -/
theorem stops_of_longest {run rest : List Char} {condition : Char → Bool}
    (hrun : ∀ c ∈ run, condition c = true)
    (hlongest : ∀ other, other <+: run ++ rest → (∀ c ∈ other, condition c = true) →
      other.length ≤ run.length) : ∀ c ∈ rest.head?, condition c = false := by
  intro c hc
  obtain ⟨tail, rfl⟩ := List.head?_eq_some_iff.mp hc
  by_contra hcondition
  -- With `c` the run would be longer, and still a run.
  have hlonger : ∀ d ∈ run ++ [c], condition d = true := by
    intro d hd
    rcases List.mem_append.mp hd with hd | hd
    · exact hrun d hd
    · rw [List.mem_singleton.mp hd]
      exact Bool.eq_true_of_not_eq_false hcondition
  have hlength := hlongest (run ++ [c]) ⟨tail, by simp⟩ hlonger
  rw [List.length_append, List.length_singleton] at hlength
  omega

/-- Every text begins with a longest run. -/
theorem exists_longest (condition : Char → Bool) (text : List Char) :
    ∃ run rest, text = run ++ rest ∧ (∀ c ∈ run, condition c = true) ∧
      ∀ other, other <+: text → (∀ c ∈ other, condition c = true) →
        other.length ≤ run.length := by
  refine ⟨text.takeWhile condition, text.dropWhile condition,
    List.takeWhile_append_dropWhile.symm, fun c hc => List.mem_takeWhile_imp hc, ?_⟩
  rintro other ⟨tail, rfl⟩ hother
  rw [List.takeWhile_append_of_pos hother, List.length_append]
  exact Nat.le_add_right _ _

/-- Each move of a divided text has an outcome. -/
theorem exists_moves (split : Split) (move : Move) :
    ∃ answer later, split.Moves move answer later := by
  obtain ⟨read, rest⟩ := split
  cases move with
  | next =>
      cases rest with
      | nil => exact ⟨_, _, .nextAtEnd⟩
      | cons c rest => exact ⟨_, _, .next⟩
  | peek => exact ⟨_, _, .peek⟩
  | peekSecond => exact ⟨_, _, .peekSecond⟩
  | nth count =>
      by_cases hshort : rest.length ≤ count
      · exact ⟨_, _, .nthBeyond hshort⟩
      · -- The character that is answered stands at `count` and splits what is left.
        have hcount : count < rest.length := Nat.lt_of_not_le hshort
        have hrest : rest.take count ++ rest[count] :: rest.drop (count + 1) = rest := by
          rw [← List.drop_eq_getElem_cons hcount, List.take_append_drop]
        rw [← hrest]
        exact ⟨_, _, .nth (List.length_take_of_le hcount.le)⟩
  | collect => exact ⟨_, _, .collect⟩
  | advanceIf expected =>
      by_cases hhead : rest[0]? = some expected
      · obtain ⟨tail, rfl⟩ := List.head?_eq_some_iff.mp (List.head?_eq_getElem?.trans hhead)
        exact ⟨_, _, .advanceIf⟩
      · exact ⟨_, _, .advanceIfOther hhead⟩
  | advanceWhile condition =>
      obtain ⟨run, rest, rfl, hrun, hlongest⟩ := exists_longest condition rest
      exact ⟨_, _, .advanceWhile hrun hlongest⟩

end Split

/-! ## What cursors do -/

namespace Cursor

section Cons

variable (read : List Char) (c : Char) (rest : List Char)

theorem nth_between_cons_zero :
    (between read (c :: rest)).nth 0 = (some c, between (read ++ [c]) rest) := by
  unfold nth
  simp only [next_between_cons]

theorem nth_between_cons_succ (count : Nat) :
    (between read (c :: rest)).nth (count + 1) = (between (read ++ [c]) rest).nth count := by
  conv => lhs; unfold nth
  simp only [next_between_cons]

theorem collect_between_cons :
    (between read (c :: rest)).collect =
      (c :: (between (read ++ [c]) rest).collect.1, (between (read ++ [c]) rest).collect.2) := by
  rw [collect]
  split
  next hrest => cases hrest
  next d tail hrest =>
    obtain rfl : c = d := (List.cons.inj hrest).1
    simp only [next_between_cons]

theorem advanceWhile_between_cons (condition : Char → Bool) :
    (between read (c :: rest)).advanceWhile condition =
      if condition c then (between (read ++ [c]) rest).advanceWhile condition
      else between read (c :: rest) := by
  rw [advanceWhile]
  split
  next hrest => cases hrest
  next d tail hrest =>
    obtain rfl : c = d := (List.cons.inj hrest).1
    simp only [next_between_cons]

end Cons

theorem nth_between_append (read skipped : List Char) (c : Char) (rest : List Char) :
    (between read (skipped ++ c :: rest)).nth skipped.length =
      (some c, between (read ++ skipped ++ [c]) rest) := by
  induction skipped generalizing read with
  | nil => rw [List.nil_append, List.append_nil, List.length_nil, nth_between_cons_zero]
  | cons d skipped ih =>
      rw [List.cons_append, List.length_cons, nth_between_cons_succ]
      simpa using ih (read ++ [d])

theorem nth_between_of_length_le {rest : List Char} {count : Nat} (h : rest.length ≤ count)
    (read : List Char) : (between read rest).nth count = (none, between (read ++ rest) []) := by
  induction rest generalizing read count with
  | nil =>
      rw [List.append_nil]
      unfold nth
      rfl
  | cons c rest ih =>
      cases count with
      | zero => cases h
      | succ count =>
          rw [nth_between_cons_succ]
          simpa using ih (Nat.le_of_succ_le_succ h) (read ++ [c])

theorem collect_between (read rest : List Char) :
    (between read rest).collect = (rest, between (read ++ rest) []) := by
  induction rest generalizing read with
  | nil =>
      rw [List.append_nil]
      unfold collect
      rfl
  | cons c rest ih =>
      rw [collect_between_cons]
      simp [ih]

theorem advanceWhile_between {run rest : List Char} {condition : Char → Bool}
    (hrun : ∀ c ∈ run, condition c = true) (hstop : ∀ c ∈ rest.head?, condition c = false)
    (read : List Char) :
    (between read (run ++ rest)).advanceWhile condition = between (read ++ run) rest := by
  induction run generalizing read with
  | nil =>
      rw [List.nil_append, List.append_nil]
      cases rest with
      | nil =>
          unfold advanceWhile
          rfl
      | cons c rest => rw [advanceWhile_between_cons, hstop c rfl, if_neg Bool.false_ne_true]
  | cons d run ih =>
      obtain ⟨hd, hrun⟩ := List.forall_mem_cons.mp hrun
      rw [List.cons_append, advanceWhile_between_cons, if_pos hd, ih hrun]
      simp

end Cursor

namespace Split

/-- Cursors keep to the law. -/
theorem Moves.perform_eq {split later : Split} {move : Move} {answer : Answer}
    (h : split.Moves move answer later) : split.cursor.perform move = (answer, later.cursor) := by
  cases h with
  | next =>
      rw [Cursor.perform, cursor, Cursor.next_between_cons]
      rfl
  | nextAtEnd => rfl
  | peek => rw [Cursor.perform, Cursor.peek?, List.head?_eq_getElem?, cursor, Cursor.between]
  | peekSecond =>
      rw [Cursor.perform, Cursor.peekSecond?, List.head?_eq_getElem?, List.getElem?_tail, cursor,
        Cursor.between]
  | nth hskips =>
      subst hskips
      rw [Cursor.perform, cursor, Cursor.nth_between_append]
      rfl
  | nthBeyond hshort =>
      rw [Cursor.perform, cursor, Cursor.nth_between_of_length_le hshort]
      rfl
  | collect =>
      rw [Cursor.perform, cursor, Cursor.collect_between]
      rfl
  | advanceIf =>
      have hpeek (read rest : List Char) (c : Char) :
          (Cursor.between read (c :: rest)).peek? = some c := rfl
      rw [Cursor.perform, cursor, Cursor.advanceIf, if_pos (hpeek _ _ _), Cursor.next_between_cons]
      rfl
  | advanceIfOther hother =>
      have hpeek : split.cursor.peek? ≠ some _ := List.head?_eq_getElem?.trans_ne hother
      rw [Cursor.perform, Cursor.advanceIf, if_neg hpeek]
  | advanceWhile hrun hlongest =>
      rw [Cursor.perform, cursor,
        Cursor.advanceWhile_between hrun (stops_of_longest hrun hlongest)]
      rfl

/-- The one outcome of a move is what the cursor does. -/
theorem exists_outcome (split : Split) (move : Move) :
    ∃ later : Split, (split.cursor.perform move).2 = later.cursor ∧
      ∀ answer other, split.Moves move answer other ↔
        answer = (split.cursor.perform move).1 ∧ other = later := by
  obtain ⟨answer, later, hmoves⟩ := split.exists_moves move
  rw [hmoves.perform_eq]
  refine ⟨later, rfl, fun given other => ⟨?_, ?_⟩⟩
  · intro hgiven
    obtain ⟨hanswer, hcursor⟩ := Prod.mk.inj (hgiven.perform_eq.symm.trans hmoves.perform_eq)
    exact ⟨hanswer, cursor_injective hcursor⟩
  · rintro ⟨rfl, rfl⟩
    exact hmoves

/-- What is read by a cursor stays read, and the text stays the same. -/
theorem exists_perform_eq (split : Split) (move : Move) :
    ∃ later : Split, (split.cursor.perform move).2 = later.cursor ∧
      later.whole = split.whole ∧ split.read <+: later.read := by
  obtain ⟨answer, later, hmoves⟩ := split.exists_moves move
  obtain ⟨taken, hrest, hread⟩ := hmoves.exists_taken
  refine ⟨later, congrArg Prod.snd hmoves.perform_eq, ?_, taken, hread.symm⟩
  rw [whole, whole, hrest, hread, List.append_assoc]

end Split

/-! ## Several cursors over one text -/

/-- What can be done with the cursors of a session. -/
inductive Action where
  | move (which : Nat) (move : Move)
  | clone (which : Nat)

/-- Cursors over one text, numbered in the order in which they came about. -/
abbrev Session := List Cursor

namespace Session

/-- Moves one cursor, or copies one to the end of the session. Nothing happens if
there is no cursor of that number. -/
def act (session : Session) : Action → Session
  | .move which move => session.modify which fun cursor => (cursor.perform move).2
  | .clone which => session ++ session[which]?.toList

/-- The cursors there are after some actions. The first of them began at the beginning
of the text. -/
def after (source : String) (actions : List Action) : Session :=
  actions.foldl act [.start source]

/-- Whether all cursors of a session divide one text. -/
def Divides (session : Session) (text : List Char) : Prop :=
  ∀ cursor ∈ session, ∃ split : Split, cursor = split.cursor ∧ split.whole = text

theorem Divides.act {session : Session} {text : List Char} (h : session.Divides text)
    (action : Action) : (session.act action).Divides text := by
  intro cursor hcursor
  cases action with
  | move which move =>
      obtain ⟨place, hplace⟩ := List.mem_iff_getElem?.mp hcursor
      rw [Session.act, List.getElem?_modify] at hplace
      obtain ⟨before, hbefore, rfl⟩ := Option.map_eq_some_iff.mp hplace
      obtain ⟨split, rfl, hwhole⟩ := h before (List.mem_of_getElem? hbefore)
      split
      · obtain ⟨later, hlater, hsame, -⟩ := split.exists_perform_eq move
        exact ⟨later, hlater, hsame.trans hwhole⟩
      · exact ⟨split, rfl, hwhole⟩
  | clone which =>
      rcases List.mem_append.mp hcursor with hcursor | hcursor
      · exact h cursor hcursor
      · exact h cursor (List.mem_of_getElem? (Option.mem_toList.mp hcursor))

theorem Divides.foldl {session : Session} {text : List Char} (h : session.Divides text)
    (actions : List Action) : (actions.foldl Session.act session).Divides text := by
  induction actions generalizing session with
  | nil => exact h
  | cons action actions ih => exact ih (h.act action)

/-- A cursor of a session is moved by its own moves alone, and never back. -/
theorem exists_getElem?_act {session : Session} {which : Nat} {split : Split}
    (h : session[which]? = some split.cursor) (action : Action) :
    ∃ later : Split, (session.act action)[which]? = some later.cursor ∧
      split.read <+: later.read := by
  cases action with
  | move other move =>
      rw [act, List.getElem?_modify, h]
      by_cases hother : other = which
      · obtain ⟨later, hlater, -, hread⟩ := split.exists_perform_eq move
        exact ⟨later, by simp [hother, hlater], hread⟩
      · exact ⟨split, by simp [hother], List.prefix_refl _⟩
  | clone other =>
      have hwhich : which < session.length := (List.getElem?_eq_some_iff.mp h).1
      refine ⟨split, ?_, List.prefix_refl _⟩
      rw [act, List.getElem?_append_left hwhich, h]

theorem exists_getElem?_foldl {session : Session} {which : Nat} {split : Split}
    (h : session[which]? = some split.cursor) (actions : List Action) :
    ∃ later : Split, (actions.foldl act session)[which]? = some later.cursor ∧
      split.read <+: later.read := by
  induction actions generalizing session split with
  | nil => exact ⟨split, h, List.prefix_refl _⟩
  | cons action actions ih =>
      obtain ⟨next, hnext, hread⟩ := exists_getElem?_act h action
      obtain ⟨later, hlater, hmore⟩ := ih hnext
      exact ⟨later, hlater, hread.trans hmore⟩

theorem divides_after (source : String) (actions : List Action) :
    (after source actions).Divides source.toList := by
  apply Divides.foldl
  intro cursor hcursor
  rw [List.mem_singleton] at hcursor
  exact ⟨⟨[], source.toList⟩, hcursor.trans (Cursor.start_eq_between source), rfl⟩

end Session

/-- Whether a cursor comes about over a source text, whatever is done with the cursors
over it. -/
def Cursor.IsOver (cursor : Cursor) (source : String) : Prop :=
  ∃ actions, cursor ∈ Session.after source actions

namespace Cursor

/-- The cursor after a run of moves. -/
def moved (cursor : Cursor) : List Move → Cursor
  | [] => cursor
  | move :: moves => (cursor.perform move).2.moved moves

variable {cursor : Cursor} {source : String}

theorem isOver_start (source : String) : (start source).IsOver source :=
  ⟨[], List.mem_singleton_self _⟩

theorem IsOver.perform (h : cursor.IsOver source) (move : Move) :
    (cursor.perform move).2.IsOver source := by
  obtain ⟨actions, hcursor⟩ := h
  obtain ⟨which, hwhich⟩ := List.mem_iff_getElem?.mp hcursor
  have hmoved : (Session.after source (actions ++ [.move which move]))[which]? =
      some (cursor.perform move).2 := by
    rw [Session.after, List.foldl_append, ← Session.after, List.foldl_cons, List.foldl_nil,
      Session.act, List.getElem?_modify, hwhich, Option.map_eq_map, Option.map_some, if_pos rfl]
  exact ⟨actions ++ [.move which move], List.mem_of_getElem? hmoved⟩

theorem IsOver.moved (h : cursor.IsOver source) (moves : List Move) :
    (cursor.moved moves).IsOver source := by
  induction moves generalizing cursor with
  | nil => exact h
  | cons move moves ih => exact ih (h.perform move)

theorem IsOver.exists_split (h : cursor.IsOver source) :
    ∃ split : Split, cursor = split.cursor ∧ split.whole = source.toList := by
  obtain ⟨actions, hcursor⟩ := h
  exact Session.divides_after source actions cursor hcursor

end Cursor

/-- What a cursor over `source` shows and does if `split` is the division that it
stands for. -/
structure Split.Describes (split : Split) (source : String) (cursor : Cursor) : Prop where
  whole_eq : split.read ++ split.rest = source.toList
  cursor_eq : cursor = split.cursor
  offset_eq : cursor.offset = (String.ofList split.read).utf8ByteSize
  isValid_offset : (⟨cursor.offset⟩ : String.Pos.Raw).IsValid source
  number_line : cursor.line.number = 1 + split.read.count '\n'
  isAtEnd_iff : cursor.isAtEnd = true ↔ split.rest = []
  exists_outcome : ∀ move, ∃ later : Split, (cursor.perform move).2 = later.cursor ∧
    ∀ answer other, split.Moves move answer other ↔
      answer = (cursor.perform move).1 ∧ other = later

theorem Split.describes_cursor {split : Split} {source : String}
    (h : split.whole = source.toList) : split.Describes source split.cursor := by
  have hoffset : split.cursor.offset = (String.ofList split.read).utf8ByteSize :=
    (Cursor.offset_between _ _).trans (Utf8.utf8ByteSize_ofList _).symm
  refine ⟨h, rfl, hoffset, ?_, rfl, List.isEmpty_iff, split.exists_outcome⟩
  rw [← String.ofList_toList (s := source), ← h, whole, String.Pos.Raw.isValid_ofList]
  exact ⟨split.read.length, by rw [hoffset, List.take_left]⟩

/-- **Cursors are divided texts.** However several cursors over one text are moved and
copied, each of them stands for a division of the text into what it has read and what
it has left: its position is the size of the one in bytes, its line is counted from
the line feeds in it, and each move answers and takes what the law of the two parts
says. No cursor ever goes back. -/
theorem session_refines (source : String) (actions : List Action) :
    (∀ cursor ∈ Session.after source actions, ∃ split : Split, split.Describes source cursor) ∧
      ∀ (which : Nat) (earlier : Cursor), (Session.after source actions)[which]? = some earlier →
        ∀ further, ∃ later : Cursor,
          (Session.after source (actions ++ further))[which]? = some later ∧
            earlier.offset ≤ later.offset := by
  have hdivides := Session.divides_after source actions
  constructor
  · intro cursor hcursor
    obtain ⟨split, rfl, hwhole⟩ := hdivides cursor hcursor
    exact ⟨split, split.describes_cursor hwhole⟩
  · intro which earlier hearlier further
    obtain ⟨split, rfl, -⟩ := hdivides earlier (List.mem_of_getElem? hearlier)
    obtain ⟨later, hlater, taken, hread⟩ := Session.exists_getElem?_foldl hearlier further
    refine ⟨later.cursor, ?_, ?_⟩
    · rw [Session.after, List.foldl_append]
      exact hlater
    · rw [Split.cursor, Split.cursor, Cursor.offset_between, Cursor.offset_between, ← hread,
        Utf8.size_append]
      exact Nat.le_add_right _ _

/-- A copy goes on alone from where it was made: over a character of two bytes and the
line feed behind it. -/
example : (Session.after "aé\nb" [.move 0 (.advanceIf 'a'), .clone 0, .move 1 (.nth 1)]).map
    (fun cursor => (cursor.offset, cursor.line.number, cursor.peek?)) =
      [(1, 1, some 'é'), (4, 2, some 'b')] := by
  decide

end Lox
