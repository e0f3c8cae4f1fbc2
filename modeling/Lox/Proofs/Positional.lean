/-
# No guard of the reader by positions fails

On a text of fewer than `2 ^ 63` bytes the reader by positions never breaks down,
and it yields what a scan yields. This is `positionalScan_eq_ok`.

What carries the proof is where the cursors stand. Between two turns of the main
loop, the second cursor has read whole items and the first is where it is. A turn
that begins there takes exactly the next item.
-/

import Lox.Positional
import Lox.Proofs.Lexeme
import Lox.Proofs.Position

namespace Lox

universe u

namespace Positional

/-! ## Guarded steps between two cursors -/

private theorem ok_bind {α β : Type} (a : α) (next : α → Except Breakdown β) :
    (Except.ok a >>= next) = next a := rfl

/-- Whether the lines of a text can be counted within the limit. -/
def Fits (text : List Char) : Prop := Utf8.size text < lineLimit

private theorem elim_error_eq_ok_iff {α : Type} {found : Option α} {breakdown : Breakdown} {a : α} :
    found.elim (.error breakdown) .ok = Except.ok a ↔ found = some a := by
  cases found <;> simp

/-- A stretch is cut out exactly if both cursors are positions in one text, in
order, and on boundaries of characters. -/
theorem stretch_eq_ok_iff {start current : Cursor} {lexeme : List Char} :
    stretch start current = .ok lexeme ↔
      start.source = current.source ∧ Utf8.size start.rest ≤ Utf8.size start.source ∧
        Utf8.size current.rest ≤ Utf8.size current.source ∧
        ∃ before behind, start.source = before ++ lexeme ++ behind ∧
          Utf8.size before = start.offset ∧ Utf8.size (before ++ lexeme) = current.offset := by
  rw [stretch, ← Utf8.slice?_eq_some_iff]
  split
  next hplaces =>
    rw [elim_error_eq_ok_iff, Cursor.sliceUntil?]
    exact ⟨fun h => ⟨hplaces.1, hplaces.2.1, hplaces.2.2, h⟩, fun h => h.2.2.2⟩
  next hplaces =>
    constructor
    · exact nofun
    · rintro ⟨hsource, hstart, hcurrent, -⟩
      exact absurd ⟨hsource, hstart, hcurrent⟩ hplaces

/-- The second of two cursors over one text has read what the first has and the
stretch between them. -/
theorem stretch_between (read lexeme rest : List Char) :
    stretch (.between read (lexeme ++ rest)) (.between (read ++ lexeme) rest) = .ok lexeme := by
  have hwithin (a b : List Char) : Utf8.size b ≤ Utf8.size (a ++ b) := by
    rw [Utf8.size_append]
    exact Nat.le_add_left _ _
  have hsource := (List.append_assoc read lexeme rest).symm
  apply stretch_eq_ok_iff.mpr
  exact ⟨hsource, hwithin _ _, hwithin _ _, read, rest, hsource,
    (Cursor.offset_between _ _).symm, (Cursor.offset_between _ _).symm⟩

/-- Cutting off the quotes leaves what stands between two characters of a byte each. -/
theorem unquoted_eq_ok_iff {lexeme body : List Char} :
    unquoted lexeme = .ok body ↔ ∃ first last : Char,
      lexeme = first :: (body ++ [last]) ∧ first.utf8Size = 1 ∧ last.utf8Size = 1 := by
  constructor
  · intro h
    rw [unquoted] at h
    split at h
    next => cases h
    next hne =>
      obtain ⟨before, behind, htext, hbefore, hstop⟩ :=
        Utf8.slice?_eq_some_iff.mp (elim_error_eq_ok_iff.mp h)
      have hbehind : Utf8.size behind = 1 := by
        have hsize : Utf8.size lexeme = Utf8.size (before ++ body) + Utf8.size behind := by
          rw [htext, Utf8.size_append]
        omega
      obtain ⟨first, rfl, hfirst⟩ := Utf8.size_eq_one_iff.mp hbefore
      obtain ⟨last, rfl, hlast⟩ := Utf8.size_eq_one_iff.mp hbehind
      exact ⟨first, last, htext, hfirst, hlast⟩
  · rintro ⟨first, last, rfl, hfirst, hlast⟩
    have hone : Utf8.size [last] = 1 := hlast
    have hsize : Utf8.size (first :: (body ++ [last])) = Utf8.size ([first] ++ body) + 1 := by
      rw [← List.cons_append, Utf8.size_append, hone]
      rfl
    rw [unquoted, hsize, if_neg (Nat.succ_ne_zero _), Nat.add_sub_cancel]
    apply elim_error_eq_ok_iff.mpr
    apply Utf8.slice?_eq_some_iff.mpr
    exact ⟨[first], [last], rfl, hfirst, rfl⟩

/-- The quotes of a string take a byte each, whatever stands between them. -/
theorem unquoted_quoted (body : List Char) : unquoted ('"' :: (body ++ ['"'])) = .ok body :=
  unquoted_eq_ok_iff.mpr ⟨'"', '"', rfl, rfl, rfl⟩

theorem addToken_between (read lexeme rest : List Char) (kind : Kind) (payload : Option Payload) :
    addToken (.between read (lexeme ++ rest)) (.between (read ++ lexeme) rest) kind payload =
      .ok ⟨.between (read ++ lexeme) rest,
        some ⟨kind, String.ofList lexeme, payload, Line.first.after read⟩, none⟩ := by
  rw [addToken, stretch_between]
  rfl

section Steps

variable {read rest : List Char} {c : Char}

/-- A line feed that is still to come leaves room for its line. -/
theorem checkLine_between (h : Fits (read ++ rest)) : checkLine (.between read rest) = .ok () := by
  apply if_neg
  rintro ⟨hfeed, hlimit⟩
  obtain ⟨tail, rfl⟩ := List.head?_eq_some_iff.mp hfeed
  have hbreaks := Utf8.breaks_le_size read
  have hnumber : (Cursor.between read ('\n' :: tail)).line.number = 1 + Line.breaks read := rfl
  have hfeedSize : Utf8.size (read ++ '\n' :: tail) = Utf8.size read + (1 + Utf8.size tail) := by
    rw [Utf8.size_append]
    rfl
  rw [Fits, hfeedSize] at h
  omega

theorem next_between_cons (h : Fits (read ++ c :: rest)) :
    next (.between read (c :: rest)) = .ok (some c, .between (read ++ [c]) rest) := by
  rw [next, checkLine_between h, Cursor.next_between_cons]
  rfl

theorem advanceIf_between_of_eq (h : Fits (read ++ c :: rest)) :
    advanceIf (.between read (c :: rest)) c = .ok (true, .between (read ++ [c]) rest) := by
  have hpeek : (Cursor.between read (c :: rest)).peek? = some c := rfl
  rw [advanceIf, if_pos hpeek, next_between_cons h]
  rfl

theorem advanceIf_between_of_ne (h : rest.head? ≠ some c) :
    advanceIf (.between read rest) c = .ok (false, .between read rest) := by
  have hpeek : (Cursor.between read rest).peek? ≠ some c := h
  rw [advanceIf, if_neg hpeek]
  rfl

/-- A run of characters is taken up to the first that does not belong to it. -/
theorem advanceWhile_between {run : List Char} {p : Char → Bool}
    (h : Fits (read ++ (run ++ rest))) (hrun : ∀ c ∈ run, p c = true)
    (hstop : ∀ c ∈ rest.head?, p c = false) :
    advanceWhile (.between read (run ++ rest)) p = .ok (.between (read ++ run) rest) := by
  induction run generalizing read with
  | nil =>
      rw [advanceWhile]
      split
      next => simp
      next c tail hrest =>
        have hhead : rest = c :: tail := hrest
        have hfalse : p c = false := hstop c (by simp [hhead])
        simp [hfalse]
  | cons d run ih =>
      obtain ⟨hd, hrun⟩ := List.forall_mem_cons.mp hrun
      have hnext : (Cursor.between read (d :: run ++ rest)).next.2 =
          .between (read ++ [d]) (run ++ rest) := by
        rw [List.cons_append, Cursor.next_between_cons]
      have hfits : Fits (read ++ [d] ++ (run ++ rest)) := by simpa using h
      have hread : read ++ [d] ++ run = read ++ d :: run := by simp
      rw [advanceWhile]
      split
      next hrest => cases hrest
      next c tail hrest =>
        obtain rfl : d = c := (List.cons.inj hrest).1
        rw [if_pos hd, checkLine_between h, hnext, ← hread]
        exact ih hfits hrun

end Steps

/-! ## A turn takes an item -/

section Readers

variable {read rest : List Char} {c : Char}

theorem readString_of_closed {body : List Char} (h : '"' ∉ body)
    (hfits : Fits (read ++ '"' :: (body ++ '"' :: rest))) :
    readString (.between read ('"' :: (body ++ '"' :: rest)))
        (.between (read ++ ['"']) (body ++ '"' :: rest)) =
      .ok ⟨.between (read ++ '"' :: (body ++ ['"'])) rest,
        some ⟨.string, String.ofList ('"' :: (body ++ ['"'])), some (.str (String.ofList body)),
          Line.first.after read⟩, none⟩ := by
  have hbody : Fits (read ++ ['"'] ++ (body ++ '"' :: rest)) := by simpa using hfits
  have hclose : Fits (read ++ ['"'] ++ body ++ '"' :: rest) := by simpa using hfits
  have hstop : ∀ c ∈ ('"' :: rest).head?, (c != '"') = false := by simp
  have hlexeme : '"' :: (body ++ '"' :: rest) = '"' :: (body ++ ['"']) ++ rest := by simp
  have hread : read ++ ['"'] ++ body ++ ['"'] = read ++ '"' :: (body ++ ['"']) := by simp
  have hinside : (Cursor.between (read ++ ['"'] ++ body) ('"' :: rest)).isAtEnd = false := rfl
  rw [readString, advanceWhile_between hbody (bne_of_not_mem h) hstop, ok_bind, hinside,
    next_between_cons hclose, hread, hlexeme]
  simp only [Bool.false_eq_true, if_false, ok_bind, stretch_between, unquoted_quoted,
    addToken_between]

theorem readString_of_open {body : List Char} (h : '"' ∉ body)
    (hfits : Fits (read ++ '"' :: body)) :
    readString (.between read ('"' :: body)) (.between (read ++ ['"']) body) =
      .ok ⟨.between (read ++ '"' :: body) [], none,
        some (.ofFault (Line.first.after (read ++ '"' :: body)) .unterminatedString)⟩ := by
  have hbody : Fits (read ++ ['"'] ++ (body ++ [])) := by simpa using hfits
  have hread : read ++ ['"'] ++ body = read ++ '"' :: body := by simp
  have hall := advanceWhile_between hbody (bne_of_not_mem h) (by simp)
  rw [List.append_nil, hread] at hall
  rw [readString, hall]
  rfl

theorem advanceFraction_of_nil (h : rest.head? = some '.' → ∀ c ∈ rest.tail.head?, c.isDigit = false) :
    advanceFraction (.between read rest) = .ok (.between read rest) := by
  apply if_neg
  rintro ⟨hpoint, hdigit⟩
  obtain ⟨c, hc, hdigit⟩ := (Option.any_eq_true _ _).mp hdigit
  simp [h hpoint c hc] at hdigit

theorem advanceFraction_of_ne_nil {fraction : List Char} (hne : fraction ≠ [])
    (hfraction : ∀ c ∈ fraction, c.isDigit = true) (hstop : ∀ c ∈ rest.head?, c.isDigit = false)
    (hfits : Fits (read ++ '.' :: (fraction ++ rest))) :
    advanceFraction (.between read ('.' :: (fraction ++ rest))) =
      .ok (.between (read ++ '.' :: fraction) rest) := by
  have hdigit : (Cursor.between read ('.' :: (fraction ++ rest))).peekSecond?.any Char.isDigit =
      true := by
    obtain ⟨d, digits, rfl⟩ := List.exists_cons_of_ne_nil hne
    exact hfraction d List.mem_cons_self
  have hdigits : Fits (read ++ ['.'] ++ (fraction ++ rest)) := by simpa using hfits
  have hread : read ++ ['.'] ++ fraction = read ++ '.' :: fraction := by simp
  rw [advanceFraction, if_pos ⟨rfl, hdigit⟩, next_between_cons hfits, ← hread]
  exact advanceWhile_between hdigits hfraction hstop

theorem advanceNumber_between {digits fraction : List Char}
    (hdigits : ∀ d ∈ digits, d.isDigit = true) (hfraction : ∀ d ∈ fraction, d.isDigit = true)
    (hend : (Item.number (c :: digits) fraction).EndsBefore rest)
    (hfits : Fits (read ++ (Decimal.written (c :: digits) fraction ++ rest))) :
    advanceNumber
        (.between (read ++ [c]) ((Decimal.written (c :: digits) fraction).tail ++ rest)) =
      .ok (.between (read ++ Decimal.written (c :: digits) fraction) rest) := by
  obtain ⟨hstop, hpoint⟩ := hend
  by_cases hempty : fraction = []
  · have hwritten : Decimal.written (c :: digits) fraction = c :: digits := if_pos hempty
    rw [hwritten] at hfits ⊢
    have hothers : Fits (read ++ [c] ++ (digits ++ rest)) := by simpa using hfits
    have hread : read ++ [c] ++ digits = read ++ c :: digits := by simp
    rw [List.tail_cons, advanceNumber, advanceWhile_between hothers hdigits hstop, ok_bind, hread]
    exact advanceFraction_of_nil (hpoint hempty)
  · have hwritten : Decimal.written (c :: digits) fraction = c :: digits ++ '.' :: fraction :=
      if_neg hempty
    rw [hwritten] at hfits ⊢
    have hothers : Fits (read ++ [c] ++ (digits ++ '.' :: (fraction ++ rest))) := by
      simpa using hfits
    have hfrom : Fits (read ++ [c] ++ digits ++ '.' :: (fraction ++ rest)) := by
      simpa using hfits
    have hpointStop : ∀ d ∈ ('.' :: (fraction ++ rest)).head?, d.isDigit = false := by simp
    have htail : (c :: digits ++ '.' :: fraction).tail ++ rest =
        digits ++ '.' :: (fraction ++ rest) := by simp
    have hread : read ++ [c] ++ digits ++ '.' :: fraction =
        read ++ (c :: digits ++ '.' :: fraction) := by simp
    rw [htail, advanceNumber, advanceWhile_between hothers hdigits hpointStop, ok_bind, ← hread]
    exact advanceFraction_of_ne_nil hempty hfraction hstop hfrom

theorem readNumber_of_endsBefore {digits fraction : List Char} (hdigit : c.isDigit = true)
    (hdigits : ∀ d ∈ digits, d.isDigit = true) (hfraction : ∀ d ∈ fraction, d.isDigit = true)
    (hend : (Item.number (c :: digits) fraction).EndsBefore rest)
    (hfits : Fits (read ++ (Decimal.written (c :: digits) fraction ++ rest))) :
    readNumber (.between read (Decimal.written (c :: digits) fraction ++ rest))
        (.between (read ++ [c]) ((Decimal.written (c :: digits) fraction).tail ++ rest)) =
      .ok ⟨.between (read ++ Decimal.written (c :: digits) fraction) rest,
        (Item.number (c :: digits) fraction).token? (Line.first.after read), none⟩ := by
  have hwhole : ∀ d ∈ c :: digits, d.isDigit = true := List.forall_mem_cons.mpr ⟨hdigit, hdigits⟩
  have hvalue : Binary64.ofText? (Decimal.written (c :: digits) fraction) =
      some (.ofDecimal (.ofParts (c :: digits) fraction)) :=
    congrArg (Option.map _) (Decimal.ofText?_written (List.cons_ne_nil _ _) hwhole hfraction)
  rw [readNumber, advanceNumber_between hdigits hfraction hend hfits, ok_bind, stretch_between,
    ok_bind, hvalue]
  simp only [addToken_between, Item.token?, Item.chars, hvalue, Option.map_some]

theorem readWord_of_stop {letters : List Char} (hletters : ∀ d ∈ letters, continuesWord d = true)
    (hstop : ∀ d ∈ rest.head?, continuesWord d = false)
    (hfits : Fits (read ++ c :: (letters ++ rest))) :
    readWord (.between read (c :: (letters ++ rest))) (.between (read ++ [c]) (letters ++ rest)) =
      .ok ⟨.between (read ++ c :: letters) rest,
        (Item.word (c :: letters)).token? (Line.first.after read), none⟩ := by
  have hothers : Fits (read ++ [c] ++ (letters ++ rest)) := by simpa using hfits
  have hread : read ++ [c] ++ letters = read ++ c :: letters := by simp
  rw [readWord, advanceWhile_between hothers hletters hstop, ok_bind, hread, ← List.cons_append,
    stretch_between, ok_bind, addToken_between]
  rfl

theorem readSlash_of_comment {body : List Char} (hbody : '\n' ∉ body)
    (hstop : ∀ d ∈ rest.head?, d = '\n') (hfits : Fits (read ++ '/' :: '/' :: (body ++ rest))) :
    readSlash (.between read ('/' :: '/' :: (body ++ rest)))
        (.between (read ++ ['/']) ('/' :: (body ++ rest))) =
      .ok ⟨.between (read ++ '/' :: '/' :: body) rest, none, none⟩ := by
  have hsecond : Fits (read ++ ['/'] ++ '/' :: (body ++ rest)) := by simpa using hfits
  have hothers : Fits (read ++ ['/'] ++ ['/'] ++ (body ++ rest)) := by simpa using hfits
  have hfeed : ∀ d ∈ rest.head?, (d != '\n') = false := by
    intro d hd
    rw [hstop d hd]
    rfl
  have hread : read ++ ['/'] ++ ['/'] ++ body = read ++ '/' :: '/' :: body := by simp
  rw [readSlash, advanceIf_between_of_eq hsecond, ok_bind]
  show (advanceWhile _ _ >>= _) = _
  rw [advanceWhile_between hothers (bne_of_not_mem hbody) hfeed, ok_bind, hread]
  rfl

theorem readSlash_of_symbol (hstop : rest.head? ≠ some '/') :
    readSlash (.between read ('/' :: rest)) (.between (read ++ ['/']) rest) =
      .ok ⟨.between (read ++ ['/']) rest,
        (Item.symbol .slash).token? (Line.first.after read), none⟩ := by
  rw [readSlash, advanceIf_between_of_ne hstop, ok_bind]
  exact addToken_between read ['/'] rest (.symbol .slash) none

/-- A symbol that a slash does not begin is read with the equals sign that belongs
to it, and with no other character. -/
theorem readSymbol_of_standsBefore {dialect : Dialect} {which : Symbol} {tail : List Char}
    (h : (Item.symbol which).StandsBefore dialect rest) (hchars : which.chars = c :: tail)
    (hfits : Fits (read ++ c :: (tail ++ rest))) :
    readSymbol dialect c (.between read (c :: (tail ++ rest)))
        (.between (read ++ [c]) (tail ++ rest)) =
      .ok ⟨.between (read ++ c :: tail) rest,
        (Item.symbol which).token? (Line.first.after read), none⟩ := by
  obtain ⟨hin, hstop⟩ := h
  have htoken : (Item.symbol which).token? (Line.first.after read) =
      some ⟨.symbol which, String.ofList (c :: tail), none, Line.first.after read⟩ := by
    rw [← hchars]
    rfl
  rw [htoken]
  rcases which.chars_cases with ⟨d, hone⟩ | ⟨single, d, hdouble, hsingle⟩
  · obtain ⟨rfl, rfl⟩ := List.cons.inj (hchars.symm.trans hone)
    have hfound := Symbol.ofChar?_eq_some_iff.mpr ⟨hone, hin⟩
    cases hlonger : which.withEqual? with
    | none =>
        simp only [readSymbol, hfound, hlonger]
        exact addToken_between read [c] rest (.symbol which) none
    | some double =>
        have hequal : rest.head? ≠ some '=' := by
          intro hhead
          exact hstop '=' hhead (.inl ⟨by simp [hlonger], rfl⟩)
        simp only [readSymbol, hfound, hlonger, List.nil_append, advanceIf_between_of_ne hequal,
          ok_bind, Bool.false_eq_true, if_false]
        exact addToken_between read [c] rest (.symbol which) none
  · have htwo : which.chars = [d, '='] := by
      simpa [hsingle] using Symbol.chars_withEqual hdouble
    obtain ⟨rfl, rfl⟩ := List.cons.inj (hchars.symm.trans htwo)
    have hfound := Symbol.ofChar?_eq_some_iff.mpr
      ⟨hsingle, (Symbol.isIn_of_withEqual? dialect hdouble).1⟩
    have hequal : Fits (read ++ [c] ++ '=' :: rest) := by simpa using hfits
    have hread : read ++ [c] ++ ['='] = read ++ [c, '='] := by simp
    simp only [readSymbol, hfound, hdouble, List.cons_append, List.nil_append,
      advanceIf_between_of_eq hequal, ok_bind, if_true, hread]
    exact addToken_between read [c, '='] rest (.symbol which) none

/-- The character that an item begins with leads to the reader for the item. -/
theorem readFrom_of_standsBefore {dialect : Dialect} {item : Item} {tail : List Char}
    (h : item.StandsBefore dialect rest) (hchars : item.chars = c :: tail)
    (hfits : Fits (read ++ c :: (tail ++ rest))) :
    readFrom dialect c (.between read (c :: (tail ++ rest)))
        (.between (read ++ [c]) (tail ++ rest)) =
      .ok ⟨.between (read ++ item.chars) rest, item.token? (Line.first.after read),
        item.diagnostic? (Line.first.after read)⟩ := by
  obtain ⟨hwf, hend⟩ := h
  cases item with
  | blank d =>
      obtain ⟨rfl, rfl⟩ := List.cons.inj hchars
      exact if_pos hwf
  | comment body =>
      obtain ⟨rfl, rfl⟩ := List.cons.inj hchars
      exact readSlash_of_comment hwf hend hfits
  | symbol which =>
      have hmark : IsMark c := which.isMark_of_mem_head? (congrArg List.head? hchars)
      simp only [readFrom, hmark.not_isBlank, hmark.ne_quote, hmark.not_isDigit,
        hmark.not_startsWord, Bool.false_eq_true, if_false]
      by_cases hslash : c = '/'
      · subst hslash
        have hwhich : which = .slash ∧ tail = [] := by
          cases which <;> simp_all [Item.chars, Symbol.chars]
        obtain ⟨rfl, rfl⟩ := hwhich
        have hsecond : rest.head? ≠ some '/' := by
          intro hhead
          exact hend '/' hhead (.inr ⟨rfl, rfl⟩)
        exact readSlash_of_symbol hsecond
      · rw [if_neg hslash, readSymbol_of_standsBefore ⟨hwf, hend⟩ hchars hfits, ← hchars]
        rfl
  | string body =>
      obtain ⟨rfl, rfl⟩ := List.cons.inj hchars
      rw [List.append_assoc] at hfits ⊢
      exact readString_of_closed hwf hfits
  | number whole fraction =>
      obtain ⟨hne, hwhole, hfraction⟩ := hwf
      obtain ⟨d, digits, rfl⟩ := List.exists_cons_of_ne_nil hne
      obtain ⟨hdigit, hdigits⟩ := List.forall_mem_cons.mp hwhole
      have hwritten : Decimal.written (d :: digits) fraction =
          d :: (Decimal.written (d :: digits) fraction).tail := by
        unfold Decimal.written
        split <;> rfl
      obtain ⟨rfl, rfl⟩ := List.cons.inj (hwritten.symm.trans hchars)
      obtain ⟨hblank, hquote⟩ := not_isBlank_of_continuesWord (continuesWord_of_isDigit hdigit)
      rw [← List.cons_append, ← hwritten] at hfits ⊢
      simp only [readFrom, hblank, hquote, hdigit, Bool.false_eq_true, if_false, if_true]
      exact readNumber_of_endsBefore hdigit hdigits hfraction hend hfits
  | word letters =>
      cases letters with
      | nil => exact hwf.elim
      | cons d letters =>
          obtain ⟨rfl, rfl⟩ := List.cons.inj hchars
          obtain ⟨hfirst, hothers⟩ := hwf
          obtain ⟨hblank, hquote⟩ :=
            not_isBlank_of_continuesWord (continuesWord_of_startsWord hfirst)
          simp only [readFrom, hblank, hquote, not_isDigit_of_startsWord hfirst, hfirst,
            Bool.false_eq_true, if_false, if_true]
          exact readWord_of_stop hothers hend hfits
  | unterminated body =>
      obtain ⟨rfl, rfl⟩ := List.cons.inj hchars
      obtain rfl : rest = [] := hend
      rw [List.append_nil] at hfits ⊢
      have hline := Line.after_append Line.first read ('"' :: body)
      rw [Item.diagnostic?, Item.chars, ← hline]
      exact readString_of_open hwf hfits
  | illegal d =>
      obtain ⟨rfl, rfl⟩ := List.cons.inj hchars
      obtain ⟨hmark, hnone⟩ := hwf
      have hslash : d ≠ '/' := by
        rintro rfl
        cases hnone
      simp only [readFrom, hmark.not_isBlank, hmark.ne_quote, hmark.not_isDigit,
        hmark.not_startsWord, Bool.false_eq_true, if_false, hslash, readSymbol, hnone]
      rfl

end Readers

/-- A turn takes an item. It begins where the item begins, ends behind it, and
yields the token and the report of the item. -/
theorem takeTurn_between {dialect : Dialect} {item : Item} {read rest : List Char}
    (h : item.StandsBefore dialect rest) (hfits : Fits (read ++ (item.chars ++ rest))) :
    takeTurn dialect (.between read (item.chars ++ rest)) =
      .ok (some ⟨.between (read ++ item.chars) rest, item.token? (Line.first.after read),
        item.diagnostic? (Line.first.after read)⟩) := by
  obtain ⟨c, tail, hchars⟩ :=
    List.exists_cons_of_ne_nil (Item.chars_ne_nil_of_wellFormed h.wellFormed)
  have htext : item.chars ++ rest = c :: (tail ++ rest) := by rw [hchars, List.cons_append]
  rw [htext] at hfits ⊢
  rw [takeTurn, next_between_cons hfits, ok_bind]
  simp only [readFrom_of_standsBefore h hchars hfits, ok_bind]
  rfl

theorem takeTurn_between_nil {dialect : Dialect} {read : List Char} (hfits : Fits read) :
    takeTurn dialect (.between read []) = .ok none := by
  have hcheck : checkLine (.between read []) = .ok () :=
    checkLine_between (by rwa [List.append_nil])
  rw [takeTurn, next, hcheck]
  rfl

/-- A run over the items of a text, one turn for each. -/
theorem scanFrom_between {σ : Type u} {dialect : Dialect} (report : σ → Diagnostic → σ)
    {row : List Item} (h : IsCut dialect row) (read : List Char) (tokens : Array Token) (state : σ)
    (hfits : Fits (read ++ row.flatMap Item.chars)) :
    scanFrom dialect report (.between read (row.flatMap Item.chars)) tokens state =
      .ok ⟨tokens ++ (tokensFrom (Line.first.after read) row).toArray,
        (diagnosticsFrom (Line.first.after read) row).foldl report state⟩ := by
  induction row generalizing read tokens state with
  | nil =>
      rw [List.flatMap_nil, List.append_nil] at hfits
      rw [List.flatMap_nil, scanFrom, takeTurn_between_nil hfits]
      simp [tokensFrom, diagnosticsFrom, Cursor.between]
  | cons item row ih =>
      obtain ⟨hstands, hrow⟩ := h
      rw [List.flatMap_cons] at hfits ⊢
      have hshorter : (row.flatMap Item.chars).length <
          (item.chars ++ row.flatMap Item.chars).length := by
        have hne := List.length_pos_iff.mpr (Item.chars_ne_nil_of_wellFormed hstands.wellFormed)
        rw [List.length_append]
        omega
      have hrest : Fits (read ++ item.chars ++ row.flatMap Item.chars) := by
        rwa [List.append_assoc]
      rw [scanFrom, takeTurn_between hstands hfits]
      show (if (row.flatMap Item.chars).length < (item.chars ++ row.flatMap Item.chars).length
        then _ else _) = _
      rw [if_pos hshorter, ih hrow _ _ _ hrest, Line.after_append, tokensFrom, diagnosticsFrom]
      cases item.token? (Line.first.after read) <;>
        cases item.diagnostic? (Line.first.after read) <;> simp

end Positional

/-- **No guard fails.** A source text of fewer than `2 ^ 63` bytes is scanned by
positions without a breakdown: each turn takes a character, each stretch has its
ends on boundaries of characters and in order, no line counter passes its limit,
and each number is read. The tokens and the reports are those of a scan. -/
theorem positionalScan_eq_ok {σ : Type u} (dialect : Dialect) (report : σ → Diagnostic → σ)
    (state : σ) (source : String) (h : source.utf8ByteSize ≤ 2 ^ 63 - 1) :
    Positional.scanWith dialect report state source =
      .ok (scanWith dialect report state source) := by
  have hsize : Utf8.size source.toList = source.utf8ByteSize := by
    rw [← Utf8.utf8ByteSize_ofList, String.ofList_toList]
  have htext := flatMap_chars_items dialect source.toList
  have hfits : Positional.Fits ([] ++ (items dialect source.toList).flatMap Item.chars) := by
    rw [List.nil_append, htext, Positional.Fits, hsize]
    exact Nat.lt_of_le_of_lt h (by decide)
  have hrun := Positional.scanFrom_between report (isCut_items dialect source.toList) [] #[] state
    hfits
  rw [htext, ← Cursor.start_eq_between] at hrun
  rw [Positional.scanWith, hrun, scanWith_eq, Array.empty_append]
  rfl

/-- A string of several bytes to a character and over two lines, and a number
behind it. -/
theorem positionalScan_eq_ok_multibyte :
    "\"é\n\"1.5".utf8ByteSize ≤ 2 ^ 63 - 1 ∧
      Positional.scanWith ⟨false⟩ Log.report .empty "\"é\n\"1.5" =
        .ok (scan ⟨false⟩ "\"é\n\"1.5") :=
  have hsize : "\"é\n\"1.5".utf8ByteSize ≤ 2 ^ 63 - 1 := by decide
  ⟨hsize, positionalScan_eq_ok _ _ _ _ hsize⟩

end Lox
