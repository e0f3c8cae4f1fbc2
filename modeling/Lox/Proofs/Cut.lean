/-
# The one way to cut a text

Reading an item looks at the text behind it: a word ends where no letter
follows, a number where neither a digit nor a point with a digit follows. This
module turns the reader into two conditions that can be checked without it. An
item is well-formed if its characters are those of its class, and it ends before
a text if nothing at the head of that text would have made it longer.

`next?_eq_some_iff` says that these conditions are the reader: the first item of
a text is the one well-formed item that ends before what is left. `items_eq_iff`
carries this over to whole texts. A row of items is the row of a text exactly if
it spells the text and each of its items stands before the ones after it. To
know the items of a text that was put together or changed, it is then enough to
name them and to look at the places where they meet.
-/

import Mathlib
import Lox.Scan

namespace Lox

universe u

/-! ## Runs of characters -/

theorem takeWhile_append_of_stop {α : Type u} {p : α → Bool} {run rest : List α}
    (hrun : ∀ c ∈ run, p c = true) (hstop : ∀ c ∈ rest.head?, p c = false) :
    (run ++ rest).takeWhile p = run := by
  rw [List.takeWhile_append_of_pos hrun]
  cases rest with
  | nil => simp
  | cons c rest => simp [hstop c rfl]

theorem dropWhile_append_of_stop {α : Type u} {p : α → Bool} {run rest : List α}
    (hrun : ∀ c ∈ run, p c = true) (hstop : ∀ c ∈ rest.head?, p c = false) :
    (run ++ rest).dropWhile p = rest := by
  have hsplit := List.takeWhile_append_dropWhile (p := p) (l := run ++ rest)
  rw [takeWhile_append_of_stop hrun hstop] at hsplit
  exact List.append_cancel_left hsplit

theorem of_mem_takeWhile {p : Char → Bool} {text : List Char} {c : Char}
    (hc : c ∈ text.takeWhile p) : p c = true :=
  List.all_eq_true.mp List.all_takeWhile c hc

theorem takeWhile_eq_nil_iff_stop {p : Char → Bool} {text : List Char} :
    text.takeWhile p = [] ↔ ∀ c ∈ text.head?, p c = false := by
  cases text with
  | nil => simp
  | cons c text => cases hc : p c <;> simp [hc]

theorem stop_of_dropWhile {p : Char → Bool} {text : List Char} :
    ∀ c ∈ (text.dropWhile p).head?, p c = false := by
  intro c hc
  have hstop := List.head?_dropWhile_not p text
  rw [Option.mem_def.mp hc] at hstop
  exact hstop

theorem bne_of_not_mem {α : Type u} [BEq α] [LawfulBEq α] {stop : α} {run : List α}
    (h : stop ∉ run) :
    ∀ c ∈ run, (c != stop) = true := by
  intro c hc
  apply bne_iff_ne.mpr
  rintro rfl
  exact h hc

/-- Two texts are cut in one way only where a run of characters ends. -/
theorem append_inj_of_stop {α : Type u} {p : α → Bool} {run run' rest rest' : List α}
    (hrun : ∀ c ∈ run, p c = true) (hrun' : ∀ c ∈ run', p c = true)
    (hrest : ∀ c ∈ rest.head?, p c = false) (hrest' : ∀ c ∈ rest'.head?, p c = false)
    (h : run ++ rest = run' ++ rest') : run = run' ∧ rest = rest' := by
  have htake := congrArg (List.takeWhile p) h
  rw [takeWhile_append_of_stop hrun hrest, takeWhile_append_of_stop hrun' hrest'] at htake
  subst htake
  exact ⟨rfl, List.append_cancel_left h⟩

/-- Two texts are cut at the first of their separators in one way only. -/
theorem append_cons_inj_of_not_mem {α : Type u} [BEq α] [LawfulBEq α] {stop : α}
    {run run' rest rest' : List α} (hrun : stop ∉ run) (hrun' : stop ∉ run')
    (h : run ++ stop :: rest = run' ++ stop :: rest') : run = run' ∧ rest = rest' := by
  have hstop (text : List α) : ∀ c ∈ (stop :: text).head?, (c != stop) = false := by simp
  obtain ⟨rfl, hrest⟩ := append_inj_of_stop (bne_of_not_mem hrun) (bne_of_not_mem hrun')
    (hstop rest) (hstop rest') h
  exact ⟨rfl, (List.cons.inj hrest).2⟩

theorem not_mem_takeWhile_bne (stop : Char) (text : List Char) :
    stop ∉ text.takeWhile (· != stop) := by
  intro hstop
  have hne := of_mem_takeWhile hstop
  exact bne_iff_ne.mp hne rfl

/-! ## Classes of characters

An item's first character tells its class, up to a few classes that begin alike.
The classes of characters that decide are disjoint. -/

theorem isBlank_iff {c : Char} : isBlank c = true ↔ c ∈ [' ', '\t', '\r', '\n'] := by
  simp [isBlank, or_assoc]

theorem startsWord_iff {c : Char} : startsWord c = true ↔ c.isAlpha = true ∨ c = '_' := by
  simp [startsWord]

theorem continuesWord_iff {c : Char} :
    continuesWord c = true ↔ c.isAlpha = true ∨ c = '_' ∨ c.isDigit = true := by
  simp [continuesWord, startsWord, or_assoc]

/-- A character that a word goes on with is neither a blank nor a quote. -/
theorem not_isBlank_of_continuesWord {c : Char} (h : continuesWord c = true) :
    isBlank c = false ∧ c ≠ '"' := by
  have hothers : ['"', ' ', '\t', '\r', '\n'].all (!continuesWord ·) = true := by decide
  have hnot : c ∉ ['"', ' ', '\t', '\r', '\n'] := by
    intro hc
    have hnone := List.all_eq_true.mp hothers c hc
    simp [h] at hnone
  constructor
  · apply Bool.eq_false_iff.mpr
    intro hblank
    exact hnot (List.mem_cons_of_mem _ (isBlank_iff.mp hblank))
  · rintro rfl
    exact hnot List.mem_cons_self

theorem continuesWord_of_startsWord {c : Char} (h : startsWord c = true) :
    continuesWord c = true := by
  simp [continuesWord, h]

theorem continuesWord_of_isDigit {c : Char} (h : c.isDigit = true) : continuesWord c = true := by
  simp [continuesWord, h]

theorem not_continuesWord_of_isBlank {c : Char} (h : isBlank c = true) :
    continuesWord c = false := by
  apply Bool.eq_false_iff.mpr
  intro hword
  simp [(not_isBlank_of_continuesWord hword).1] at h

theorem not_isDigit_of_isBlank {c : Char} (h : isBlank c = true) : c.isDigit = false := by
  apply Bool.eq_false_iff.mpr
  intro hdigit
  simp [(not_isBlank_of_continuesWord (continuesWord_of_isDigit hdigit)).1] at h

theorem not_isDigit_of_startsWord {c : Char} (h : startsWord c = true) : c.isDigit = false := by
  rcases startsWord_iff.mp h with halpha | rfl
  · simp only [Char.isAlpha, Char.isUpper, Char.isLower, Char.isDigit] at *
    grind
  · decide

/-- Whether a character is no blank, no quote, no digit and no letter. Only
symbols, comments and illegal items begin with such a character. -/
structure IsMark (c : Char) : Prop where
  not_isBlank : isBlank c = false
  ne_quote : c ≠ '"'
  not_isDigit : c.isDigit = false
  not_startsWord : startsWord c = false

namespace Symbol

theorem ofChar?_eq_some_iff {dialect : Dialect} {c : Char} {symbol : Symbol} :
    ofChar? dialect c = some symbol ↔ symbol.chars = [c] ∧ symbol.isIn dialect = true := by
  constructor
  · intro h
    simpa using List.find?_some h
  · rintro ⟨hchars, hin⟩
    cases hfound : ofChar? dialect c with
    | none =>
        have hnone := List.find?_eq_none.mp hfound symbol (mem_all symbol)
        simp [hchars, hin] at hnone
    | some other =>
        have hother : other.chars = [c] ∧ other.isIn dialect = true := by
          simpa using List.find?_some hfound
        rw [chars_injective (hother.1.trans hchars.symm)]

theorem isMark_of_mem_head? (symbol : Symbol) {c : Char} (h : c ∈ symbol.chars.head?) :
    IsMark c := by
  have hmarks : all.all (fun symbol => symbol.chars.head?.all fun c =>
      !isBlank c && c != '"' && !c.isDigit && !startsWord c) = true := by decide
  have hmark := List.all_eq_true.mp hmarks symbol (mem_all symbol)
  rw [Option.mem_def.mp h] at hmark
  simp only [Option.all_some, Bool.and_eq_true, Bool.not_eq_true', bne_iff_ne] at hmark
  obtain ⟨⟨⟨hblank, hquote⟩, hdigit⟩, hword⟩ := hmark
  exact ⟨hblank, hquote, hdigit, hword⟩

/-- A symbol is a single character, or one with an equals sign after it. -/
theorem chars_cases (symbol : Symbol) :
    (∃ c, symbol.chars = [c]) ∨
      ∃ (single : Symbol) (c : Char), single.withEqual? = some symbol ∧ single.chars = [c] := by
  cases symbol with
  | bangEqual => exact .inr ⟨bang, '!', rfl, rfl⟩
  | equalEqual => exact .inr ⟨equal, '=', rfl, rfl⟩
  | greaterEqual => exact .inr ⟨greater, '>', rfl, rfl⟩
  | lessEqual => exact .inr ⟨less, '<', rfl, rfl⟩
  | _ => exact .inl ⟨_, rfl⟩

theorem isIn_of_withEqual? (dialect : Dialect) {single double : Symbol}
    (h : single.withEqual? = some double) :
    single.isIn dialect = true ∧ double.isIn dialect = true := by
  cases single <;> simp [withEqual?] at h <;> subst h <;> exact ⟨rfl, rfl⟩

/-- Whether a symbol and the character after it make something longer together:
another symbol, or the beginning of a comment. -/
def growsWith (symbol : Symbol) (c : Char) : Prop :=
  (symbol.withEqual?.isSome ∧ c = '=') ∨ (symbol = slash ∧ c = '/')

/-- Two characters are the most that a symbol has. -/
theorem not_growsWith_of_withEqual? {single double : Symbol}
    (h : single.withEqual? = some double) (c : Char) : ¬ double.growsWith c := by
  cases single <;> simp [withEqual?] at h <;> subst h <;> simp [growsWith, withEqual?]

end Symbol

namespace Item

/-! ## What a class of items is made of -/

/-- Whether the characters of an item are those of its class. -/
def WellFormed (dialect : Dialect) : Item → Prop
  | blank c => isBlank c = true
  | comment body => '\n' ∉ body
  | symbol which => which.isIn dialect = true
  | string body => '"' ∉ body
  | number whole fraction =>
      whole ≠ [] ∧ (∀ c ∈ whole, c.isDigit = true) ∧ ∀ c ∈ fraction, c.isDigit = true
  | word [] => False
  | word (c :: letters) => startsWord c = true ∧ ∀ d ∈ letters, continuesWord d = true
  | unterminated body => '"' ∉ body
  | illegal c => IsMark c ∧ Symbol.ofChar? dialect c = none

/-- Whether nothing at the head of a text makes an item longer that stands
before it. No more than two characters of the text are looked at. -/
def EndsBefore : Item → List Char → Prop
  | blank _, _ | string _, _ | illegal _, _ => True
  | comment _, rest => ∀ c ∈ rest.head?, c = '\n'
  | symbol which, rest => ∀ c ∈ rest.head?, ¬ which.growsWith c
  | number _ fraction, rest =>
      (∀ c ∈ rest.head?, c.isDigit = false) ∧
        (fraction = [] → rest.head? = some '.' → ∀ c ∈ rest.tail.head?, c.isDigit = false)
  | word _, rest => ∀ c ∈ rest.head?, continuesWord c = false
  | unterminated _, rest => rest = []

/-- An item stands before a text if it is well-formed and ends there. -/
structure StandsBefore (dialect : Dialect) (item : Item) (rest : List Char) : Prop where
  wellFormed : item.WellFormed dialect
  endsBefore : item.EndsBefore rest

/-! ## The reader, class by class -/

section Reader

variable {dialect : Dialect} {c : Char} {rest : List Char}

theorem startingWith_of_isBlank (h : isBlank c = true) :
    startingWith dialect c rest = (blank c, rest) := by
  simp [startingWith, h]

theorem startingWith_quote : startingWith dialect '"' rest = afterQuote rest := by
  simp [startingWith, isBlank]

theorem startingWith_of_isDigit (h : c.isDigit = true) :
    startingWith dialect c rest = numberAt (c :: rest) := by
  obtain ⟨hblank, hquote⟩ := not_isBlank_of_continuesWord (continuesWord_of_isDigit h)
  simp [startingWith, hblank, hquote, h]

theorem startingWith_of_startsWord (h : startsWord c = true) :
    startingWith dialect c rest =
      (word (c :: rest.takeWhile continuesWord), rest.dropWhile continuesWord) := by
  obtain ⟨hblank, hquote⟩ := not_isBlank_of_continuesWord (continuesWord_of_startsWord h)
  simp [startingWith, hblank, hquote, not_isDigit_of_startsWord h, h]

theorem startingWith_slashes :
    startingWith dialect '/' ('/' :: rest) =
      (comment (rest.takeWhile (· != '\n')), rest.dropWhile (· != '\n')) := by
  have hslash : IsMark '/' := Symbol.isMark_of_mem_head? .slash rfl
  simp [startingWith, hslash.not_isBlank, hslash.not_isDigit, hslash.not_startsWord]

theorem startingWith_of_isMark (h : IsMark c) (hslash : c = '/' → rest.head? ≠ some '/') :
    startingWith dialect c rest = symbolAt dialect c rest := by
  simp only [startingWith, h.not_isBlank, h.ne_quote, h.not_isDigit, h.not_startsWord,
    Bool.false_eq_true, if_false]
  split
  next left => exact absurd rfl (hslash rfl)
  next => rfl

end Reader

/-! ### Quotes -/

theorem afterQuote_closed {body rest : List Char} (h : '"' ∉ body) :
    afterQuote (body ++ '"' :: rest) = (string body, rest) := by
  have hstop : ∀ c ∈ ('"' :: rest).head?, (c != '"') = false := by simp
  simp [afterQuote, dropWhile_append_of_stop (bne_of_not_mem h) hstop,
    takeWhile_append_of_stop (bne_of_not_mem h) hstop]

theorem afterQuote_open {body : List Char} (h : '"' ∉ body) :
    afterQuote body = (unterminated body, []) := by
  have hleft : body.dropWhile (· != '"') = [] := by
    rw [← List.append_nil body]
    exact dropWhile_append_of_stop (bne_of_not_mem h) (by simp)
  simp [afterQuote, hleft]

theorem standsBefore_afterQuote (dialect : Dialect) (rest : List Char) :
    (afterQuote rest).1.StandsBefore dialect (afterQuote rest).2 := by
  unfold afterQuote
  split
  next hleft =>
    have hall := List.takeWhile_append_dropWhile (p := (· != '"')) (l := rest)
    rw [hleft, List.append_nil] at hall
    have hbody := not_mem_takeWhile_bne '"' rest
    rw [hall] at hbody
    exact ⟨hbody, rfl⟩
  next => exact ⟨not_mem_takeWhile_bne '"' rest, trivial⟩

/-! ### Numbers -/

theorem numberAt_written {dialect : Dialect} {whole fraction rest : List Char}
    (h : (number whole fraction).StandsBefore dialect rest) :
    numberAt (Decimal.written whole fraction ++ rest) = (number whole fraction, rest) := by
  obtain ⟨⟨-, hwhole, hfraction⟩, hstop, hpoint⟩ := h
  by_cases hempty : fraction = []
  · subst hempty
    simp only [Decimal.written, if_true, numberAt, takeWhile_append_of_stop hwhole hstop,
      dropWhile_append_of_stop hwhole hstop]
    split
    next left =>
      have hnone := takeWhile_eq_nil_iff_stop.mpr (hpoint rfl rfl)
      simp only [List.tail_cons] at hnone
      simp [hnone]
    next => rfl
  · have hpointStop : ∀ c ∈ ('.' :: (fraction ++ rest)).head?, c.isDigit = false := by
      simp
    rw [Decimal.written, if_neg hempty, List.append_assoc, List.cons_append]
    simp only [numberAt, takeWhile_append_of_stop hwhole hpointStop,
      dropWhile_append_of_stop hwhole hpointStop, takeWhile_append_of_stop hfraction hstop,
      dropWhile_append_of_stop hfraction hstop, if_neg hempty]

theorem standsBefore_numberAt (dialect : Dialect) {source : List Char}
    (h : source.takeWhile Char.isDigit ≠ []) :
    (numberAt source).1.StandsBefore dialect (numberAt source).2 := by
  have hwhole : ∀ c ∈ source.takeWhile Char.isDigit, c.isDigit = true :=
    fun _ hc => of_mem_takeWhile hc
  have hstop : ∀ c ∈ (source.dropWhile Char.isDigit).head?, c.isDigit = false :=
    stop_of_dropWhile
  unfold numberAt
  simp only
  split
  next left hleft =>
    split
    next hfraction =>
      refine ⟨⟨h, hwhole, by simp⟩, hstop, ?_⟩
      intro _ _
      rw [hleft]
      exact takeWhile_eq_nil_iff_stop.mp hfraction
    next hfraction =>
      refine ⟨⟨h, hwhole, fun _ hc => of_mem_takeWhile hc⟩, stop_of_dropWhile, ?_⟩
      intro hempty
      exact absurd hempty hfraction
  next hnopoint =>
    refine ⟨⟨h, hwhole, by simp⟩, hstop, ?_⟩
    intro _ hpoint
    obtain ⟨left, hleft⟩ := List.head?_eq_some_iff.mp hpoint
    exact absurd hleft (hnopoint left)

/-! ### Symbols -/

theorem symbolAt_of_isIn {dialect : Dialect} {which : Symbol} {c : Char} {tail rest : List Char}
    (h : (symbol which).StandsBefore dialect rest) (hchars : which.chars = c :: tail) :
    symbolAt dialect c (tail ++ rest) = (symbol which, rest) := by
  obtain ⟨hin, hstop⟩ := h
  rcases which.chars_cases with ⟨d, hone⟩ | ⟨single, d, hdouble, hsingle⟩
  · obtain ⟨rfl, rfl⟩ := List.cons.inj (hchars.symm.trans hone)
    have hfound := Symbol.ofChar?_eq_some_iff.mpr ⟨hone, hin⟩
    simp only [symbolAt, hfound, List.nil_append]
    split
    next double left hlonger =>
      exact absurd (.inl ⟨by simp [hlonger], rfl⟩) (hstop '=' rfl)
    next => rfl
  · have htwo : which.chars = [d, '='] := by
      simpa [hsingle] using Symbol.chars_withEqual hdouble
    obtain ⟨rfl, rfl⟩ := List.cons.inj (hchars.symm.trans htwo)
    have hfound := Symbol.ofChar?_eq_some_iff.mpr
      ⟨hsingle, (Symbol.isIn_of_withEqual? dialect hdouble).1⟩
    simp [symbolAt, hfound, hdouble]

theorem standsBefore_symbolAt {dialect : Dialect} {c : Char} {rest : List Char} (hmark : IsMark c)
    (hslash : c = '/' → rest.head? ≠ some '/') :
    (symbolAt dialect c rest).1.StandsBefore dialect (symbolAt dialect c rest).2 := by
  unfold symbolAt
  split
  next hnone => exact ⟨⟨hmark, hnone⟩, trivial⟩
  next single hfound =>
    obtain ⟨hchars, hin⟩ := Symbol.ofChar?_eq_some_iff.mp hfound
    split
    next double left hdouble =>
      exact ⟨(Symbol.isIn_of_withEqual? dialect hdouble).2,
        fun d _ => Symbol.not_growsWith_of_withEqual? hdouble d⟩
    next hnot =>
      refine ⟨hin, ?_⟩
      intro d hd hgrows
      obtain ⟨left, rfl⟩ := List.head?_eq_some_iff.mp hd
      rcases hgrows with ⟨hsome, rfl⟩ | ⟨rfl, rfl⟩
      · obtain ⟨double, hdouble⟩ := Option.isSome_iff_exists.mp hsome
        exact hnot double left hdouble rfl
      · have hc : c = '/' := by simpa [Symbol.chars] using hchars.symm
        exact hslash hc rfl

/-! ## The reader as a condition -/

/-- Every item that is read is well-formed and ends before what is left. -/
theorem standsBefore_startingWith (dialect : Dialect) (c : Char) (rest : List Char) :
    (startingWith dialect c rest).1.StandsBefore dialect (startingWith dialect c rest).2 := by
  by_cases hblank : isBlank c = true
  · rw [startingWith_of_isBlank hblank]
    exact ⟨hblank, trivial⟩
  by_cases hquote : c = '"'
  · subst hquote
    rw [startingWith_quote]
    exact standsBefore_afterQuote dialect rest
  by_cases hdigit : c.isDigit = true
  · rw [startingWith_of_isDigit hdigit]
    exact standsBefore_numberAt dialect (by simp [hdigit])
  by_cases hword : startsWord c = true
  · rw [startingWith_of_startsWord hword]
    exact ⟨⟨hword, fun _ hd => of_mem_takeWhile hd⟩, stop_of_dropWhile⟩
  have hmark : IsMark c := ⟨by simpa using hblank, hquote, by simpa using hdigit,
    by simpa using hword⟩
  by_cases hslashes : c = '/' ∧ rest.head? = some '/'
  · obtain ⟨rfl, hsecond⟩ := hslashes
    obtain ⟨left, rfl⟩ := List.head?_eq_some_iff.mp hsecond
    rw [startingWith_slashes]
    refine ⟨not_mem_takeWhile_bne '\n' left, ?_⟩
    intro d hd
    simpa using stop_of_dropWhile d hd
  · have hslash : c = '/' → rest.head? ≠ some '/' := fun hc hsecond => hslashes ⟨hc, hsecond⟩
    rw [startingWith_of_isMark hmark hslash]
    exact standsBefore_symbolAt hmark hslash

/-- A well-formed item is read in front of every text that it ends before. -/
theorem next?_chars_append {dialect : Dialect} {item : Item} {rest : List Char}
    (h : item.StandsBefore dialect rest) :
    next? dialect (item.chars ++ rest) = some (item, rest) := by
  have hwf := h.wellFormed
  have hend := h.endsBefore
  cases item with
  | blank c => exact congrArg some (startingWith_of_isBlank hwf)
  | comment body =>
      have hbody : ∀ c ∈ body, (c != '\n') = true := bne_of_not_mem hwf
      have hstop : ∀ c ∈ rest.head?, (c != '\n') = false := by
        intro c hc
        rw [hend c hc]
        rfl
      simp only [chars, List.cons_append, next?, startingWith_slashes,
        takeWhile_append_of_stop hbody hstop, dropWhile_append_of_stop hbody hstop]
  | symbol which =>
      obtain ⟨c, tail, hchars⟩ : ∃ c tail, which.chars = c :: tail := by
        cases which <;> exact ⟨_, _, rfl⟩
      have hslash : c = '/' → (tail ++ rest).head? ≠ some '/' := by
        rintro rfl hsecond
        have hwhich : which = .slash ∧ tail = [] := by
          cases which <;> simp_all [Symbol.chars]
        obtain ⟨rfl, rfl⟩ := hwhich
        exact hend '/' hsecond (.inr ⟨rfl, rfl⟩)
      have hmark : IsMark c := Symbol.isMark_of_mem_head? which (by simp [hchars])
      simp only [chars, hchars, List.cons_append, next?, startingWith_of_isMark hmark hslash,
        symbolAt_of_isIn h hchars]
  | string body =>
      simp [chars, next?, startingWith_quote, afterQuote_closed hwf]
  | number whole fraction =>
      obtain ⟨hne, hwhole, -⟩ := hwf
      have hwritten : Decimal.written whole fraction ≠ [] := Decimal.written_ne_nil hne
      obtain ⟨c, tail, hchars⟩ := List.exists_cons_of_ne_nil hwritten
      have hdigit : c.isDigit = true := by
        obtain ⟨d, digits, rfl⟩ := List.exists_cons_of_ne_nil hne
        have hhead : (Decimal.written (d :: digits) fraction).head? = some d := by
          unfold Decimal.written
          split <;> rfl
        rw [hchars] at hhead
        exact Option.some.inj hhead ▸ hwhole d (by simp)
      have hread := numberAt_written h
      rw [hchars] at hread
      simp only [chars, hchars, List.cons_append, next?, startingWith_of_isDigit hdigit]
      exact congrArg some hread
  | word letters =>
      cases letters with
      | nil => exact hwf.elim
      | cons c letters =>
          obtain ⟨hfirst, hothers⟩ := hwf
          simp only [chars, List.cons_append, next?, startingWith_of_startsWord hfirst,
            takeWhile_append_of_stop hothers hend, dropWhile_append_of_stop hothers hend]
  | unterminated body =>
      subst hend
      simp [chars, next?, startingWith_quote, afterQuote_open hwf]
  | illegal c =>
      obtain ⟨hmark, hnone⟩ := hwf
      have hslash : c = '/' → rest.head? ≠ some '/' := by
        rintro rfl
        cases hnone
      simp [chars, next?, startingWith_of_isMark hmark hslash, symbolAt, hnone]

/-- The first item of a text is the one that is well-formed and ends before the
text that is left. -/
theorem next?_eq_some_iff {dialect : Dialect} {source rest : List Char} {item : Item} :
    next? dialect source = some (item, rest) ↔
      item.chars ++ rest = source ∧ item.StandsBefore dialect rest := by
  constructor
  · intro h
    refine ⟨chars_append_of_next? h, ?_⟩
    cases source with
    | nil => cases h
    | cons c tail =>
        have hpair : startingWith dialect c tail = (item, rest) := Option.some.inj h
        have hstands := standsBefore_startingWith dialect c tail
        rwa [hpair] at hstands
  · rintro ⟨rfl, h⟩
    exact next?_chars_append h

theorem endsBefore_nil (item : Item) : item.EndsBefore [] := by
  cases item <;> simp [EndsBefore]

/-- Whether a blank ends an item. Comments and open strings read on over it. -/
def EndsAtBlank : Item → Prop
  | comment _ | unterminated _ => False
  | _ => True

/-- An item stays as it is when the text behind it changes, as long as no
character but a blank comes to a place where the item looks. -/
theorem EndsBefore.mono {item : Item} {rest rest' : List Char} (h : item.EndsBefore rest)
    (hitem : item.EndsAtBlank)
    (hfirst : ∀ c ∈ rest'.head?, isBlank c = true ∨ c ∈ rest.head?)
    (hsecond : rest'.head? = some '.' →
      ∀ c ∈ rest'.tail.head?, isBlank c = true ∨ c ∈ rest.tail.head?) :
    item.EndsBefore rest' := by
  cases item with
  | blank c | string body | illegal c => trivial
  | comment body | unterminated body => exact hitem.elim
  | symbol which =>
      intro c hc hgrows
      rcases hfirst c hc with hblank | hold
      · rcases hgrows with ⟨-, rfl⟩ | ⟨-, rfl⟩ <;> cases hblank
      · exact h c hold hgrows
  | word letters =>
      intro c hc
      rcases hfirst c hc with hblank | hold
      · exact not_continuesWord_of_isBlank hblank
      · exact h c hold
  | number whole fraction =>
      obtain ⟨hstop, hpoint⟩ := h
      constructor
      · intro c hc
        rcases hfirst c hc with hblank | hold
        · exact not_isDigit_of_isBlank hblank
        · exact hstop c hold
      · intro hempty hdot c hc
        have hold : rest.head? = some '.' := by
          rcases hfirst '.' hdot with hblank | hold
          · cases hblank
          · exact hold
        rcases hsecond hdot c hc with hblank | hnext
        · exact not_isDigit_of_isBlank hblank
        · exact hpoint hempty hold c hnext

/-- Less text behind an item makes it no longer. -/
theorem EndsBefore.of_append {item : Item} {rest more : List Char}
    (h : item.EndsBefore (rest ++ more)) : item.EndsBefore rest := by
  have hhead {text : List Char} : ∀ c ∈ text.head?, c ∈ (text ++ more).head? := by
    intro c hc
    rw [List.head?_append, Option.mem_def.mp hc]
    rfl
  cases item with
  | blank c | string body | illegal c => trivial
  | comment body | symbol which | word letters => exact fun c hc => h c (hhead c hc)
  | unterminated body => exact (List.append_eq_nil_iff.mp h).1
  | number whole fraction =>
      obtain ⟨hstop, hpoint⟩ := h
      refine ⟨fun c hc => hstop c (hhead c hc), ?_⟩
      intro hempty hdot c hc
      obtain ⟨left, rfl⟩ := List.head?_eq_some_iff.mp hdot
      exact hpoint hempty rfl c (hhead c hc)

theorem chars_ne_nil_of_wellFormed {dialect : Dialect} {item : Item}
    (h : item.WellFormed dialect) : item.chars ≠ [] :=
  chars_ne_nil_of_next? (next?_chars_append ⟨h, item.endsBefore_nil⟩)

/-- Two items are never spelled alike. -/
theorem eq_of_chars_eq {dialect : Dialect} {item other : Item} (h : item.WellFormed dialect)
    (hother : other.WellFormed dialect) (hchars : item.chars = other.chars) : item = other := by
  have hread := next?_chars_append ⟨h, item.endsBefore_nil⟩
  rw [hchars, next?_chars_append ⟨hother, other.endsBefore_nil⟩] at hread
  exact (Prod.mk.inj (Option.some.inj hread)).1.symm

end Item

/-! ## Rows of items -/

/-- Whether each item of a row stands before the characters of the others that
follow it. -/
def IsCut (dialect : Dialect) : List Item → Prop
  | [] => True
  | item :: row =>
      item.StandsBefore dialect (row.flatMap Item.chars) ∧ IsCut dialect row

theorem IsCut.wellFormed {dialect : Dialect} {row : List Item} (h : IsCut dialect row) :
    ∀ item ∈ row, item.WellFormed dialect := by
  induction row with
  | nil => simp
  | cons item row ih =>
      obtain ⟨hstands, hrow⟩ := h
      exact List.forall_mem_cons.mpr ⟨hstands.wellFormed, ih hrow⟩

theorem IsCut.eq_nil {dialect : Dialect} {row : List Item} (h : IsCut dialect row)
    (hchars : row.flatMap Item.chars = []) : row = [] := by
  cases row with
  | nil => rfl
  | cons item row =>
      rw [List.flatMap_cons, List.append_eq_nil_iff] at hchars
      exact absurd hchars.1 (Item.chars_ne_nil_of_wellFormed h.1.wellFormed)

/-- Both parts of a row whose items stand before each other are such rows by themselves. -/
theorem IsCut.of_append {dialect : Dialect} {row row' : List Item}
    (h : IsCut dialect (row ++ row')) : IsCut dialect row ∧ IsCut dialect row' := by
  induction row with
  | nil => exact ⟨trivial, h⟩
  | cons item row ih =>
      rw [List.cons_append] at h
      obtain ⟨⟨hwf, hends⟩, hothers⟩ := h
      obtain ⟨hrow, hrow'⟩ := ih hothers
      rw [List.flatMap_append] at hends
      exact ⟨⟨⟨hwf, hends.of_append⟩, hrow⟩, hrow'⟩

/-- The items of a text stand before each other. -/
theorem isCut_items (dialect : Dialect) (source : List Char) :
    IsCut dialect (items dialect source) := by
  induction source using (measure List.length).wf.induction with
  | h source ih =>
      cases h : Item.next? dialect source with
      | none =>
          rw [items_of_next?_eq_none h]
          trivial
      | some pair =>
          obtain ⟨item, rest⟩ := pair
          rw [items_of_next?_eq_some h]
          refine ⟨?_, ih rest (Item.length_lt_of_next? h)⟩
          rw [flatMap_chars_items]
          exact (Item.next?_eq_some_iff.mp h).2

/-- A row whose items stand before each other is read back from its characters. -/
theorem items_flatMap_chars {dialect : Dialect} {row : List Item} (h : IsCut dialect row) :
    items dialect (row.flatMap Item.chars) = row := by
  induction row with
  | nil => exact items_of_next?_eq_none rfl
  | cons item row ih =>
      obtain ⟨hstands, hrow⟩ := h
      rw [List.flatMap_cons, items_of_next?_eq_some (Item.next?_chars_append hstands), ih hrow]

/-- The items of a text are the only row that spells it and whose items stand
before each other. -/
theorem items_eq_iff {dialect : Dialect} {source : List Char} {row : List Item} :
    items dialect source = row ↔ row.flatMap Item.chars = source ∧ IsCut dialect row := by
  constructor
  · rintro rfl
    exact ⟨flatMap_chars_items dialect source, isCut_items dialect source⟩
  · rintro ⟨rfl, h⟩
    exact items_flatMap_chars h

end Lox
