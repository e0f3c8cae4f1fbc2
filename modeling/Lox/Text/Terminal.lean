/-
# What a terminal shows of a text

A terminal acts on some characters instead of showing them. Controls act alone.
An escape begins a sequence that acts as a whole: a short one ends with its
first letter or digit, a control sequence with its first letter, a command with
a bell, and a string with a byte of its own. Two controls break off any
sequence, and an escape begins a new one in the middle of another.

What is left of a text when all of this is taken out are the characters that a
terminal shows and the controls that only space them: tab, newline, form feed
and carriage return. Inside a short or a control sequence these suspend it. The
text after them shows until a control comes that does not, and then the sequence
goes on, unless a character beyond ASCII has come between.
-/

namespace Lox

namespace Text

namespace Terminal

/-- A sequence that a terminal has begun to read. -/
inductive Sequence where
  /-- An escape was read. -/
  | escape
  /-- An escape was read, and then at least one intermediate character. -/
  | intermediate
  /-- A control sequence. -/
  | control
  /-- A command to the system around the terminal. -/
  | command
  /-- The head of a device string, before its parameters. -/
  | deviceHead
  /-- The head of a device string, from its first parameter on. -/
  | deviceParameter
  /-- The head of a device string, from its first intermediate character on. -/
  | deviceIntermediate
  /-- A string that is not shown. -/
  | string
deriving DecidableEq

/-- What a terminal is doing between two characters. -/
inductive Mode where
  /-- It shows the text. -/
  | showing
  /-- It reads a sequence. -/
  | within (sequence : Sequence)
  /-- It shows the text and has a sequence to go on with. -/
  | suspended (sequence : Sequence)
deriving DecidableEq

/-- Whether a character is a control that only spaces the text. -/
def isSpacing (c : Char) : Bool := c == '\t' || c == '\n' || c == '\x0c' || c == '\r'

/-- Whether a character shows in a text outside sequences. -/
def isShown (c : Char) : Bool := isSpacing c || (' ' ≤ c && c != '\x7f')

/-- Whether the encoding of a character has the byte that ends a string. -/
def endsString (c : Char) : Bool := (String.utf8EncodeChar c).contains 0x9c

/-- Reads one character of a sequence. -/
def Sequence.step (sequence : Sequence) (c : Char) : Mode :=
  match sequence with
  | escape =>
    if isSpacing c then .suspended escape
    else if ' ' ≤ c ∧ c ≤ '/' then .within intermediate
    else if c = '[' then .within control
    else if c = ']' then .within command
    else if c = 'P' then .within deviceHead
    else if c = 'X' ∨ c = '^' ∨ c = '_' then .within string
    else if '0' ≤ c ∧ c ≤ '~' then .showing
    else .within escape
  | intermediate =>
    if isSpacing c then .suspended intermediate
    else if '0' ≤ c ∧ c ≤ '~' then .showing
    else .within intermediate
  | control =>
    if isSpacing c then .suspended control
    else if '@' ≤ c ∧ c ≤ '~' then .showing
    else .within control
  | command => if c = '\x07' then .showing else .within command
  | deviceHead =>
    if ' ' ≤ c ∧ c ≤ '/' then .within deviceIntermediate
    else if '0' ≤ c ∧ c ≤ '?' then .within deviceParameter
    else if '@' ≤ c ∧ c ≤ '~' then .within string
    else .within deviceHead
  | deviceParameter =>
    if ' ' ≤ c ∧ c ≤ '/' then .within deviceIntermediate
    else if '<' ≤ c ∧ c ≤ '~' then .within string
    else .within deviceParameter
  | deviceIntermediate =>
    if '0' ≤ c ∧ c ≤ '~' then .within string else .within deviceIntermediate
  | string => if endsString c then .showing else .within string

/-- Reads one character. -/
def Mode.step (mode : Mode) (c : Char) : Mode :=
  if c = '\x1b' then .within .escape
  else if c = '\x18' ∨ c = '\x1a' then .showing
  else
    match mode with
    | showing => showing
    | within sequence => sequence.step c
    | suspended sequence =>
      if '\x7f' < c then showing
      else if isShown c then suspended sequence
      else within sequence

/-- Whether a terminal shows a character. -/
def Mode.shows (mode : Mode) (c : Char) : Bool :=
  match mode with
  | within .escape | within .intermediate | within .control => isSpacing c
  | within _ => false
  | showing | suspended _ => isShown c

/-- The characters of a text that a terminal shows. -/
def visibleFrom (mode : Mode) : List Char → List Char
  | [] => []
  | c :: text =>
    if mode.shows c then c :: visibleFrom (mode.step c) text else visibleFrom (mode.step c) text

/-- The text that a terminal shows of a text. -/
def visible (text : String) : String := String.ofList (visibleFrom .showing text.toList)

/-! ## What shows is shown as it is -/

/-- What shows in the middle of a sequence shows outside as well. -/
theorem isShown_of_shows {mode : Mode} {c : Char} (h : mode.shows c = true) : isShown c = true := by
  have spaced (spacing : isSpacing c = true) : isShown c = true := by
    rw [isShown, spacing, Bool.true_or]
  unfold Mode.shows at h
  split at h
  · exact spaced h
  · exact spaced h
  · exact spaced h
  · exact absurd h Bool.false_ne_true
  · exact h
  · exact h

theorem isShown_of_mem_visibleFrom {mode : Mode} {text : List Char} {c : Char}
    (mem : c ∈ visibleFrom mode text) : isShown c = true := by
  induction text generalizing mode with
  | nil => cases mem
  | cons d text ih =>
    rw [visibleFrom] at mem
    split at mem
    next shows =>
      cases mem with
      | head => exact isShown_of_shows shows
      | tail _ mem => exact ih mem
    next => exact ih mem

/-- A text without controls is shown as it is. -/
theorem visibleFrom_eq_self {text : List Char} (shown : ∀ c ∈ text, isShown c) :
    visibleFrom .showing text = text := by
  induction text with
  | nil => rfl
  | cons c text ih =>
    have first : isShown c := shown c List.mem_cons_self
    have stays : Mode.showing.step c = .showing := by
      have notEscape : c ≠ '\x1b' := fun h => by subst h; exact absurd first (by decide)
      simp [Mode.step, notEscape]
    rw [visibleFrom, stays, ih fun d mem => shown d (List.mem_cons_of_mem c mem)]
    simp [Mode.shows, first]

/-- Whether every character of a text shows. -/
def allShown (text : String) : Bool := text.toList.all isShown

theorem allShown_append {a b : String} (first : allShown a = true) (second : allShown b = true) :
    allShown (a ++ b) = true := by
  rw [allShown, String.toList_append, List.all_append, Bool.and_eq_true]
  exact ⟨first, second⟩

theorem allShown_visible (text : String) : allShown (visible text) = true := by
  rw [allShown, visible, String.toList_ofList, List.all_eq_true]
  exact fun _ mem => isShown_of_mem_visibleFrom mem

theorem visible_eq_self {text : String} (shown : allShown text = true) : visible text = text := by
  rw [visible, visibleFrom_eq_self (List.all_eq_true.mp shown), String.ofList_toList]

end Terminal

end Text

end Lox
