/-
# Lines of a source text

Lines are counted from one, and only a line feed ends a line: a carriage return
is an ordinary character, so a text with CR LF endings has the same lines as the
text with LF endings alone.

The one operation that matters is `Line.after`: where a reader stands once it
has read a stretch of text. It is additive over concatenation, which is what
makes the line of a character depend on the text before it and on nothing else.
-/

namespace Lox

/-- A line of a source text. Every number is allowed: a line may be given by a
caller as well as counted from a text. -/
structure Line where
  /-- The number shown for the line. -/
  number : Nat
deriving DecidableEq, Ord

namespace Line

/-- The line on which every source text begins. -/
def first : Line := ⟨1⟩

/-- The line `n` further down. -/
def plus (line : Line) (n : Nat) : Line := ⟨line.number + n⟩

/-- The number of lines that `text` ends. -/
def breaks (text : List Char) : Nat := text.count '\n'

/-- The line of the character that follows `text`, where `text` starts on `line`. -/
def after (line : Line) (text : List Char) : Line := line.plus (breaks text)

/-- The later of two lines. -/
def later (a b : Line) : Line := if a.number ≤ b.number then b else a

instance : ToString Line := ⟨fun line => toString line.number⟩

@[simp]
theorem number_plus (line : Line) (n : Nat) : (line.plus n).number = line.number + n := rfl

/-- Reading two stretches of text is reading the first and then the second. -/
theorem after_append (line : Line) (a b : List Char) :
    line.after (a ++ b) = (line.after a).after b := by
  simp [after, plus, breaks, List.count_append, Nat.add_assoc]

/-- A character moves to the next line exactly when it is a line feed. -/
theorem after_cons (line : Line) (c : Char) (text : List Char) :
    line.after (c :: text) = (if c = '\n' then line.plus 1 else line).after text := by
  by_cases h : c = '\n' <;> simp [after, plus, breaks, h, Nat.add_comm, Nat.add_left_comm]

end Line

end Lox
