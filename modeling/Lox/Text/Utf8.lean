/-
# Byte positions in a text

A text is a list of characters here, and a position in it may be given as a
count of the bytes that its UTF-8 encoding takes up to there. Only some counts
are positions: a count that falls inside a character or beyond the end is none,
and the operations below refuse it instead of moving to a neighbour.
-/

namespace Lox

namespace Utf8

/-- The number of bytes in the encoding of a text. -/
def size : List Char → Nat
  | [] => 0
  | c :: text => c.utf8Size + size text

/-- The text without its first `count` bytes, if they are whole characters. -/
def dropBytes? : Nat → List Char → Option (List Char)
  | 0, text => some text
  | _ + 1, [] => none
  | count + 1, c :: text =>
    if c.utf8Size ≤ count + 1 then dropBytes? (count + 1 - c.utf8Size) text else none

/-- The first `count` bytes of a text, if they are whole characters. -/
def takeBytes? : Nat → List Char → Option (List Char)
  | 0, _ => some []
  | _ + 1, [] => none
  | count + 1, c :: text =>
    if c.utf8Size ≤ count + 1 then (takeBytes? (count + 1 - c.utf8Size) text).map (c :: ·)
    else none

/-- The text from one byte position to another. There is none if the second
position comes before the first, or if either is no position of the text. -/
def slice? (start stop : Nat) (text : List Char) : Option (List Char) :=
  if stop < start then none else (dropBytes? start text).bind (takeBytes? (stop - start))

@[simp]
theorem size_nil : size [] = 0 := rfl

@[simp]
theorem size_cons (c : Char) (text : List Char) : size (c :: text) = c.utf8Size + size text := rfl

@[simp]
theorem size_append (a b : List Char) : size (a ++ b) = size a + size b := by
  induction a with
  | nil => simp
  | cons c a ih => rw [List.cons_append, size_cons, ih, size_cons, Nat.add_assoc]

/-- The size of a prefix is a position, and what follows it is the rest. -/
theorem dropBytes?_size (a b : List Char) : dropBytes? (size a) (a ++ b) = some b := by
  induction a with
  | nil => simp [dropBytes?]
  | cons c a ih =>
    have hpos := c.utf8Size_pos
    have hsize : size (c :: a) = c.utf8Size - 1 + size a + 1 := by rw [size_cons]; omega
    rw [hsize, List.cons_append, dropBytes?, if_pos (by omega)]
    rw [show c.utf8Size - 1 + size a + 1 - c.utf8Size = size a by omega]
    exact ih

/-- The bytes of a prefix are that prefix. -/
theorem takeBytes?_size (a b : List Char) : takeBytes? (size a) (a ++ b) = some a := by
  induction a with
  | nil => simp [takeBytes?]
  | cons c a ih =>
    have hpos := c.utf8Size_pos
    have hsize : size (c :: a) = c.utf8Size - 1 + size a + 1 := by rw [size_cons]; omega
    rw [hsize, List.cons_append, takeBytes?, if_pos (by omega)]
    rw [show c.utf8Size - 1 + size a + 1 - c.utf8Size = size a by omega, ih]
    rfl

/-- A stretch of a text is cut out by the positions at which it begins and ends. -/
theorem slice?_size (a b c : List Char) :
    slice? (size a) (size (a ++ b)) (a ++ b ++ c) = some b := by
  rw [slice?, if_neg (by simp), List.append_assoc, dropBytes?_size, size_append]
  simpa using takeBytes?_size b c

end Utf8

end Lox
