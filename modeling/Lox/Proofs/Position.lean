/-
# Where cursors stand

A cursor divides its source text into what was read and what is left, and those
two parts are all there is to it: the line is counted from the one, the position
is the size of the one, and every movement carries characters from the other
over. `Cursor.between` is the cursor for a given division, and the equations
below say what each movement makes of it.

A stretch of a text is cut out by two byte positions. `Utf8.slice?_eq_some_iff`
says when that works: both positions have to be boundaries of characters, and the
second must not come before the first.
-/

import Lox.Cursor

namespace Lox

namespace Utf8

/-- The size of a text is the number of bytes that it is stored in. -/
theorem utf8ByteSize_ofList (text : List Char) : (String.ofList text).utf8ByteSize = size text := by
  induction text with
  | nil => rw [String.ofList_nil, String.utf8ByteSize_empty, size_nil]
  | cons c text ih =>
      rw [← List.singleton_append, String.ofList_append, String.utf8ByteSize_append, ih]
      simp

/-- No line feed takes less than a byte. -/
theorem breaks_le_size (text : List Char) : Line.breaks text ≤ size text := by
  induction text with
  | nil => exact Nat.le_refl _
  | cons c text ih =>
      have hpos := c.utf8Size_pos
      have hcount : Line.breaks (c :: text) ≤ Line.breaks text + 1 := by
        rw [Line.breaks, List.count_cons]
        split <;> simp [Line.breaks]
      rw [size_cons]
      omega

/-- A text of one byte is one character. -/
theorem size_eq_one_iff {text : List Char} :
    size text = 1 ↔ ∃ c : Char, text = [c] ∧ c.utf8Size = 1 := by
  constructor
  · intro h
    cases text with
    | nil => cases h
    | cons c text =>
        have hpos := c.utf8Size_pos
        rw [size_cons] at h
        cases text with
        | nil => exact ⟨c, rfl, h⟩
        | cons d text =>
            have hnext := d.utf8Size_pos
            rw [size_cons] at h
            omega
  · rintro ⟨c, rfl, hc⟩
    exact hc

theorem dropBytes?_eq_some_iff {count : Nat} {text rest : List Char} :
    dropBytes? count text = some rest ↔ ∃ head, text = head ++ rest ∧ size head = count := by
  constructor
  · intro h
    induction count, text using dropBytes?.induct with
    | case1 text =>
        rw [dropBytes?] at h
        exact ⟨[], Option.some.inj h, rfl⟩
    | case2 count => cases h
    | case3 count c text hfits ih =>
        rw [dropBytes?, if_pos hfits] at h
        obtain ⟨head, htext, hsize⟩ := ih h
        refine ⟨c :: head, congrArg (c :: ·) htext, ?_⟩
        rw [size_cons, hsize]
        omega
    | case4 count c text hfits =>
        rw [dropBytes?, if_neg hfits] at h
        cases h
  · rintro ⟨head, rfl, rfl⟩
    exact dropBytes?_size head rest

theorem takeBytes?_eq_some_iff {count : Nat} {text head : List Char} :
    takeBytes? count text = some head ↔ ∃ rest, text = head ++ rest ∧ size head = count := by
  constructor
  · intro h
    induction count, text using takeBytes?.induct generalizing head with
    | case1 text =>
        rw [takeBytes?] at h
        cases h
        exact ⟨text, rfl, rfl⟩
    | case2 count => cases h
    | case3 count c text hfits ih =>
        rw [takeBytes?, if_pos hfits] at h
        obtain ⟨others, hothers, rfl⟩ := Option.map_eq_some_iff.mp h
        obtain ⟨rest, htext, hsize⟩ := ih hothers
        refine ⟨rest, congrArg (c :: ·) htext, ?_⟩
        rw [size_cons, hsize]
        omega
    | case4 count c text hfits =>
        rw [takeBytes?, if_neg hfits] at h
        cases h
  · rintro ⟨rest, rfl, rfl⟩
    exact takeBytes?_size head rest

/-- A text is divided at a byte position in one way only. -/
theorem append_inj_of_size {read read' rest rest' : List Char}
    (h : read ++ rest = read' ++ rest') (hsize : size read = size read') :
    read = read' ∧ rest = rest' := by
  have hdrop : some rest = some rest' := by
    rw [← dropBytes?_size read rest, h, hsize, dropBytes?_size]
  obtain rfl := Option.some.inj hdrop
  exact ⟨List.append_cancel_right h, rfl⟩

/-- A stretch is cut out exactly if its ends are boundaries of characters and
in order. -/
theorem slice?_eq_some_iff {start stop : Nat} {text stretch : List Char} :
    slice? start stop text = some stretch ↔ ∃ before behind,
      text = before ++ stretch ++ behind ∧ size before = start ∧
        size (before ++ stretch) = stop := by
  constructor
  · intro h
    rw [slice?] at h
    split at h
    next => cases h
    next horder =>
      obtain ⟨rest, hdrop, htake⟩ := Option.bind_eq_some_iff.mp h
      obtain ⟨before, rfl, hbefore⟩ := dropBytes?_eq_some_iff.mp hdrop
      obtain ⟨behind, rfl, hstretch⟩ := takeBytes?_eq_some_iff.mp htake
      refine ⟨before, behind, (List.append_assoc _ _ _).symm, hbefore, ?_⟩
      rw [size_append, hstretch]
      omega
  · rintro ⟨before, behind, rfl, rfl, rfl⟩
    exact slice?_size before stretch behind

end Utf8

namespace Cursor

/-- The cursor that has read one part of its source text and has the other left. -/
def between (read rest : List Char) : Cursor := ⟨read ++ rest, rest, Line.first.after read⟩

theorem start_eq_between (source : String) : start source = between [] source.toList := rfl

/-- A character that is taken was left and has been read afterwards. -/
theorem next_between_cons (read : List Char) (c : Char) (rest : List Char) :
    (between read (c :: rest)).next = (some c, between (read ++ [c]) rest) := by
  have hsource : read ++ c :: rest = read ++ [c] ++ rest := by simp
  have hline : (if c = '\n' then (Line.first.after read).plus 1 else Line.first.after read) =
      Line.first.after (read ++ [c]) := by
    rw [Line.after_append, Line.after_cons (Line.first.after read)]
    rfl
  simp only [next, between, hsource, hline]

theorem offset_between (read rest : List Char) : (between read rest).offset = Utf8.size read := by
  simp [offset, between]

end Cursor

end Lox
