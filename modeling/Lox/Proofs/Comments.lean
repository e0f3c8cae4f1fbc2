/-
# Comments are erasable

A comment has no token and no report, and it does not read its line feed. Without its
comments a text is cut into the other items it had, which are on the same lines.

Which comments there are is settled character by character, by the three modes of
the automaton, and a change of the comments is one pass of it. The erased
text is compared with the items that are not comments. An item that stood before a comment
stands before a line feed or the end of the text when the comment is gone,
which it ends at as well. Other bodies for the comments need no second argument: what
is left of two texts is the same when their comments are erased.
-/

import Lox.Proofs.Lines
import Lox.Proofs.Modes
import Lox.Proofs.Repair

namespace Lox

universe u

/-- Whether an item is a comment. -/
def Item.isComment : Item → Bool
  | comment _ => true
  | _ => false

theorem Item.comment_cases (item : Item) :
    (∃ body, item = comment body) ∨ item.isComment = false := by
  cases item with
  | comment body => exact .inl ⟨body, rfl⟩
  | _ => exact .inr rfl

/-- The items of a row that are not comments. -/
def uncommented (row : List Item) : List Item := row.filter (!Item.isComment ·)

theorem uncommented_cons {item : Item} (h : item.isComment = false) (row : List Item) :
    uncommented (item :: row) = item :: uncommented row := by
  apply List.filter_cons_of_pos
  rw [h, Bool.not_false]

namespace Mode

/-- A text with its comments changed. The first comment becomes two slashes and the first of
the bodies, or nothing if there is none; likewise for the others, in order. -/
def withComments : (ℕ → Option (List Char)) → Mode → List Char → List Char
  | _, _, [] => []
  | bodies, code, '"' :: rest => '"' :: withComments bodies string rest
  | bodies, code, '/' :: '/' :: rest =>
    ((bodies 0).elim [] fun body => '/' :: '/' :: body) ++
      withComments (fun n => bodies (n + 1)) comment rest
  | bodies, code, c :: rest => c :: withComments bodies code rest
  | bodies, comment, c :: rest =>
    if c = '\n' then c :: withComments bodies code rest else withComments bodies comment rest
  | bodies, string, c :: rest => c :: withComments bodies (if c = '"' then code else string) rest

/-- A text without its comments. -/
def erased (mode : Mode) (text : List Char) : List Char := withComments (fun _ => none) mode text

variable {dialect : Dialect} {bodies : ℕ → Option (List Char)} {c : Char} {rest : List Char}

/-! ## Steps and runs of the change -/

theorem withComments_code_cons (hquote : c ≠ '"') (hslash : c = '/' → rest.head? ≠ some '/') :
    withComments bodies code (c :: rest) = c :: withComments bodies code rest := by
  rw [withComments]
  · rintro rfl
    exact absurd rfl hquote
  · rintro left rfl rfl
    exact hslash rfl rfl

/-- Whether a change of comments keeps a character in a mode, and stays in the mode. -/
def Keeps (mode : Mode) (c : Char) : Prop :=
  ∀ bodies rest, withComments bodies mode (c :: rest) = c :: withComments bodies mode rest

theorem withComments_append {mode : Mode} {text : List Char} (h : ∀ c ∈ text, Keeps mode c) :
    withComments bodies mode (text ++ rest) = text ++ withComments bodies mode rest := by
  induction text with
  | nil => rfl
  | cons c text ih =>
      obtain ⟨hc, htext⟩ := List.forall_mem_cons.mp h
      rw [List.cons_append, hc, ih htext, List.cons_append]

theorem IsOrdinary.keeps (h : IsOrdinary c) : Keeps code c :=
  fun _ _ => withComments_code_cons h.ne_quote (absurd · h.ne_slash)

theorem keeps_string {body : List Char} (h : '"' ∉ body) : ∀ c ∈ body, Keeps string c := by
  intro c hc bodies rest
  have hstay : c ≠ '"' := by
    rintro rfl
    exact h hc
  rw [withComments, if_neg hstay]

theorem withComments_comment_append {body : List Char} (h : '\n' ∉ body) :
    withComments bodies comment (body ++ rest) = withComments bodies comment rest := by
  induction body with
  | nil => rfl
  | cons c body ih =>
      have hstay : c ≠ '\n' := by
        rintro rfl
        exact h List.mem_cons_self
      rw [List.cons_append, withComments, if_neg hstay, ih (mt (List.mem_cons_of_mem c) h)]

/-- Where a comment ends, the change goes on as if it had left it already. -/
theorem withComments_comment_eq_code (h : ∀ c ∈ rest.head?, c = '\n') :
    withComments bodies comment rest = withComments bodies code rest := by
  cases rest with
  | nil => rfl
  | cons c rest =>
      obtain rfl := h c rfl
      have hfeed : Keeps code '\n' := (isOrdinary_of_isBlank rfl).keeps
      rw [hfeed, withComments, if_pos rfl]

/-! ## What is left of a changed text -/

/-- Behind a comment, a changed text goes on with a line feed or not at all. -/
theorem head?_withComments_comment :
    ∀ c ∈ (withComments bodies comment rest).head?, c = '\n' := by
  induction rest with
  | nil => exact fun _ => nofun
  | cons c rest ih =>
      by_cases hfeed : c = '\n'
      · rw [withComments, if_pos hfeed]
        rintro d ⟨⟩
        exact hfeed
      · rw [withComments, if_neg hfeed]
        exact ih

theorem head?_withComments_code (h : rest.head? ≠ some '/') :
    (withComments bodies code rest).head? = rest.head? := by
  cases rest with
  | nil => rfl
  | cons c rest =>
      by_cases hquote : c = '"'
      · subst hquote
        rfl
      · have hslash : c ≠ '/' := by
          rintro rfl
          exact h rfl
        rw [withComments_code_cons hquote (absurd · hslash)]
        rfl

/-- When the comments are erased, nothing is left of a change of them. -/
theorem erased_withComments (hbodies : ∀ n, ∀ body ∈ bodies n, '\n' ∉ body) (mode : Mode)
    (text : List Char) : erased mode (withComments bodies mode text) = erased mode text := by
  fun_induction withComments bodies mode text with
  | case1 => rfl
  | case2 bodies rest ih => exact congrArg ('"' :: ·) (ih hbodies)
  | case3 bodies rest ih =>
      have hrest := ih fun n => hbodies (n + 1)
      cases hfirst : bodies 0 with
      | none =>
          -- With the comment gone, what comes behind it is read in code and not in a comment.
          have hleft : erased code (withComments (fun n => bodies (n + 1)) comment rest) =
              erased comment (withComments (fun n => bodies (n + 1)) comment rest) :=
            (withComments_comment_eq_code head?_withComments_comment).symm
          exact hleft.trans hrest
      | some body =>
          have hbody := hbodies 0 body hfirst
          exact (withComments_comment_append hbody).trans hrest
  | case4 bodies c rest hquote hslashes ih =>
      have hslash : c = '/' → rest.head? ≠ some '/' := by
        rintro rfl hsecond
        obtain ⟨left, rfl⟩ := List.head?_eq_some_iff.mp hsecond
        exact hslashes left rfl rfl
      -- The change must not put a slash behind a single one.
      have hnext : c = '/' → (withComments bodies code rest).head? ≠ some '/' := by
        intro hc
        rw [head?_withComments_code (hslash hc)]
        exact hslash hc
      rw [erased, erased, withComments_code_cons hquote hnext, withComments_code_cons hquote hslash]
      exact congrArg (c :: ·) (ih hbodies)
  | case5 bodies rest ih => exact congrArg ('\n' :: ·) (ih hbodies)
  | case6 bodies c rest hfeed ih =>
      rw [ih hbodies, erased, erased, withComments, if_neg hfeed]
  | case7 bodies c rest ih =>
      rw [erased, erased, withComments, withComments]
      exact congrArg (c :: ·) (ih hbodies)

/-! ## Items that are read -/

/-- Quotes and slashes are in strings, in comments and in the symbol that is a slash. -/
theorem ordinary_cases {item : Item} (h : item.WellFormed dialect) :
    (∀ c ∈ item.chars, IsOrdinary c) ∨ item = .symbol .slash ∨
      ∃ body, item = .comment body ∨ item = .string body ∨ item = .unterminated body := by
  cases item with
  | blank c =>
      left
      intro d hd
      obtain rfl := List.mem_singleton.mp hd
      exact isOrdinary_of_isBlank h
  | comment body => exact .inr (.inr ⟨body, .inl rfl⟩)
  | symbol which =>
      by_cases hwhich : which = .slash
      · exact .inr (.inl (congrArg _ hwhich))
      · exact .inl fun _ => isOrdinary_of_mem_chars hwhich
  | string body => exact .inr (.inr ⟨body, .inr (.inl rfl)⟩)
  | number whole fraction =>
      obtain ⟨-, hwhole, hfraction⟩ := h
      exact .inl fun _ => isOrdinary_of_mem_written hwhole hfraction
  | word letters =>
      cases letters with
      | nil => exact h.elim
      | cons c letters =>
          obtain ⟨hfirst, hothers⟩ := h
          have hword : ∀ d ∈ c :: letters, continuesWord d = true :=
            List.forall_mem_cons.mpr ⟨continuesWord_of_startsWord hfirst, hothers⟩
          exact .inl fun d hd => isOrdinary_of_continuesWord (hword d hd)
  | unterminated body => exact .inr (.inr ⟨body, .inr (.inr rfl)⟩)
  | illegal c =>
      obtain ⟨hmark, hnone⟩ := h
      left
      intro d hd
      obtain rfl := List.mem_singleton.mp hd
      refine ⟨hmark.ne_quote, ?_⟩
      rintro rfl
      cases hnone

/-- The change keeps an item of any other class and is in code again where it ends. -/
theorem withComments_chars_append {item : Item} (h : item.StandsBefore dialect rest)
    (hother : item.isComment = false) :
    withComments bodies code (item.chars ++ rest) =
      item.chars ++ withComments bodies code rest := by
  obtain ⟨hwf, hend⟩ := h
  rcases ordinary_cases hwf with hordinary | rfl | ⟨body, rfl | rfl | rfl⟩
  · exact withComments_append fun c hc => (hordinary c hc).keeps
  · have hsecond : rest.head? ≠ some '/' := by
      intro hhead
      exact hend '/' hhead (.inr ⟨rfl, rfl⟩)
    exact withComments_code_cons (by decide) fun _ => hsecond
  · cases hother
  · have hchars (tail : List Char) :
        (Item.string body).chars ++ tail = '"' :: (body ++ '"' :: tail) := by
      simp [Item.chars]
    have hread : withComments bodies string (body ++ '"' :: rest) =
        body ++ '"' :: withComments bodies code rest := by
      rw [withComments_append (keeps_string hwf), withComments, if_pos rfl]
    rw [hchars, hchars, ← hread]
    rfl
  · obtain rfl : rest = [] := hend
    have hread : withComments bodies string (body ++ []) = body ++ [] :=
      withComments_append (keeps_string hwf)
    exact congrArg ('"' :: ·) hread

theorem erased_comment_append {body : List Char}
    (h : (Item.comment body).StandsBefore dialect rest) :
    erased code ((Item.comment body).chars ++ rest) = erased code rest :=
  (withComments_comment_append h.wellFormed).trans (withComments_comment_eq_code h.endsBefore)

/-- The erased text of a row is that of its items that are not comments. -/
theorem erased_flatMap_chars {row : List Item} (h : IsCut dialect row) :
    erased code (row.flatMap Item.chars) = (uncommented row).flatMap Item.chars := by
  induction row with
  | nil => rfl
  | cons item row ih =>
      obtain ⟨hstands, hrow⟩ := h
      rw [List.flatMap_cons]
      rcases item.comment_cases with ⟨body, rfl⟩ | hother
      · exact (erased_comment_append hstands).trans (ih hrow)
      · rw [erased, withComments_chars_append hstands hother, uncommented_cons hother,
          List.flatMap_cons, ← ih hrow]
        rfl

end Mode

/-! ## Rows without comments -/

section Rows

variable {dialect : Dialect} {row : List Item}

/-- Behind any item of a text, the erased text is alike up to a blank. -/
theorem alikeUpToBlank_uncommented (h : IsCut dialect row) :
    Item.AlikeUpToBlank (row.flatMap Item.chars) ((uncommented row).flatMap Item.chars) := by
  induction row with
  | nil => exact .done
  | cons item row ih =>
      obtain ⟨hstands, hrow⟩ := h
      rw [List.flatMap_cons]
      rcases item.comment_cases with ⟨body, rfl⟩ | hother
      · apply Item.AlikeUpToBlank.blank (by decide)
        intro d hd
        rcases (ih hrow).head d hd with hblank | hold
        · exact hblank
        · rw [hstands.endsBefore d hold]
          rfl
      · rw [uncommented_cons hother, List.flatMap_cons]
        exact (ih hrow).append_left item.chars

theorem isCut_uncommented (h : IsCut dialect row) : IsCut dialect (uncommented row) := by
  induction row with
  | nil => trivial
  | cons item row ih =>
      obtain ⟨hstands, hrow⟩ := h
      rcases item.comment_cases with ⟨body, rfl⟩ | hother
      · exact ih hrow
      · rw [uncommented_cons hother]
        have hends := hstands.endsBefore.of_alikeUpToBlank (alikeUpToBlank_uncommented hrow)
        exact ⟨⟨hstands.wellFormed, hends⟩, ih hrow⟩

/-- A comment does not end a line. -/
theorem after_chars_comment {body : List Char} (h : (Item.comment body).WellFormed dialect)
    (line : Line) : line.after (Item.comment body).chars = line := by
  have hfeed : '\n' ∉ (Item.comment body).chars := by
    simp only [Item.chars, List.mem_cons, not_or]
    exact ⟨by decide, by decide, h⟩
  rw [Line.after, Line.breaks, List.count_eq_zero.mpr hfeed]
  rfl

theorem after_flatMap_chars_uncommented (h : ∀ item ∈ row, item.WellFormed dialect) (line : Line) :
    line.after ((uncommented row).flatMap Item.chars) = line.after (row.flatMap Item.chars) := by
  induction row generalizing line with
  | nil => rfl
  | cons item row ih =>
      obtain ⟨hitem, hrow⟩ := List.forall_mem_cons.mp h
      rw [List.flatMap_cons, Line.after_append]
      rcases item.comment_cases with ⟨body, rfl⟩ | hother
      · rw [after_chars_comment hitem]
        exact ih hrow line
      · rw [uncommented_cons hother, List.flatMap_cons, Line.after_append, ih hrow]

/-- What comments do not yield is yielded without them. -/
theorem along_uncommented {α : Type u} {yield? : Line → Item → Option α}
    (hnone : ∀ line body, yield? line (.comment body) = none)
    (h : ∀ item ∈ row, item.WellFormed dialect) (line : Line) :
    along yield? line (uncommented row) = along yield? line row := by
  induction row generalizing line with
  | nil => rfl
  | cons item row ih =>
      obtain ⟨hitem, hrow⟩ := List.forall_mem_cons.mp h
      rw [along]
      rcases item.comment_cases with ⟨body, rfl⟩ | hother
      · rw [hnone, after_chars_comment hitem]
        exact ih hrow line
      · rw [uncommented_cons hother, along, ih hrow]

end Rows

/-- A source text with its comments changed, each to two slashes and the next of the bodies,
or to nothing. -/
def withComments (bodies : ℕ → Option (List Char)) (source : String) : String :=
  String.ofList (Mode.withComments bodies .code source.toList)

/-- A source text without its comments. -/
def withoutComments (source : String) : String := withComments (fun _ => none) source

/-- A source text with nothing behind the two slashes of its comments. -/
def withEmptyComments (source : String) : String := withComments (fun _ => some []) source

theorem items_withoutComments (dialect : Dialect) (source : String) :
    items dialect (withoutComments source).toList = uncommented (items dialect source.toList) := by
  have hcut := isCut_items dialect source.toList
  apply items_eq_iff.mpr
  refine ⟨?_, isCut_uncommented hcut⟩
  rw [← Mode.erased_flatMap_chars hcut, flatMap_chars_items, withoutComments, withComments,
    String.toList_ofList]
  rfl

/-- A text without its comments is scanned as the text with them. -/
theorem scan_withoutComments (dialect : Dialect) (source : String) :
    scan dialect (withoutComments source) = scan dialect source := by
  have hwf := (isCut_items dialect source.toList).wellFormed
  have htokens : tokens dialect (withoutComments source) = tokens dialect source := by
    rw [tokens, tokens, items_withoutComments, tokensFrom_eq_along, tokensFrom_eq_along,
      along_uncommented (fun _ _ => rfl) hwf, after_flatMap_chars_uncommented hwf]
  have hreports : diagnostics dialect (withoutComments source) = diagnostics dialect source := by
    rw [diagnostics, diagnostics, items_withoutComments, diagnosticsFrom_eq_along,
      diagnosticsFrom_eq_along, along_uncommented (fun _ _ => rfl) hwf]
  rw [scan_eq, scan_eq, htokens, hreports]

theorem withoutComments_withComments {bodies : ℕ → Option (List Char)}
    (h : ∀ n, ∀ body ∈ bodies n, '\n' ∉ body) (source : String) :
    withoutComments (withComments bodies source) = withoutComments source := by
  have herased := Mode.erased_withComments h .code source.toList
  rw [withoutComments, withComments, withComments, String.toList_ofList]
  exact congrArg String.ofList herased

/-- A change of the comments is not seen by a scan, which sees what is left without them. -/
theorem scan_withComments {bodies : ℕ → Option (List Char)}
    (h : ∀ n, ∀ body ∈ bodies n, '\n' ∉ body) (dialect : Dialect) (source : String) :
    scan dialect (withComments bodies source) = scan dialect source := by
  rw [← scan_withoutComments, withoutComments_withComments h, scan_withoutComments]

/-- **Comments are erasable.** A text without its comments is cut into the items that are left, and
is scanned to the same tokens with the same reports. So is a text in which each of the
comments is erased or has another body that does not end the line. Two texts that differ only
behind the slashes of their comments are scanned alike. -/
theorem scan_comments (dialect : Dialect) (source : String) :
    items dialect (withoutComments source).toList = uncommented (items dialect source.toList) ∧
      scan dialect (withoutComments source) = scan dialect source ∧
      (∀ bodies : ℕ → Option (List Char), (∀ n, ∀ body ∈ bodies n, '\n' ∉ body) →
        scan dialect (withComments bodies source) = scan dialect source) ∧
      ∀ other : String, withEmptyComments other = withEmptyComments source →
        scan dialect other = scan dialect source := by
  have hempty : ∀ _ : ℕ, ∀ body ∈ some [], '\n' ∉ body := by
    rintro - body ⟨⟩
    exact nofun
  refine ⟨items_withoutComments dialect source, scan_withoutComments dialect source,
    fun _ h => scan_withComments h dialect source, ?_⟩
  intro other hother
  calc scan dialect other
      = scan dialect (withEmptyComments other) := (scan_withComments hempty dialect other).symm
    _ = scan dialect (withEmptyComments source) := by rw [hother]
    _ = scan dialect source := scan_withComments hempty dialect source

/-- Quotes and slashes in the body of a comment change nothing. -/
theorem scan_comments_quote :
    (∀ _ : ℕ, ∀ body ∈ some ['"', '/', '/'], '\n' ∉ body) ∧
      withComments (fun _ => some ['"', '/', '/']) "4 / 2. // half\n5" = "4 / 2. //\"//\n5" ∧
      withEmptyComments "4 / 2. //\"//\n5" = withEmptyComments "4 / 2. // half\n5" ∧
      withoutComments "4 / 2. // half\n5" = "4 / 2. \n5" ∧
      scan ⟨false⟩ (withoutComments "4 / 2. // half\n5") = scan ⟨false⟩ "4 / 2. // half\n5" ∧
      scan ⟨false⟩ (withComments (fun _ => some ['"', '/', '/']) "4 / 2. // half\n5") =
        scan ⟨false⟩ "4 / 2. // half\n5" ∧
      scan ⟨false⟩ "4 / 2. //\"//\n5" = scan ⟨false⟩ "4 / 2. // half\n5" := by
  have hbody : ∀ _ : ℕ, ∀ body ∈ some ['"', '/', '/'], '\n' ∉ body := by
    rintro - body ⟨⟩
    decide
  have halike : withEmptyComments "4 / 2. //\"//\n5" = withEmptyComments "4 / 2. // half\n5" := by
    decide
  obtain ⟨-, herased, hchanged, hothers⟩ := scan_comments ⟨false⟩ "4 / 2. // half\n5"
  exact ⟨hbody, by decide, halike, by decide, herased, hchanged _ hbody, hothers _ halike⟩

end Lox
