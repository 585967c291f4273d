import Excision.Proofs.Balance
import Excision.Proofs.Blanks
import Excision.Proofs.Opener
import Excision.Search
import Mathlib.Data.List.Induction

/-!
# Outlines of documents

An outline is a list of items: code lines, blank lines, line comments, and methods with their doc
comments. An item is not told apart from its neighbours by its place, only by what its lines look
like, so outlines are an unbounded grammar of documents. `Outline.linesOf` writes the lines of an
outline.

However the items are arranged, the walk above a declaration stops at the item before the method.
Among the lines of other items no opener is reachable for either strategy
(`Outline.not_reaches_linesOf`), because every item that holds one ends with a code line below it.
The doc comment of the method itself has exactly one reachable opener, its first line
(`Outline.opener?_above`). With the balance of the braces this gives the extent of a method at its
place in an outline (`Outline.start_eq`, `Outline.bodyEnd_eq`).
-/

set_option autoImplicit false

namespace Excision

namespace Outline

open Lookback

/-! ## Lines -/

/-- Whether a line holds code: it is not blank, and it starts neither with an asterisk nor like a
comment nor with an annotation mark. -/
def isCodeLine (line : String) : Bool :=
  let text := Text.trim line.toList
  !Text.isBlankText line && !startsWithStar text && !isLineComment text && !isOpener text
    && ! isAnnotation text

/-- Whether a line is a line comment. -/
def isCommentLine (line : String) : Bool := isLineComment (Text.trim line.toList)

/-- Whether a line goes on with a doc comment: it starts with an asterisk, and if it starts with
the end of the comment it holds nothing else. -/
def continuesDoc (line : String) : Bool :=
  let text := Text.trim line.toList
  startsWithStar text && (!startsWithCloser text || text == ['*', '/'])

/-- Whether some lines are a doc comment, or no lines at all. -/
def isDoc : List String → Bool
  | [] => true
  | line :: rest => isOpener (Text.trim line.toList) && rest.all continuesDoc

/-! ## Items -/

/-- A method with at most `depth` lines of doc comment, whose braces balance on its last line. -/
structure Method (depth : Nat) where
  doc : List String
  declaration : String
  body : List String
  doc_shape : isDoc doc = true
  doc_short : doc.length ≤ depth
  /-- The braces from the declaration on balance by the end of the last line. -/
  closes : Balances (characters (declaration :: body))
  /-- They do not balance by the end of the line before it. -/
  closes_last : ¬ Balances (characters (declaration :: body).dropLast)
  last_code : isCodeLine ((declaration :: body).getLast (List.cons_ne_nil _ _)) = true

/-- What a document is made of. -/
inductive Item (depth : Nat) where
  | code (line : String) (shape : isCodeLine line = true)
  | blank (line : String) (shape : Text.isBlankText line = true)
  | comment (line : String) (shape : isCommentLine line = true)
  | method (m : Method depth)

variable {depth : Nat}

/-- The lines of a method. -/
def Method.lines (m : Method depth) : List String := m.doc ++ m.declaration :: m.body

/-- The extent of a method that starts at a line. -/
def Method.extent (m : Method depth) (first : Nat) : Extent :=
  ⟨first, first + m.doc.length, first + m.doc.length + m.body.length⟩

/-- The lines of an item. -/
def Item.lines : Item depth → List String
  | .code line _ | .blank line _ | .comment line _ => [line]
  | .method m => m.lines

/-- The lines of an outline. -/
def linesOf (items : List (Item depth)) : List String := items.flatMap Item.lines

@[simp]
theorem linesOf_nil : linesOf ([] : List (Item depth)) = [] := rfl

@[simp]
theorem linesOf_cons (item : Item depth) (items : List (Item depth)) :
    linesOf (item :: items) = item.lines ++ linesOf items := rfl

@[simp]
theorem linesOf_append (items more : List (Item depth)) :
    linesOf (items ++ more) = linesOf items ++ linesOf more :=
  List.flatMap_append

theorem Method.length_lines (m : Method depth) :
    m.lines.length = m.doc.length + (m.body.length + 1) := by
  rw [lines, List.length_append, List.length_cons]

/-- Every item has a first line. -/
theorem Item.exists_lines_eq_cons (item : Item depth) : ∃ line more, item.lines = line :: more := by
  cases item with
  | code line _ => exact ⟨line, [], rfl⟩
  | blank line _ => exact ⟨line, [], rfl⟩
  | comment line _ => exact ⟨line, [], rfl⟩
  | method m => exact List.exists_cons_of_ne_nil (List.append_ne_nil_of_right_ne_nil _ (by simp))

/-! ## Where the walks stop -/

/-- Some lines trimmed, the last one first. -/
def upward (lines : List String) : List (List Char) :=
  lines.reverse.map fun line => Text.trim line.toList

theorem upward_append (lines more : List String) :
    upward (lines ++ more) = upward more ++ upward lines := by
  simp [upward]

theorem upward_append_singleton (lines : List String) (line : String) :
    upward (lines ++ [line]) = Text.trim line.toList :: upward lines := by
  rw [upward_append]
  rfl

/-- A code line opens no doc comment, and no strategy steps over it. -/
theorem not_reaches_code {line : String} (h : isCodeLine line = true) (strategy : Lookback)
    (above : List (List Char)) (k : Nat) :
    ¬ Reaches (isTransparent strategy) (Text.trim line.toList :: above) k := by
  have hne : Text.trim line.toList ≠ [] := by
    intro hnil
    have hblank : Text.isBlankText line = true := (Text.trim_eq_nil_iff _).1 hnil
    simp [isCodeLine, hblank] at h
  simp only [isCodeLine, Bool.and_eq_true, Bool.not_eq_true'] at h
  obtain ⟨⟨⟨⟨-, hstar⟩, hcomment⟩, hopener⟩, hmark⟩ := h
  cases k with
  | zero => simp [hopener]
  | succ k =>
      -- a closer that stands alone would start with an asterisk
      have hcloser : Text.trim line.toList ≠ ['*', '/'] := by
        intro heq
        rw [heq] at hstar
        exact Bool.noConfusion hstar
      rw [reaches_cons_succ_iff]
      rintro ⟨hclear, -⟩
      cases strategy <;>
        simp [isTransparent, isDocLine, hne, hstar, hcomment, hopener, hmark, hcloser] at hclear

/-- A line that opens no doc comment hides none. -/
theorem not_reaches_cons {text : List Char} {above : List (List Char)} {strategy : Lookback}
    (hopener : isOpener text = false)
    (h : ∀ k, ¬ Reaches (isTransparent strategy) above k) (k : Nat) :
    ¬ Reaches (isTransparent strategy) (text :: above) k := by
  cases k with
  | zero => simp [hopener]
  | succ k =>
      rw [reaches_cons_succ_iff]
      exact fun hreach => h k hreach.2

theorem not_isOpener_of_isLineComment {text : List Char} (h : isLineComment text = true) :
    isOpener text = false := by
  unfold isLineComment at h
  split at h
  · rfl
  · exact Bool.noConfusion h

theorem not_isOpener_of_startsWithStar {text : List Char} (h : startsWithStar text = true) :
    isOpener text = false := by
  unfold startsWithStar at h
  split at h
  · rfl
  · exact Bool.noConfusion h

/-- No opener is reachable from below an outline. -/
theorem not_reaches_linesOf (strategy : Lookback) (items : List (Item depth)) (k : Nat) :
    ¬ Reaches (isTransparent strategy) (upward (linesOf items)) k := by
  -- the walk meets the last item first
  induction items using List.reverseRecOn generalizing k with
  | nil => exact not_reaches_nil k
  | append_singleton items item ih =>
      rw [linesOf_append, linesOf_cons, linesOf_nil, List.append_nil]
      cases item with
      | code line shape =>
          rw [Item.lines, upward_append_singleton]
          exact not_reaches_code shape strategy _ k
      | blank line shape =>
          have hnil : Text.trim line.toList = [] := (Text.trim_eq_nil_iff _).2 shape
          rw [Item.lines, upward_append_singleton, hnil]
          exact not_reaches_cons rfl ih k
      | comment line shape =>
          rw [Item.lines, upward_append_singleton]
          exact not_reaches_cons (not_isOpener_of_isLineComment shape) ih k
      | method m =>
          -- whatever the doc comment holds, the last line of the method hides it
          have hne : m.declaration :: m.body ≠ [] := List.cons_ne_nil _ _
          rw [Item.lines, Method.lines, ← List.dropLast_concat_getLast hne, ← List.append_assoc,
            ← List.append_assoc, upward_append_singleton]
          exact not_reaches_code m.last_code strategy _ k

/-- Either strategy steps over a line that goes on with a doc comment. -/
theorem isTransparent_of_continuesDoc {line : String} (h : continuesDoc line = true)
    (strategy : Lookback) : isTransparent strategy (Text.trim line.toList) = true := by
  simp only [continuesDoc, Bool.and_eq_true, Bool.or_eq_true] at h
  obtain ⟨hstar, hcloser | hcloser⟩ := h
  · cases strategy <;> simp_all [isTransparent, isDocLine]
  · cases strategy <;> simp_all [isTransparent, isDocLine]

/-- Above a declaration the walk settles on the first line of its doc comment, if it has one. -/
theorem opener?_above (strategy : Lookback) (items : List (Item depth)) (m : Method depth) :
    strategy.opener? ((upward (linesOf items ++ m.doc)).take depth) =
      if m.doc = [] then none else some (m.doc.length - 1) := by
  have hshape := m.doc_shape
  have hshort := m.doc_short
  cases hdoc : m.doc with
  | nil =>
      rw [List.append_nil, if_pos rfl, opener?_eq_none_iff]
      exact fun k hk => not_reaches_linesOf strategy items k hk.of_take
  | cons opener rest =>
      rw [hdoc, isDoc, Bool.and_eq_true] at hshape
      obtain ⟨hopener, hrest⟩ := hshape
      rw [List.all_eq_true] at hrest
      rw [hdoc, List.length_cons] at hshort
      have hlines : upward (linesOf items ++ opener :: rest) =
          upward rest ++ Text.trim opener.toList :: upward (linesOf items) := by
        rw [← List.singleton_append, ← List.append_assoc, upward_append, upward_append_singleton]
      have hlength : rest.length = (upward rest).length := by simp [upward]
      have hclear : ∀ text ∈ upward rest, isTransparent strategy text = true := by
        intro text htext
        obtain ⟨line, hline, rfl⟩ := List.mem_map.1 htext
        exact isTransparent_of_continuesDoc (hrest line (List.mem_reverse.1 hline)) strategy
      -- the opener is reachable over the further lines, and no other position is
      rw [if_neg (List.cons_ne_nil _ _), List.length_cons, Nat.add_sub_cancel, hlines]
      refine opener?_of_reaches_only (Reaches.take (by omega) ?_) fun j hj => ?_
      · rw [hlength, ← Nat.add_zero (upward rest).length, reaches_append_iff]
        exact ⟨hclear, (reaches_cons_zero_iff _ _).2 hopener⟩
      · -- an opener among the further lines would start with an asterisk
        have hreach := hj.of_take
        have hge : (upward rest).length ≤ j := by
          refine Nat.le_of_not_lt fun hlt => ?_
          obtain ⟨hfound, -⟩ := hreach
          rw [List.getElem?_append_left hlt, List.getElem?_eq_getElem hlt] at hfound
          obtain ⟨line, hline, htext⟩ := List.mem_map.1 (List.getElem_mem hlt)
          have hcontinues := hrest line (List.mem_reverse.1 hline)
          rw [continuesDoc, Bool.and_eq_true] at hcontinues
          rw [← htext, Option.any_some, not_isOpener_of_startsWithStar hcontinues.1] at hfound
          exact Bool.noConfusion hfound
        obtain ⟨i, rfl⟩ := Nat.exists_eq_add_of_le hge
        rw [reaches_append_iff] at hreach
        cases i with
        | zero => exact hlength.symm
        | succ i =>
            rw [reaches_cons_succ_iff] at hreach
            exact absurd hreach.2.2 (not_reaches_linesOf strategy items i)

/-! ## The extent of a method at its place -/

theorem linesAbove_eq (lines : List String) (declaration depth : Nat) :
    linesAbove lines declaration depth = (upward (lines.take declaration)).take depth := by
  rw [linesAbove, upward, List.map_take]

/-- A method starts where its item does. -/
theorem start_eq (strategy : Lookback) (items : List (Item depth)) (m : Method depth)
    (rest : List String) :
    strategy.start depth (linesOf items ++ m.lines ++ rest)
        ((linesOf items).length + m.doc.length) = (linesOf items).length := by
  have htake : (linesOf items ++ m.lines ++ rest).take ((linesOf items).length + m.doc.length) =
      linesOf items ++ m.doc := by
    rw [Method.lines, ← List.append_assoc, List.append_assoc, ← List.length_append]
    exact List.take_left
  rw [start, linesAbove_eq, htake, opener?_above]
  cases hdoc : m.doc with
  | nil => rfl
  | cons opener rest =>
      rw [if_neg (List.cons_ne_nil _ _)]
      simp only [List.length_cons]
      omega

/-- A method ends where its item does. -/
theorem bodyEnd_eq (items : List (Item depth)) (m : Method depth) (rest : List String) :
    bodyEnd (linesOf items ++ m.lines ++ rest) ((linesOf items).length + m.doc.length) =
      some ((linesOf items).length + m.doc.length + m.body.length) := by
  have hdrop : (linesOf items ++ m.lines ++ rest).drop ((linesOf items).length + m.doc.length) =
      m.declaration :: m.body ++ rest := by
    rw [Method.lines, ← List.append_assoc, List.append_assoc, ← List.length_append]
    exact List.drop_left
  rw [bodyEnd_eq_some_iff, hdrop, Nat.add_sub_cancel_left]
  refine ⟨Nat.le_add_right _ _, ?_, ?_⟩
  · have hopen := m.closes_last
    rw [List.dropLast_eq_take, List.length_cons, Nat.add_sub_cancel] at hopen
    rwa [List.take_append_of_le_length (by simp)]
  · have hcloses := m.closes
    rwa [← List.length_cons (a := m.declaration), List.take_left]

end Outline

end Excision
