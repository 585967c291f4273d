import Excision.Proofs.Lines
import Excision.Proofs.Removal
import Mathlib.Tactic.MkIffOfInductiveProp

/-!
# Documents read back from their lines

What the lines of a text look like is said here line by line (`Source.IsLined`): none of them is
empty, a newline stands at the end of a line only, and every line but the last one has it. This is
the shape in which cutting leaves the pieces of a text (`Source.cut_iff_isLined`), so it is at the
same time the shape of the lists of lines that are read back from their concatenation
(`Source.isLined_iff_ofText_join`).

An unterminated line has this shape only where nothing follows it. A plan that removes other lines
leaves it the last one, and a plan that removes it leaves terminated lines, so what is retained of a
text has the shape again. Together this makes reading a text and joining lines inverse to each
other, before a plan and after it (`Source.ofText_exact`).
-/

set_option autoImplicit false

namespace Excision.Source

/-- Whether lines look like those of a text. -/
@[mk_iff]
structure IsLined (lines : List String) : Prop where
  ne_empty : ∀ line ∈ lines, line ≠ ""
  /-- A newline stands nowhere but at the end of a line. -/
  newline_last : ∀ line ∈ lines, '\n' ∉ line.toList.dropLast
  /-- Every line but the last one ends with a newline. -/
  terminated : ∀ line ∈ lines.dropLast, line.toList.getLast? = some '\n'

instance (lines : List String) : Decidable (IsLined lines) :=
  decidable_of_iff _ (isLined_iff lines).symm

/-! ## One line and the others -/

section Terminator

variable {line : List Char}

/-- A line ends with its only newline exactly if it is a body without newlines and a newline. -/
theorem terminated_iff_exists_body :
    line.getLast? = some '\n' ∧ '\n' ∉ line.dropLast ↔
      ∃ body : List Char, line = body ++ ['\n'] ∧ '\n' ∉ body := by
  constructor
  · rintro ⟨hend, hbody⟩
    obtain ⟨body, rfl⟩ := List.getLast?_eq_some_iff.1 hend
    rw [List.dropLast_concat] at hbody
    exact ⟨body, rfl, hbody⟩
  · rintro ⟨body, rfl, hbody⟩
    rw [List.getLast?_concat, List.dropLast_concat]
    exact ⟨rfl, hbody⟩

/-- A line with a newline at its end at most either ends with its only newline or has none. -/
theorem notMem_dropLast_iff :
    '\n' ∉ line.dropLast ↔
      (∃ body : List Char, line = body ++ ['\n'] ∧ '\n' ∉ body) ∨ '\n' ∉ line := by
  rw [← terminated_iff_exists_body]
  constructor
  · intro hbody
    rcases List.eq_nil_or_concat line with rfl | ⟨body, c, hline⟩
    · exact Or.inr hbody
    · rw [List.concat_eq_append] at hline
      subst hline
      rw [List.dropLast_concat] at hbody
      by_cases hc : c = '\n'
      · subst hc
        rw [List.getLast?_concat, List.dropLast_concat]
        exact Or.inl ⟨rfl, hbody⟩
      · right
        rw [List.mem_append, List.mem_singleton]
        rintro (hmem | hmem)
        · exact hbody hmem
        · exact hc hmem.symm
  · rintro (⟨-, hbody⟩ | hline)
    · exact hbody
    · intro hmem
      exact hline (List.dropLast_subset line hmem)

end Terminator

/-- A line that stands alone may lack its terminator. -/
theorem isLined_singleton_iff (line : String) :
    IsLined [line] ↔ line ≠ "" ∧ '\n' ∉ line.toList.dropLast := by
  simp [isLined_iff]

/-- A line that others follow has its terminator. -/
theorem isLined_cons_iff (line : String) {lines : List String} (hlines : lines ≠ []) :
    IsLined (line :: lines) ↔
      (∃ body : List Char, line.toList = body ++ ['\n'] ∧ '\n' ∉ body) ∧ IsLined lines := by
  have hne : line.toList.getLast? = some '\n' → line ≠ "" := by
    rintro hend rfl
    simp at hend
  rw [isLined_iff, isLined_iff, List.dropLast_cons_of_ne_nil hlines, ← terminated_iff_exists_body]
  simp only [List.forall_mem_cons]
  constructor
  · rintro ⟨⟨-, hnonempty⟩, ⟨hbody, hlast⟩, hend, hends⟩
    exact ⟨⟨hend, hbody⟩, hnonempty, hlast, hends⟩
  · rintro ⟨⟨hend, hbody⟩, hnonempty, hlast, hends⟩
    exact ⟨⟨hne hend, hnonempty⟩, ⟨hbody, hlast⟩, hend, hends⟩

/-! ## The shape of cut pieces -/

/-- Cut pieces are lines that look like those of a text. -/
theorem isLined_of_cut {pieces : List (List Char)} (h : Text.Cut pieces) :
    IsLined (pieces.map String.ofList) := by
  induction h with
  | nil => exact ⟨by simp, by simp, by simp⟩
  | @last line hne hline =>
      apply (isLined_singleton_iff _).2
      rw [String.toList_ofList]
      exact ⟨by simpa using hne, notMem_dropLast_iff.2 (Or.inr hline)⟩
  | @cons body pieces hbody _ ih =>
      have hterminated : ∃ body' : List Char,
          (String.ofList (body ++ ['\n'])).toList = body' ++ ['\n'] ∧ '\n' ∉ body' :=
        ⟨body, String.toList_ofList, hbody⟩
      -- the last of the pieces is not bound to end with a newline, though it may
      by_cases hpieces : pieces = []
      · subst hpieces
        apply (isLined_singleton_iff _).2
        exact ⟨by simp, notMem_dropLast_iff.2 (Or.inl hterminated)⟩
      · apply (isLined_cons_iff _ (by simpa using hpieces)).2
        exact ⟨hterminated, ih⟩

/-- Lines that look like those of a text are cut pieces. -/
theorem IsLined.cut {lines : List String} (h : IsLined lines) :
    Text.Cut (lines.map String.toList) := by
  induction lines with
  | nil => exact Text.Cut.nil
  | cons line lines ih =>
      by_cases hlines : lines = []
      · subst hlines
        obtain ⟨hne, hlast⟩ := (isLined_singleton_iff line).1 h
        rcases notMem_dropLast_iff.1 hlast with ⟨body, hline, hbody⟩ | hline
        · rw [List.map_cons, hline]
          exact Text.Cut.cons hbody Text.Cut.nil
        · exact Text.Cut.last (by simpa using hne) hline
      · obtain ⟨⟨body, hline, hbody⟩, hrest⟩ := (isLined_cons_iff line hlines).1 h
        rw [List.map_cons, hline]
        exact Text.Cut.cons hbody (ih hrest)

theorem cut_iff_isLined (lines : List String) :
    Text.Cut (lines.map String.toList) ↔ IsLined lines := by
  constructor
  · intro h
    have hlines := isLined_of_cut h
    rwa [List.map_map, String.ofList_comp_toList, List.map_id] at hlines
  · exact IsLined.cut

/-! ## Reading and writing -/

theorem isLined_lines_ofText (text : String) : IsLined (ofText text).lines :=
  (cut_iff_isLined _).1 (cut_lines_ofText text)

/-- Lines look like those of a text exactly if they are read back from their concatenation. -/
theorem isLined_iff_ofText_join (lines : List String) :
    IsLined lines ↔ ofText (String.join lines) = ⟨lines⟩ := by
  constructor
  · intro h
    exact ofText_join_of_cut h.cut
  · intro h
    have hlines := isLined_lines_ofText (String.join lines)
    rwa [h] at hlines

/-- **Texts are cut into lines without loss, and in one way only.** The lines of a text are the text
again when they are joined, and they look like the lines of a text. Lines look like that exactly if
they are read back from their concatenation. So whatever a plan removes of a text, the unterminated
last line or others, the lines that it retains are read back from theirs. -/
theorem ofText_exact (text : String) (lines : List String) (plan : Plan) :
    (ofText text).text = text ∧
      IsLined (ofText text).lines ∧
      (IsLined lines ↔ ofText (String.join lines) = ⟨lines⟩) ∧
      IsLined (plan.retained (ofText text)) ∧
      ofText (String.join (plan.retained (ofText text))) = ⟨plan.retained (ofText text)⟩ := by
  have hretained : ofText (String.join (plan.retained (ofText text))) =
      ⟨plan.retained (ofText text)⟩ :=
    ofText_join_of_sublist (plan.retained_sublist (ofText text))
  refine ⟨text_ofText text, isLined_lines_ofText text, isLined_iff_ofText_join lines, ?_,
    hretained⟩
  exact (isLined_iff_ofText_join _).2 hretained

/-- The unterminated last line may stay without the line above it, and it may go. In front of
another line it is no line of a text, since the two are read as one. -/
example :
    let source := ofText "a\nb"
    let above : Plan := ⟨2, [.found "a" ⟨0, 0, 0⟩ none]⟩
    let last : Plan := ⟨2, [.found "b" ⟨1, 1, 1⟩ none]⟩
    ofText (String.join (above.retained source)) = ⟨["b"]⟩ ∧
      ofText (String.join (last.retained source)) = ⟨["a\n"]⟩ ∧
      ¬ IsLined ["b", "a\n"] ∧ ofText (String.join ["b", "a\n"]) = ⟨["ba\n"]⟩ := by
  decide +kernel

end Excision.Source
