import Excision.Source

/-!
# The lines of a text

Cutting a text after its newlines leaves pieces of one shape: every piece holds its only newline
as its last character, except that the last piece may have none and is then not empty
(`cut_splitAfter`). A list of this shape is read back from its own concatenation
(`splitAfter_flatten`), and leaving out pieces keeps the shape (`Cut.sublist`), since the piece
without a newline stays the last one.

So any selection of the lines of a text is again the list of lines of a text
(`ofText_join_of_sublist`), whether the unterminated line at its end is selected or not.

Words of one letter have any size in bytes that is asked for (`Text.utf8ByteSize_word`); they stand
for the long names that some limits are about.
-/

set_option autoImplicit false

namespace Excision.Text

/-- Lists of pieces as cutting after newlines leaves them. -/
inductive Cut : List (List Char) → Prop where
  | nil : Cut []
  | last {line : List Char} : line ≠ [] → '\n' ∉ line → Cut [line]
  | cons {body : List Char} {lines : List (List Char)} :
      '\n' ∉ body → Cut lines → Cut ((body ++ ['\n']) :: lines)

/-- Characters other than a newline are only carried along. -/
theorem cutAfter_append_of_notMem {body : List Char} (hbody : '\n' ∉ body) (line rest : List Char) :
    cutAfter line (body ++ rest) = cutAfter (body.reverse ++ line) rest := by
  induction body generalizing line with
  | nil => rfl
  | cons c body ih =>
      have hc : c ≠ '\n' := fun h => hbody (h ▸ List.mem_cons_self)
      have htail : '\n' ∉ body := fun h => hbody (List.mem_cons_of_mem _ h)
      rw [List.cons_append, cutAfter, if_neg hc, ih htail, List.reverse_cons, List.append_assoc]
      rfl

theorem cut_cutAfter (line cs : List Char) (hline : '\n' ∉ line) : Cut (cutAfter line cs) := by
  induction cs generalizing line with
  | nil =>
      cases line with
      | nil => exact Cut.nil
      | cons c line =>
          have hrev : '\n' ∉ (c :: line).reverse := fun h => hline (List.mem_reverse.1 h)
          exact Cut.last (by simp) hrev
  | cons c cs ih =>
      rw [cutAfter]
      by_cases hc : c = '\n'
      · subst hc
        rw [if_pos rfl, List.reverse_cons]
        have hrev : '\n' ∉ line.reverse := fun h => hline (List.mem_reverse.1 h)
        exact Cut.cons hrev (ih [] (by simp))
      · -- the character joins the line that is being read, which keeps free of newlines
        rw [if_neg hc]
        refine ih (c :: line) fun h => ?_
        rcases List.mem_cons.1 h with h | h
        · exact hc h.symm
        · exact hline h

/-- The pieces of any text have the shape. -/
theorem cut_splitAfter (cs : List Char) : Cut (splitAfter cs) :=
  cut_cutAfter [] cs (by simp)

/-- A list of the shape is read back from its concatenation. -/
theorem splitAfter_flatten {lines : List (List Char)} (h : Cut lines) :
    splitAfter lines.flatten = lines := by
  induction h with
  | nil => rfl
  | @last line hne hline =>
      have hcut := cutAfter_append_of_notMem hline [] []
      simp only [List.append_nil] at hcut
      show cutAfter [] [line].flatten = [line]
      rw [List.flatten_cons, List.flatten_nil, List.append_nil, hcut, cutAfter]
      simp [hne]
  | @cons body lines hbody _ ih =>
      have hcut := cutAfter_append_of_notMem hbody [] ('\n' :: lines.flatten)
      show cutAfter [] ((body ++ ['\n']) :: lines).flatten = _
      rw [List.flatten_cons, List.append_assoc, List.singleton_append, hcut, cutAfter, if_pos rfl,
        show cutAfter [] lines.flatten = lines from ih]
      simp

/-- Leaving out pieces keeps the shape. -/
theorem Cut.sublist {lines kept : List (List Char)} (h : Cut lines) (hsub : kept.Sublist lines) :
    Cut kept := by
  induction h generalizing kept with
  | nil =>
      rw [List.sublist_nil.1 hsub]
      exact Cut.nil
  | @last line hne hline =>
      -- the piece without a newline is the last one that can be kept
      rcases List.sublist_cons_iff.1 hsub with hsub | ⟨rest, rfl, hrest⟩
      · rw [List.sublist_nil.1 hsub]
        exact Cut.nil
      · rw [List.sublist_nil.1 hrest]
        exact Cut.last hne hline
  | cons hbody _ ih =>
      rcases List.sublist_cons_iff.1 hsub with hsub | ⟨rest, rfl, hrest⟩
      · exact ih hsub
      · exact Cut.cons hbody (ih hrest)

/-! ## Words of one letter -/

/-- A word of one letter repeated. -/
def word (letter : Char) (count : Nat) : String := String.ofList (List.replicate count letter)

theorem toList_word (letter : Char) (count : Nat) :
    (word letter count).toList = List.replicate count letter :=
  String.toList_ofList

theorem utf8ByteSize_word (letter : Char) (count : Nat) :
    (word letter count).utf8ByteSize = count * letter.utf8Size := by
  induction count with
  | zero => simp [word]
  | succ count ih =>
      have hsplit : word letter (count + 1) = word letter count ++ String.singleton letter := by
        apply String.toList_inj.1
        rw [toList_word, String.toList_append, toList_word, List.replicate_succ',
          String.toList_singleton]
      rw [hsplit, String.utf8ByteSize_append, ih, String.utf8ByteSize_singleton, Nat.succ_mul]

end Excision.Text

namespace Excision.Source

/-- The lines of a text have the shape of cut pieces. -/
theorem cut_lines_ofText (text : String) :
    Text.Cut ((ofText text).lines.map String.toList) := by
  have hlines : (ofText text).lines.map String.toList = Text.splitAfter text.toList := by
    simp [ofText, Function.comp_def]
  rw [hlines]
  exact Text.cut_splitAfter _

/-- Lines of the shape are read back from their concatenation. -/
theorem ofText_join_of_cut {lines : List String} (h : Text.Cut (lines.map String.toList)) :
    ofText (String.join lines) = ⟨lines⟩ := by
  have hsplit : Text.splitAfter (String.join lines).toList = lines.map String.toList := by
    rw [String.toList_join, List.flatMap_def]
    exact Text.splitAfter_flatten h
  rw [ofText, hsplit]
  simp

/-- Any selection of the lines of a text is read back from its concatenation. -/
theorem ofText_join_of_sublist {text : String} {kept : List String}
    (hsub : kept.Sublist (ofText text).lines) : ofText (String.join kept) = ⟨kept⟩ :=
  ofText_join_of_cut ((cut_lines_ofText text).sublist (hsub.map _))

end Excision.Source
