/-!
# Texts cut at a separator

A text cut at each occurrence of a character. There is always one piece more than there are
separators, so an empty text is one empty piece. The pieces joined again by the separator are
the text (`intercalate_cutAt`).
-/

set_option autoImplicit false

namespace Excision.Text

/-- Cuts a text at each separator, with the characters `piece`, last one first, already read of
the first piece. -/
def cutAt (separator : Char) (piece : List Char) : List Char → List (List Char)
  | [] => [piece.reverse]
  | c :: cs =>
    if c = separator then piece.reverse :: cutAt separator [] cs
    else cutAt separator (c :: piece) cs

theorem cutAt_ne_nil (separator : Char) (piece cs : List Char) :
    cutAt separator piece cs ≠ [] := by
  induction cs generalizing piece with
  | nil => simp [cutAt]
  | cons c cs ih =>
    rw [cutAt]
    split
    · simp
    · exact ih _

/-- Cutting at a separator loses nothing. -/
theorem intercalate_cutAt (separator : Char) (piece cs : List Char) :
    [separator].intercalate (cutAt separator piece cs) = piece.reverse ++ cs := by
  induction cs generalizing piece with
  | nil => simp [cutAt]
  | cons c cs ih =>
    rw [cutAt]
    split
    · next h =>
      obtain ⟨first, rest, hcut⟩ := List.exists_cons_of_ne_nil (cutAt_ne_nil separator [] cs)
      have joined := ih []
      rw [hcut] at joined ⊢
      simp only [List.reverse_nil, List.nil_append] at joined
      rw [List.intercalate_cons_cons, joined, h]
      simp
    · rw [ih]
      simp

/-- The pieces of a text between the separators, empty ones included. -/
def pieces (separator : Char) (text : String) : List String :=
  (cutAt separator [] text.toList).map String.ofList

end Excision.Text
