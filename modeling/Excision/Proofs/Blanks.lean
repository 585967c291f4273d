import Excision.Text.Blank
import Mathlib.Data.List.DropRight
import Mathlib.Data.List.TakeWhile

/-!
# Laws of trimming

A text is its trimmed text between blank characters (`Text.exists_eq_append_trim`), so whoever
passes over blank characters sees the trimmed text only. What stands up to a character that is not
blank survives the trimming of the end (`Text.trimEnd_append_cons`), and trimming twice is trimming
once (`Text.trim_trim`).
-/

set_option autoImplicit false

namespace Excision.Text

/-- A text is its trimmed text between blank characters. -/
theorem exists_eq_append_trim (cs : List Char) :
    ∃ before after : List Char, cs = before ++ trim cs ++ after ∧
      (∀ c ∈ before, isBlank c = true) ∧ ∀ c ∈ after, isBlank c = true := by
  refine ⟨cs.takeWhile isBlank, ((trimStart cs).reverse.takeWhile isBlank).reverse, ?_,
    fun c => List.mem_takeWhile_imp, fun c hc => List.mem_takeWhile_imp (List.mem_reverse.1 hc)⟩
  rw [trim, trimEnd, List.append_assoc, ← List.reverse_append, List.takeWhile_append_dropWhile,
    List.reverse_reverse, trimStart, List.takeWhile_append_dropWhile]

theorem trimEnd_eq_nil_iff (cs : List Char) : trimEnd cs = [] ↔ cs.all isBlank = true := by
  rw [trimEnd, List.reverse_eq_nil_iff, List.dropWhile_eq_nil_iff, List.all_eq_true]
  simp only [List.mem_reverse]

/-- Trimming leaves nothing exactly of a blank text. -/
theorem trim_eq_nil_iff (cs : List Char) : trim cs = [] ↔ cs.all isBlank = true := by
  rw [trim, trimEnd_eq_nil_iff]
  constructor
  · intro h
    cases hstart : cs.dropWhile isBlank with
    | nil =>
        rw [List.all_eq_true]
        exact List.dropWhile_eq_nil_iff.1 hstart
    | cons c rest =>
        -- the first character left over is not blank
        have hhead := List.head?_dropWhile_not isBlank cs
        rw [trimStart, hstart] at h
        rw [hstart] at hhead
        simp only [List.head?_cons] at hhead
        simp [hhead] at h
  · intro h
    rw [List.all_eq_true] at h ⊢
    intro c hc
    exact h c ((List.dropWhile_sublist isBlank).subset hc)

/-- Blank characters in front of one that is not blank are trimmed. -/
theorem trimStart_append_cons {before : List Char} (h : ∀ c ∈ before, isBlank c = true) {c : Char}
    (hc : isBlank c = false) (cs : List Char) : trimStart (before ++ c :: cs) = c :: cs := by
  rw [trimStart, List.dropWhile_append_of_pos h, List.dropWhile_cons, hc, if_neg Bool.false_ne_true]

/-- What stands up to a character that is not blank is not trimmed at the end. -/
theorem trimEnd_append_cons {c : Char} (hc : isBlank c = false) (before cs : List Char) :
    trimEnd (before ++ c :: cs) = before ++ c :: trimEnd cs := by
  have hstop : (c :: before.reverse).dropWhile isBlank = c :: before.reverse := by
    rw [List.dropWhile_cons, hc, if_neg Bool.false_ne_true]
  rw [trimEnd, trimEnd, List.reverse_append, List.reverse_cons, List.append_assoc,
    List.singleton_append, List.dropWhile_append, hstop]
  split
  · next hnil =>
    rw [List.isEmpty_iff.1 hnil]
    simp
  · simp

theorem trimEnd_trimEnd (cs : List Char) : trimEnd (trimEnd cs) = trimEnd cs := by
  rw [trimEnd, trimEnd, List.reverse_reverse, List.dropWhile_idempotent]

/-- Trimming twice is trimming once. -/
theorem trim_trim (cs : List Char) : trim (trim cs) = trim cs := by
  rw [trim, trim]
  cases hstart : trimStart cs with
  | nil => rfl
  | cons c rest =>
      -- the first character left over is not blank, so it stays the first one
      have hc : isBlank c = false := by
        have hhead := List.head?_dropWhile_not isBlank cs
        rw [← trimStart, hstart] at hhead
        simpa using hhead
      have hend : trimEnd (c :: rest) = c :: trimEnd rest := trimEnd_append_cons hc [] rest
      have hagain : trimStart ([] ++ c :: trimEnd rest) = c :: trimEnd rest :=
        trimStart_append_cons (by simp) hc _
      rw [List.nil_append] at hagain
      rw [hend, hagain, ← hend, trimEnd_trimEnd]

/-! ## Blank characters around a text -/

section Around

variable {blanks : List Char}

theorem trim_blank_append (h : ∀ c ∈ blanks, isBlank c = true) (cs : List Char) :
    trim (blanks ++ cs) = trim cs := by
  rw [trim, trim, trimStart, trimStart, List.dropWhile_append_of_pos h]

theorem trimEnd_append_blank (h : ∀ c ∈ blanks, isBlank c = true) (cs : List Char) :
    trimEnd (cs ++ blanks) = trimEnd cs := by
  have hreverse : ∀ c ∈ blanks.reverse, isBlank c = true := by
    intro c hc
    exact h c (List.mem_reverse.1 hc)
  rw [trimEnd, trimEnd, List.reverse_append, List.dropWhile_append_of_pos hreverse]

theorem trim_append_blank (h : ∀ c ∈ blanks, isBlank c = true) (cs : List Char) :
    trim (cs ++ blanks) = trim cs := by
  have hblanks : trimStart blanks = [] := List.dropWhile_eq_nil_iff.2 h
  have happend : trimStart (cs ++ blanks) =
      if (trimStart cs).isEmpty then trimStart blanks else trimStart cs ++ blanks :=
    List.dropWhile_append
  rw [trim, trim, happend]
  split
  · next hempty => rw [hblanks, List.isEmpty_iff.1 hempty]
  · exact trimEnd_append_blank h _

end Around

/-- A text without blank characters is left as it is. -/
theorem trim_eq_self {cs : List Char} (h : ∀ c ∈ cs, isBlank c = false) : trim cs = cs := by
  rcases List.eq_nil_or_concat cs with rfl | ⟨front, last, hlast⟩
  · rfl
  · rw [List.concat_eq_append] at hlast
    have hstart : trimStart cs = cs := by
      apply List.dropWhile_eq_self_iff.2
      intro hpos
      rw [h _ (List.getElem_mem hpos)]
      exact Bool.false_ne_true
    have hblank : isBlank last = false := h last (by simp [hlast])
    rw [trim, hstart, hlast, trimEnd_append_cons hblank]
    rfl

end Excision.Text
