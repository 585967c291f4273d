import Excision.Declaration
import Excision.Proofs.Blanks
import Excision.Settings

/-!
# What a declaring line looks like

`Declaration.declares` tries every way to pass over blank characters. The lines it accepts are
described here by how they are put together: blanks, then a modifier, blanks, the name, blanks, an
opening parenthesis, and anything (`Declaration.declares_iff`).

Where every modifier is a keyword, as checked settings have them (`Settings.check_eq_ok_iff`), the
modifier is the first thing on the line that is not blank. So it is the trimmed line that starts
with the modifier, and a line declares a name exactly if its trimmed text does so from its first
character on (`Declaration.declares_iff_trim`).
-/

set_option autoImplicit false

namespace Excision

namespace Declaration

open Text

/-! ## The parts of a declaration -/

theorem after?_eq_some_iff (word text rest : List Char) :
    after? word text = some rest ↔ text = word ++ rest := by
  induction word generalizing text with
  | nil => simp [after?]
  | cons c word ih =>
      cases text with
      | nil => simp [after?]
      | cons d text =>
          rw [after?, List.cons_append, List.cons.injEq]
          by_cases hcd : c = d
          · rw [if_pos hcd, ih, and_iff_right hcd.symm]
          · rw [if_neg hcd]
            simp [Ne.symm hcd]

theorem mem_afterBlanks_iff (cs rest : List Char) :
    rest ∈ afterBlanks cs ↔ ∃ blanks, cs = blanks ++ rest ∧ ∀ c ∈ blanks, isBlank c = true := by
  induction cs with
  | nil =>
      rw [afterBlanks.eq_1, List.mem_singleton]
      constructor
      · rintro rfl
        exact ⟨[], rfl, by simp⟩
      · rintro ⟨blanks, heq, -⟩
        exact (List.append_eq_nil_iff.1 heq.symm).2
  | cons c cs ih =>
      rw [afterBlanks.eq_2, List.mem_cons]
      constructor
      · rintro (rfl | hrest)
        · exact ⟨[], rfl, by simp⟩
        · split at hrest
          · next hc =>
            obtain ⟨blanks, rfl, hblanks⟩ := ih.1 hrest
            exact ⟨c :: blanks, rfl, List.forall_mem_cons.2 ⟨hc, hblanks⟩⟩
          · simp at hrest
      · rintro ⟨blanks, heq, hblanks⟩
        cases blanks with
        | nil => exact Or.inl heq.symm
        | cons d blanks =>
            obtain ⟨rfl, rfl⟩ := List.cons.inj heq
            obtain ⟨hc, hblanks⟩ := List.forall_mem_cons.1 hblanks
            rw [if_pos hc]
            exact Or.inr (ih.2 ⟨blanks, rfl, hblanks⟩)

theorem mem_afterSomeBlanks_iff (cs rest : List Char) :
    rest ∈ afterSomeBlanks cs ↔
      ∃ blanks, cs = blanks ++ rest ∧ blanks ≠ [] ∧ ∀ c ∈ blanks, isBlank c = true := by
  cases cs with
  | nil =>
      simp only [afterSomeBlanks, List.not_mem_nil, false_iff, not_exists]
      rintro blanks ⟨heq, hne, -⟩
      exact hne (List.append_eq_nil_iff.1 heq.symm).1
  | cons c cs =>
      rw [afterSomeBlanks]
      constructor
      · intro h
        split at h
        · next hc =>
          obtain ⟨blanks, rfl, hblanks⟩ := (mem_afterBlanks_iff cs rest).1 h
          exact ⟨c :: blanks, rfl, by simp, List.forall_mem_cons.2 ⟨hc, hblanks⟩⟩
        · simp at h
      · rintro ⟨blanks, heq, hne, hblanks⟩
        cases blanks with
        | nil => exact absurd rfl hne
        | cons d blanks =>
            obtain ⟨rfl, rfl⟩ := List.cons.inj heq
            obtain ⟨hc, hblanks⟩ := List.forall_mem_cons.1 hblanks
            rw [if_pos hc]
            exact (mem_afterBlanks_iff _ rest).2 ⟨blanks, rfl, hblanks⟩

theorem opensParameters_iff (text : List Char) :
    opensParameters text = true ↔
      ∃ blanks rest, text = blanks ++ '(' :: rest ∧ ∀ c ∈ blanks, isBlank c = true := by
  rw [opensParameters, beq_iff_eq]
  constructor
  · intro h
    obtain ⟨rest, hrest⟩ := List.head?_eq_some_iff.1 h
    refine ⟨text.takeWhile isBlank, rest, ?_, fun c => List.mem_takeWhile_imp⟩
    rw [← hrest, trimStart, List.takeWhile_append_dropWhile]
  · rintro ⟨blanks, rest, rfl, hblanks⟩
    rw [trimStart_append_cons hblanks (by decide)]
    rfl

/-! ## The whole line -/

/-- Whether a text is put together of a modifier, blanks, the name, blanks, an opening parenthesis,
and anything. -/
def Declares (modifiers : List (List Char)) (name text : List Char) : Prop :=
  ∃ modifier ∈ modifiers, ∃ gap space rest : List Char,
    text = modifier ++ (gap ++ (name ++ (space ++ '(' :: rest))) ∧ gap ≠ [] ∧
      (∀ c ∈ gap, isBlank c = true) ∧ ∀ c ∈ space, isBlank c = true

theorem declaresFrom_iff (modifiers : List (List Char)) (name text : List Char) :
    declaresFrom modifiers name text = true ↔ Declares modifiers name text := by
  simp only [declaresFrom, List.any_eq_true, Option.any_eq_true, after?_eq_some_iff,
    mem_afterSomeBlanks_iff, opensParameters_iff]
  constructor
  · rintro ⟨modifier, hmodifier, _, rfl, _, ⟨gap, rfl, hne, hgap⟩, _, rfl, space, rest, rfl, hspace⟩
    exact ⟨modifier, hmodifier, gap, space, rest, rfl, hne, hgap, hspace⟩
  · rintro ⟨modifier, hmodifier, gap, space, rest, rfl, hne, hgap, hspace⟩
    exact ⟨modifier, hmodifier, _, rfl, _, ⟨gap, rfl, hne, hgap⟩, _, rfl, space, rest, rfl, hspace⟩

/-- A line declares a name exactly if blanks and a declaration of the name make it up. -/
theorem declares_iff (modifiers : List String) (name line : String) :
    declares modifiers name line = true ↔
      ∃ blanks text, line.toList = blanks ++ text ∧ (∀ c ∈ blanks, isBlank c = true) ∧
        Declares (alternatives modifiers) name.toList text := by
  simp only [declares, List.any_eq_true, mem_afterBlanks_iff, declaresFrom_iff]
  constructor
  · rintro ⟨text, ⟨blanks, heq, hblanks⟩, htext⟩
    exact ⟨blanks, text, heq, hblanks, htext⟩
  · rintro ⟨blanks, text, heq, hblanks, htext⟩
    exact ⟨text, ⟨blanks, heq, hblanks⟩, htext⟩

end Declaration

/-! ## Keywords as modifiers -/

/-- Settings are accepted exactly if they have modifiers and all of them are keywords. -/
theorem Settings.check_eq_ok_iff (settings : Settings) :
    settings.check = .ok () ↔
      settings.modifiers ≠ [] ∧ ∀ modifier ∈ settings.modifiers, isKeyword modifier = true := by
  unfold check
  split
  · next hempty => simp [List.isEmpty_iff.1 hempty]
  · next hempty =>
    have hne : settings.modifiers ≠ [] := fun hnil => hempty (List.isEmpty_iff.2 hnil)
    split
    · next modifier hmodifier =>
      have hbad := List.find?_some hmodifier
      simp only [reduceCtorEq, false_iff, not_and, not_forall]
      exact fun _ => ⟨modifier, List.mem_of_find?_eq_some hmodifier, by simpa using hbad⟩
    · next hall =>
      simpa [hne] using hall

/-- The letters by their code points. -/
theorem isAlpha_iff (c : Char) :
    c.isAlpha = true ↔ 65 ≤ c.toNat ∧ c.toNat ≤ 90 ∨ 97 ≤ c.toNat ∧ c.toNat ≤ 122 := by
  have hletters : c.isAlpha =
      (decide (65 ≤ c.val ∧ c.val ≤ 90) || (decide (97 ≤ c.val) && decide (c.val ≤ 122))) := rfl
  rw [hletters]
  simp only [Bool.or_eq_true, Bool.and_eq_true, decide_eq_true_eq, UInt32.le_iff_toNat_le]
  exact Iff.rfl

theorem not_isBlank_of_startsKeyword {c : Char} (h : startsKeyword c = true) :
    Text.isBlank c = false := by
  rw [startsKeyword, Bool.or_eq_true, isAlpha_iff, decide_eq_true_eq] at h
  have hrange : 65 ≤ c.toNat ∧ c.toNat ≤ 122 := by
    rcases h with h | rfl
    · omega
    · decide
  simp only [Text.isBlank, Bool.or_eq_false_iff, Bool.and_eq_false_iff, decide_eq_false_iff_not,
    beq_eq_false_iff_ne]
  omega

/-- The digits by their code points. -/
theorem isDigit_iff (c : Char) : c.isDigit = true ↔ 48 ≤ c.toNat ∧ c.toNat ≤ 57 := by
  have hdigits : c.isDigit = (decide (48 ≤ c.val) && decide (c.val ≤ 57)) := rfl
  rw [hdigits, Bool.and_eq_true, decide_eq_true_eq, decide_eq_true_eq]
  simp only [UInt32.le_iff_toNat_le]
  exact Iff.rfl

theorem not_isBlank_of_continuesKeyword {c : Char} (h : continuesKeyword c = true) :
    Text.isBlank c = false := by
  have halphanum : c.isAlphanum = (c.isAlpha || c.isDigit) := rfl
  rw [continuesKeyword, halphanum, Bool.or_eq_true, Bool.or_eq_true] at h
  rcases h with (halpha | hdigit) | hunderscore
  · apply not_isBlank_of_startsKeyword
    rw [startsKeyword, halpha, Bool.true_or]
  · have hrange := (isDigit_iff c).1 hdigit
    simp only [Text.isBlank, Bool.or_eq_false_iff, Bool.and_eq_false_iff, decide_eq_false_iff_not,
      beq_eq_false_iff_ne]
    omega
  · apply not_isBlank_of_startsKeyword
    rw [startsKeyword, hunderscore, Bool.or_true]

theorem exists_of_isKeyword {text : String} (h : isKeyword text = true) :
    ∃ c cs, text.toList = c :: cs ∧ startsKeyword c = true := by
  unfold isKeyword at h
  split at h
  · exact Bool.noConfusion h
  · next c cs htext => exact ⟨c, cs, htext, (Bool.and_eq_true_iff.1 h).1⟩

/-- A keyword holds no blank character. -/
theorem not_isBlank_of_mem_keyword {text : String} (h : isKeyword text = true) :
    ∀ c ∈ text.toList, Text.isBlank c = false := by
  unfold isKeyword at h
  split at h
  · exact Bool.noConfusion h
  · next first rest htext =>
    obtain ⟨hfirst, hrest⟩ := Bool.and_eq_true_iff.1 h
    intro c hc
    rw [htext] at hc
    rcases List.mem_cons.1 hc with rfl | hc
    · exact not_isBlank_of_startsKeyword hfirst
    · exact not_isBlank_of_continuesKeyword (List.all_eq_true.1 hrest c hc)

namespace Declaration

open Text

variable {modifiers : List String} {name line : String}

/-- With keywords as modifiers a declaration starts with the first character of one. -/
theorem Declares.exists_cons {name text : List Char}
    (hkeywords : ∀ modifier ∈ modifiers, isKeyword modifier = true)
    (h : Declares (modifiers.map String.toList) name text) :
    ∃ c cs, text = c :: cs ∧ startsKeyword c = true := by
  obtain ⟨modifier, hmodifier, gap, space, rest, rfl, -⟩ := h
  obtain ⟨keyword, hkeyword, rfl⟩ := List.mem_map.1 hmodifier
  obtain ⟨c, cs, heq, hc⟩ := exists_of_isKeyword (hkeywords keyword hkeyword)
  exact ⟨c, _, by rw [heq]; rfl, hc⟩

/-- What is trimmed at the end of a declaration stands behind its parenthesis. -/
theorem Declares.trimEnd {modifiers : List (List Char)} {name text : List Char}
    (h : Declares modifiers name text) : Declares modifiers name (trimEnd text) := by
  obtain ⟨modifier, hmodifier, gap, space, rest, rfl, hne, hgap, hspace⟩ := h
  refine ⟨modifier, hmodifier, gap, space, Text.trimEnd rest, ?_, hne, hgap, hspace⟩
  have hparenthesis := trimEnd_append_cons (c := '(') (by decide)
    (modifier ++ (gap ++ (name ++ space))) rest
  simpa only [List.append_assoc] using hparenthesis

theorem Declares.append {modifiers : List (List Char)} {name text : List Char}
    (h : Declares modifiers name text) (more : List Char) :
    Declares modifiers name (text ++ more) := by
  obtain ⟨modifier, hmodifier, gap, space, rest, rfl, hne, hgap, hspace⟩ := h
  exact ⟨modifier, hmodifier, gap, space, rest ++ more, by simp, hne, hgap, hspace⟩

/-- With keywords as modifiers a line declares a name exactly if its trimmed text, from the first
character on, is a declaration of the name. -/
theorem declares_iff_trim (hne : modifiers ≠ [])
    (hkeywords : ∀ modifier ∈ modifiers, isKeyword modifier = true) :
    declares modifiers name line = true ↔
      Declares (modifiers.map String.toList) name.toList (trim line.toList) := by
  have halternatives : alternatives modifiers = modifiers.map String.toList := by
    rw [alternatives, if_neg (by simpa using hne)]
  rw [declares_iff, halternatives]
  constructor
  · rintro ⟨blanks, text, heq, hblanks, htext⟩
    obtain ⟨c, cs, rfl, hc⟩ := htext.exists_cons hkeywords
    -- the modifier is what trimming at the start comes to first
    rw [trim, heq, trimStart_append_cons hblanks (not_isBlank_of_startsKeyword hc)]
    exact htext.trimEnd
  · intro h
    obtain ⟨before, after, heq, hbefore, -⟩ := exists_eq_append_trim line.toList
    refine ⟨before, trim line.toList ++ after, ?_, hbefore, h.append after⟩
    rw [← List.append_assoc]
    exact heq

end Declaration

end Excision
