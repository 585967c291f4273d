import Excision.Braces

/-!
# Where braces balance

`Braces.closingLine` reads characters one by one and keeps a balance. Here the same place is
described by counting, without the machine. A closing brace directly after the characters `w` ends
a body if it leaves as many closing as opening braces, at least one of them opening (`Closes w`);
a text balances if some closing brace in it does so (`Balances`).

The state after reading a text is a function of that text (`Braces.after`), and reading stops at
the first closing brace that ends a body (`readAll_after_eq_none_iff`, `readAll_after_eq_some`). So
the body of a declaration ends on the first line by whose end the text from the declaration on
balances (`bodyEnd_eq_some_iff`), and on no line exactly if that text never balances
(`bodyEnd_eq_none_iff`).
-/

set_option autoImplicit false

namespace Excision

/-- The characters of some lines, one line after the other. -/
def characters (lines : List String) : List Char := lines.flatMap String.toList

@[simp]
theorem characters_nil : characters [] = [] := rfl

@[simp]
theorem characters_cons (line : String) (lines : List String) :
    characters (line :: lines) = line.toList ++ characters lines := rfl

theorem characters_append (lines more : List String) :
    characters (lines ++ more) = characters lines ++ characters more :=
  List.flatMap_append

/-- Whether a closing brace directly after the given characters ends a body. -/
def Closes (w : List Char) : Prop := '\x7b' ∈ w ∧ w.count '\x7b' = w.count '\x7d' + 1

instance (w : List Char) : Decidable (Closes w) := inferInstanceAs (Decidable (_ ∧ _))

/-- Whether a closing brace in `cs` ends a body that began in the characters `w` before it. -/
def BalancesAfter (w cs : List Char) : Prop :=
  ∃ u rest, cs = u ++ '\x7d' :: rest ∧ Closes (w ++ u)

/-- Whether some closing brace of a text ends a body that begins in the text. -/
def Balances (cs : List Char) : Prop := BalancesAfter [] cs

theorem not_balancesAfter_nil (w : List Char) : ¬ BalancesAfter w [] := by
  rintro ⟨u, rest, h, -⟩
  simp at h

theorem balancesAfter_cons_iff (w : List Char) (c : Char) (cs : List Char) :
    BalancesAfter w (c :: cs) ↔ c = '\x7d' ∧ Closes w ∨ BalancesAfter (w ++ [c]) cs := by
  constructor
  · rintro ⟨u, rest, h, hcloses⟩
    cases u with
    | nil =>
        simp only [List.nil_append, List.cons.injEq] at h
        rw [List.append_nil] at hcloses
        exact Or.inl ⟨h.1, hcloses⟩
    | cons d u =>
        simp only [List.cons_append, List.cons.injEq] at h
        obtain ⟨rfl, rfl⟩ := h
        exact Or.inr ⟨u, rest, rfl, by rwa [List.append_assoc, List.singleton_append]⟩
  · rintro (⟨rfl, hcloses⟩ | ⟨u, rest, rfl, hcloses⟩)
    · exact ⟨[], cs, rfl, by rwa [List.append_nil]⟩
    · exact ⟨c :: u, rest, rfl, by rwa [List.append_assoc, List.singleton_append] at hcloses⟩

/-- A text balances in its first part or in its second part. -/
theorem balancesAfter_append_iff (w cs ds : List Char) :
    BalancesAfter w (cs ++ ds) ↔ BalancesAfter w cs ∨ BalancesAfter (w ++ cs) ds := by
  induction cs generalizing w with
  | nil => simp [not_balancesAfter_nil]
  | cons c cs ih =>
      rw [List.cons_append, balancesAfter_cons_iff, balancesAfter_cons_iff, ih, or_assoc,
        List.append_assoc, List.singleton_append]

/-- A text balances as soon as some of its first lines do. -/
theorem balances_take_mono {lines : List String} {m n : Nat} (hle : m ≤ n)
    (h : Balances (characters (lines.take m))) : Balances (characters (lines.take n)) := by
  obtain ⟨k, rfl⟩ := Nat.exists_eq_add_of_le hle
  rw [List.take_add, characters_append]
  exact (balancesAfter_append_iff _ _ _).2 (Or.inl h)

/-! ## The state after a text -/

namespace Braces

/-- The braces of a text that has been read without ending a body. -/
def after (w : List Char) : Braces := ⟨w.count '\x7b' - w.count '\x7d', '\x7b' ∈ w⟩

theorem unread_eq_after : unread = after [] := rfl

theorem read_after_eq_none_iff (w : List Char) (c : Char) :
    (after w).read c = none ↔ c = '\x7d' ∧ Closes w := by
  unfold read after Closes
  by_cases hopen : c = '\x7b'
  · subst hopen
    simp
  · by_cases hclose : c = '\x7d'
    · -- the guard of the machine is `Closes`: a brace was opened, and the balance is one
      subst hclose
      simp only [hopen, if_false, if_true, decide_eq_true_eq, true_and, ite_eq_left_iff,
        reduceCtorEq, imp_false, Decidable.not_not]
      exact and_congr_right fun _ => by omega
    · simp [hopen, hclose]

theorem read_after_eq_some {w : List Char} {c : Char} (h : ¬ (c = '\x7d' ∧ Closes w)) :
    (after w).read c = some (after (w ++ [c])) := by
  have hne : (after w).read c ≠ none := fun hnone => h ((read_after_eq_none_iff w c).1 hnone)
  unfold read after at *
  by_cases hopen : c = '\x7b'
  · subst hopen
    simp
    omega
  · by_cases hclose : c = '\x7d'
    · subst hclose
      simp only [hopen, if_false, if_true] at hne ⊢
      split at hne
      · exact absurd rfl hne
      · next hguard =>
        rw [if_neg hguard]
        simp
        omega
    · have hopen' : ¬ '\x7b' = c := fun e => hopen e.symm
      simp [hopen, hclose, hopen']

/-- Reading a text stops within it exactly if a closing brace of it ends a body. -/
theorem readAll_after_eq_none_iff (w cs : List Char) :
    (after w).readAll cs = none ↔ BalancesAfter w cs := by
  induction cs generalizing w with
  | nil => simp [readAll, not_balancesAfter_nil]
  | cons c cs ih =>
      rw [balancesAfter_cons_iff, readAll]
      by_cases hends : c = '\x7d' ∧ Closes w
      · rw [(read_after_eq_none_iff w c).2 hends]
        simp [hends]
      · rw [read_after_eq_some hends]
        simp [hends, ih]

/-- Otherwise the state afterwards is that of everything read. -/
theorem readAll_after_eq_some {w cs : List Char} (h : ¬ BalancesAfter w cs) :
    (after w).readAll cs = some (after (w ++ cs)) := by
  induction cs generalizing w with
  | nil => simp [readAll]
  | cons c cs ih =>
      rw [balancesAfter_cons_iff, not_or] at h
      rw [readAll, read_after_eq_some h.1]
      show (after (w ++ [c])).readAll cs = _
      rw [ih h.2, List.append_assoc, List.singleton_append]

/-- The closing line is the first one by whose end the text balances. -/
theorem closingLine_after_eq_some_iff (w : List Char) (lines : List String) (k : Nat) :
    (after w).closingLine lines = some k ↔
      ¬ BalancesAfter w (characters (lines.take k)) ∧
        BalancesAfter w (characters (lines.take (k + 1))) := by
  induction lines generalizing w k with
  | nil => simp [closingLine, not_balancesAfter_nil]
  | cons line lines ih =>
      rw [closingLine]
      by_cases hends : BalancesAfter w line.toList
      · -- the body ends on this line, so every longer beginning balances already
        rw [(readAll_after_eq_none_iff w _).2 hends]
        cases k with
        | zero => simp [not_balancesAfter_nil, hends]
        | succ k => simp [balancesAfter_append_iff, hends]
      · rw [readAll_after_eq_some hends]
        cases k with
        | zero => simp [hends]
        | succ k => simp [balancesAfter_append_iff, hends, ih]

/-- There is no closing line exactly if the text never balances. -/
theorem closingLine_after_eq_none_iff (w : List Char) (lines : List String) :
    (after w).closingLine lines = none ↔ ¬ BalancesAfter w (characters lines) := by
  induction lines generalizing w with
  | nil => simp [closingLine, not_balancesAfter_nil]
  | cons line lines ih =>
      rw [closingLine, characters_cons, balancesAfter_append_iff]
      by_cases hends : BalancesAfter w line.toList
      · rw [(readAll_after_eq_none_iff w _).2 hends]
        simp [hends]
      · rw [readAll_after_eq_some hends]
        simp [hends, ih]

end Braces

instance (w cs : List Char) : Decidable (BalancesAfter w cs) :=
  decidable_of_iff _ (Braces.readAll_after_eq_none_iff w cs)

instance (cs : List Char) : Decidable (Balances cs) :=
  inferInstanceAs (Decidable (BalancesAfter _ _))

/-! ## The end of a body -/

/-- The body of a declaration ends on the first line by whose end the text from the declaration on
balances. -/
theorem bodyEnd_eq_some_iff (lines : List String) (declaration last : Nat) :
    bodyEnd lines declaration = some last ↔
      declaration ≤ last ∧
        ¬ Balances (characters ((lines.drop declaration).take (last - declaration))) ∧
        Balances (characters ((lines.drop declaration).take (last - declaration + 1))) := by
  rw [bodyEnd, Braces.unread_eq_after, Option.map_eq_some_iff]
  constructor
  · rintro ⟨k, hk, rfl⟩
    rw [Nat.add_sub_cancel_left]
    exact ⟨Nat.le_add_right _ _, (Braces.closingLine_after_eq_some_iff _ _ _).1 hk⟩
  · rintro ⟨hle, hends⟩
    exact ⟨_, (Braces.closingLine_after_eq_some_iff _ _ _).2 hends, by omega⟩

/-- A body ends nowhere exactly if the text from its declaration on never balances. -/
theorem bodyEnd_eq_none_iff (lines : List String) (declaration : Nat) :
    bodyEnd lines declaration = none ↔ ¬ Balances (characters (lines.drop declaration)) := by
  rw [bodyEnd, Braces.unread_eq_after, Option.map_eq_none_iff]
  exact Braces.closingLine_after_eq_none_iff _ _

/-- A body ends at or after its declaration, within the lines. -/
theorem bodyEnd_bounds {lines : List String} {declaration last : Nat}
    (h : bodyEnd lines declaration = some last) : declaration ≤ last ∧ last < lines.length := by
  obtain ⟨hle, hopen, hends⟩ := (bodyEnd_eq_some_iff _ _ _).1 h
  -- below the last line the two beginnings would be the same text
  refine ⟨hle, Nat.lt_of_not_le fun hge => hopen ?_⟩
  have hshort : (lines.drop declaration).length ≤ last - declaration := by
    rw [List.length_drop]
    omega
  rw [List.take_of_length_le (by omega)] at hends
  rwa [List.take_of_length_le hshort]

/-- A body ends within lines that balance. -/
theorem exists_bodyEnd_lt {lines : List String} {declaration n : Nat}
    (h : Balances (characters ((lines.drop declaration).take n))) :
    ∃ last, bodyEnd lines declaration = some last ∧ last < declaration + n := by
  cases hend : bodyEnd lines declaration with
  | none =>
      have hopen := (bodyEnd_eq_none_iff _ _).1 hend
      rw [← List.take_append_drop n (lines.drop declaration), characters_append] at hopen
      exact absurd ((balancesAfter_append_iff _ _ _).2 (Or.inl h)) hopen
  | some last =>
      obtain ⟨hle, hopen, -⟩ := (bodyEnd_eq_some_iff _ _ _).1 hend
      refine ⟨last, rfl, Nat.lt_of_not_le fun hge => hopen ?_⟩
      exact balances_take_mono (Nat.le_sub_of_add_le' hge) h

/-- Lines above a declaration only shift the end of its body. -/
theorem bodyEnd_append (above lines : List String) (declaration : Nat) :
    bodyEnd (above ++ lines) (above.length + declaration) =
      (bodyEnd lines declaration).map (above.length + ·) := by
  rw [bodyEnd, bodyEnd, List.drop_length_add_append, Option.map_map]
  exact congrArg (Option.map · _) (funext fun k => Nat.add_assoc _ _ _)

/-- What stands below the end of a body does not matter. -/
theorem bodyEnd_append_of_lt {lines below : List String} {declaration last : Nat}
    (h : bodyEnd (lines ++ below) declaration = some last) (hlast : last < lines.length)
    (other : List String) : bodyEnd (lines ++ other) declaration = some last := by
  rw [bodyEnd_eq_some_iff] at h ⊢
  obtain ⟨hle, hopen, hcloses⟩ := h
  -- up to the last line of the body all of the text is in `lines`
  have htake : ∀ more : List String, ∀ n ≤ last - declaration + 1,
      ((lines ++ more).drop declaration).take n = (lines.drop declaration).take n := by
    intro more n hn
    rw [List.drop_append_of_le_length (by omega),
      List.take_append_of_le_length (by rw [List.length_drop]; omega)]
  rw [htake _ _ (Nat.le_succ _)] at hopen
  rw [htake _ _ (Nat.le_refl _)] at hcloses
  rw [htake _ _ (Nat.le_succ _), htake _ _ (Nat.le_refl _)]
  exact ⟨hle, hopen, hcloses⟩

end Excision
