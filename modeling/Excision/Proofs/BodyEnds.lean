import Excision.Proofs.Nesting
import Mathlib.Combinatorics.Enumerative.DyckWord

/-!
# The brace that ends a body

`bodyEnd` names a line. Here the brace on that line is named as well. A closing brace closes a
declaration if the text from the start of the declaring line through that brace holds an opening
brace, and as many opening as closing ones (`ClosesAt`). Such braces are exactly those at which the
text balances (`balances_take_iff`), so the body ends on the line of the first one
(`bodyEnd_first_close`), and nowhere if there is none.

Braces read as steps, up for an opening one and down for a closing one, make a Dyck word if they
nest. Where no closing brace comes before the first opening one, the steps from that opening brace
through the first one that closes the declaration are a Dyck word that returns to the ground at its
very end only (`exists_nested_of_closes`). The declaration need not be nested otherwise: a closing
brace that comes first is made up for by an opening one further down.
-/

set_option autoImplicit false

namespace Excision

/-! ## Closing braces by line and column -/

/-- The text from the start of line `declaration` through the character at a column of line
`index`. -/
def textThrough (lines : List String) (declaration index column : Nat) : List Char :=
  characters ((lines.drop declaration).take (index - declaration)) ++
    (lines[index]?.getD "").toList.take (column + 1)

/-- Whether the character at a column of line `index` is a closing brace through which the text from
line `declaration` on holds an opening brace, and as many opening as closing ones. -/
structure ClosesAt (lines : List String) (declaration index column : Nat) : Prop where
  below : declaration ≤ index
  brace : (lines[index]?.bind fun line => line.toList[column]?) = some '\x7d'
  opened : '\x7b' ∈ textThrough lines declaration index column
  even : (textThrough lines declaration index column).count '\x7b' =
    (textThrough lines declaration index column).count '\x7d'

instance (lines : List String) (declaration index column : Nat) :
    Decidable (ClosesAt lines declaration index column) :=
  decidable_of_iff (declaration ≤ index ∧
      (lines[index]?.bind fun line => line.toList[column]?) = some '\x7d' ∧
      '\x7b' ∈ textThrough lines declaration index column ∧
      (textThrough lines declaration index column).count '\x7b' =
        (textThrough lines declaration index column).count '\x7d')
    ⟨fun ⟨hbelow, hbrace, hopened, heven⟩ => ⟨hbelow, hbrace, hopened, heven⟩,
      fun ⟨hbelow, hbrace, hopened, heven⟩ => ⟨hbelow, hbrace, hopened, heven⟩⟩

/-- Whether a closing brace is the first one that closes a declaration. -/
structure FirstClosesAt (lines : List String) (declaration index column : Nat) : Prop where
  closes : ClosesAt lines declaration index column
  first : ∀ earlier column', earlier < index ∨ earlier = index ∧ column' < column →
    ¬ ClosesAt lines declaration earlier column'

/-- Up to a character and through it: what the counts say if that character is a closing brace. -/
theorem closes_iff_of_brace (w : List Char) :
    Closes w ↔ '\x7b' ∈ w ++ ['\x7d'] ∧
      (w ++ ['\x7d']).count '\x7b' = (w ++ ['\x7d']).count '\x7d' := by
  simp [Closes]

/-- A body that began in `w` ends in a text at one of the closing braces of the text. -/
theorem balancesAfter_iff_exists_column (w cs : List Char) :
    BalancesAfter w cs ↔
      ∃ column, cs[column]? = some '\x7d' ∧ Closes (w ++ cs.take column) := by
  constructor
  · rintro ⟨u, rest, rfl, hcloses⟩
    refine ⟨u.length, by simp, ?_⟩
    rwa [List.take_left]
  · rintro ⟨column, hbrace, hcloses⟩
    obtain ⟨hlt, hget⟩ := List.getElem?_eq_some_iff.1 hbrace
    refine ⟨cs.take column, cs.drop (column + 1), ?_, hcloses⟩
    rw [← hget, ← List.drop_eq_getElem_cons hlt, List.take_append_drop]

section Lines

variable {lines : List String} {declaration index column : Nat}

theorem textThrough_eq {line : String} {c : Char} (hline : lines[index]? = some line)
    (hc : line.toList[column]? = some c) :
    textThrough lines declaration index column =
      characters ((lines.drop declaration).take (index - declaration)) ++
        line.toList.take column ++ [c] := by
  rw [textThrough, hline, Option.getD_some, List.take_add_one, hc, Option.toList_some,
    List.append_assoc]

/-- On a given line the closing braces of a declaration are those that end a body begun above. -/
theorem closesAt_iff {line : String} (hline : lines[index]? = some line) :
    ClosesAt lines declaration index column ↔
      declaration ≤ index ∧ line.toList[column]? = some '\x7d' ∧
        Closes (characters ((lines.drop declaration).take (index - declaration)) ++
          line.toList.take column) := by
  constructor
  · rintro ⟨hbelow, hbrace, hopened, heven⟩
    rw [hline, Option.bind_some] at hbrace
    rw [textThrough_eq hline hbrace] at hopened heven
    exact ⟨hbelow, hbrace, (closes_iff_of_brace _).2 ⟨hopened, heven⟩⟩
  · rintro ⟨hbelow, hbrace, hcloses⟩
    obtain ⟨hopened, heven⟩ := (closes_iff_of_brace _).1 hcloses
    rw [← textThrough_eq hline hbrace] at hopened heven
    exact ⟨hbelow, by rw [hline, Option.bind_some, hbrace], hopened, heven⟩

theorem ClosesAt.exists_line (h : ClosesAt lines declaration index column) :
    ∃ line, lines[index]? = some line := by
  obtain ⟨line, hline, -⟩ := Option.bind_eq_some_iff.1 h.brace
  exact ⟨line, hline⟩

/-- A line that balances the text from the declaration on holds a closing brace that does. -/
theorem balancesAfter_line_iff {line : String} (hline : lines[index]? = some line)
    (hbelow : declaration ≤ index) :
    BalancesAfter (characters ((lines.drop declaration).take (index - declaration))) line.toList ↔
      ∃ column, ClosesAt lines declaration index column := by
  rw [balancesAfter_iff_exists_column]
  refine exists_congr fun column => ?_
  rw [closesAt_iff hline]
  exact ⟨fun h => ⟨hbelow, h⟩, fun h => h.2⟩

/-- The text of some lines from the declaration on balances exactly if one of them holds a brace
that closes the declaration. -/
theorem balances_take_iff (n : Nat) :
    Balances (characters ((lines.drop declaration).take n)) ↔
      ∃ index < declaration + n, ∃ column, ClosesAt lines declaration index column := by
  induction n with
  | zero =>
      constructor
      · intro h
        exact absurd h (not_balancesAfter_nil _)
      · rintro ⟨index, hlt, column, hcloses⟩
        exact absurd hcloses.below (Nat.not_le_of_lt hlt)
  | succ n ih =>
      -- the last of the lines either is missing or decides by its own closing braces
      have hlast : (∃ index < declaration + (n + 1), ∃ column,
          ClosesAt lines declaration index column) ↔
          Balances (characters ((lines.drop declaration).take n)) ∨
            ∃ column, ClosesAt lines declaration (declaration + n) column := by
        rw [ih]
        constructor
        · rintro ⟨index, hlt, hcloses⟩
          rcases Nat.lt_or_ge index (declaration + n) with habove | hge
          · exact Or.inl ⟨index, habove, hcloses⟩
          · obtain rfl : index = declaration + n := by omega
            exact Or.inr hcloses
        · rintro (⟨index, hlt, hcloses⟩ | hcloses)
          · exact ⟨index, by omega, hcloses⟩
          · exact ⟨declaration + n, by omega, hcloses⟩
      rw [hlast, List.take_add_one, characters_append, List.getElem?_drop, Balances,
        balancesAfter_append_iff, List.nil_append]
      refine or_congr_right ?_
      cases hline : lines[declaration + n]? with
      | none =>
          constructor
          · intro h
            exact absurd h (not_balancesAfter_nil _)
          · rintro ⟨column, hcloses⟩
            obtain ⟨line, hsome⟩ := hcloses.exists_line
            rw [hline] at hsome
            exact absurd hsome (by simp)
      | some line =>
          have hbelow : declaration ≤ declaration + n := Nat.le_add_right _ _
          rw [← balancesAfter_line_iff hline hbelow, Nat.add_sub_cancel_left]
          simp

/-- A body ends on the first line with a brace that closes the declaration. -/
theorem bodyEnd_eq_some_iff_closesAt (last : Nat) :
    bodyEnd lines declaration = some last ↔
      (∃ column, ClosesAt lines declaration last column) ∧
        ∀ earlier < last, ∀ column, ¬ ClosesAt lines declaration earlier column := by
  rw [bodyEnd_eq_some_iff, balances_take_iff, balances_take_iff]
  constructor
  · rintro ⟨hbelow, hopen, index, hlt, column, hcloses⟩
    have hnone : ∀ earlier < last, ∀ column, ¬ ClosesAt lines declaration earlier column := by
      intro earlier hearlier column' hcloses'
      exact hopen ⟨earlier, by omega, column', hcloses'⟩
    rcases Nat.lt_or_ge index last with habove | hge
    · exact absurd hcloses (hnone index habove column)
    · obtain rfl : index = last := by omega
      exact ⟨⟨column, hcloses⟩, hnone⟩
  · rintro ⟨⟨column, hcloses⟩, hnone⟩
    have hbelow := hcloses.below
    refine ⟨hbelow, ?_, last, by omega, column, hcloses⟩
    rintro ⟨index, hlt, column', hcloses'⟩
    exact hnone index (by omega) column' hcloses'

/-- The first closing brace of a line that closes a declaration. -/
theorem exists_firstClosesAt (h : ClosesAt lines declaration index column)
    (habove : ∀ earlier < index, ∀ column, ¬ ClosesAt lines declaration earlier column) :
    ∃ column, FirstClosesAt lines declaration index column := by
  classical
  have hex : ∃ column, ClosesAt lines declaration index column := ⟨column, h⟩
  refine ⟨Nat.find hex, Nat.find_spec hex, ?_⟩
  rintro earlier column' (hlt | ⟨rfl, hlt⟩)
  · exact habove earlier hlt column'
  · exact Nat.find_min hex hlt

/-- Before the first brace that closes a declaration the text does not balance. -/
theorem FirstClosesAt.not_balances {line : String}
    (h : FirstClosesAt lines declaration index column) (hline : lines[index]? = some line) :
    ¬ Balances (characters ((lines.drop declaration).take (index - declaration)) ++
      line.toList.take column) := by
  have hbelow := h.closes.below
  rw [Balances, balancesAfter_append_iff, List.nil_append, not_or]
  constructor
  · intro hbalances
    obtain ⟨earlier, hlt, column', hcloses⟩ := (balances_take_iff _).1 hbalances
    exact h.first earlier column' (Or.inl (by omega)) hcloses
  · intro hbalances
    obtain ⟨column', hbrace, hcloses⟩ := (balancesAfter_iff_exists_column _ _).1 hbalances
    rw [List.getElem?_take] at hbrace
    split at hbrace
    · next hlt =>
      rw [List.take_take, Nat.min_eq_left (Nat.le_of_lt hlt)] at hcloses
      refine h.first index column' (Or.inr ⟨rfl, hlt⟩) ?_
      exact (closesAt_iff hline).2 ⟨hbelow, hbrace, hcloses⟩
    · exact absurd hbrace (by simp)

end Lines

/-! ## Braces as steps -/

/-- The brace of a step: an opening one goes up, a closing one goes down. -/
def braceOf : DyckStep → Char
  | .U => '\x7b'
  | .D => '\x7d'

/-- The step of a character, if it is a brace. -/
def step? (c : Char) : Option DyckStep :=
  if c = '\x7b' then some .U else if c = '\x7d' then some .D else none

/-- The braces of a text as steps. -/
def braceSteps (cs : List Char) : List DyckStep := cs.filterMap step?

theorem step?_eq_some_iff (c : Char) (step : DyckStep) :
    step? c = some step ↔ c = braceOf step := by
  unfold step?
  by_cases hopen : c = '\x7b'
  · subst hopen
    cases step <;> simp [braceOf]
  · by_cases hclose : c = '\x7d'
    · subst hclose
      cases step <;> simp [braceOf]
    · cases step <;> simp [braceOf, hopen, hclose]

/-- There are as many steps up as opening braces, and as many steps down as closing ones. -/
theorem count_braceSteps (step : DyckStep) (cs : List Char) :
    (braceSteps cs).count step = cs.count (braceOf step) := by
  rw [braceSteps, List.count_filterMap, List.count]
  refine List.countP_congr fun c _ => ?_
  rw [beq_iff_eq, beq_iff_eq]
  exact step?_eq_some_iff c step

/-- Steps that are even at their end, and above the ground after each of their beginnings, are a
Dyck word that returns to the ground at its end only. -/
theorem exists_isNested {steps : List DyckStep} (hne : steps ≠ [])
    (heven : steps.count .U = steps.count .D)
    (habove : ∀ i, 0 < i → i < steps.length → (steps.take i).count .D < (steps.take i).count .U) :
    ∃ word : DyckWord, word.toList = steps ∧ word.IsNested := by
  have hground : ∀ i, (steps.take i).count .D ≤ (steps.take i).count .U := by
    intro i
    rcases Nat.eq_zero_or_pos i with rfl | hpos
    · simp
    · rcases Nat.lt_or_ge i steps.length with hlt | hge
      · exact Nat.le_of_lt (habove i hpos hlt)
      · rw [List.take_of_length_le hge]
        exact Nat.le_of_eq heven.symm
  exact ⟨⟨steps, heven, hground⟩, rfl, DyckWord.toList_ne_nil.1 hne, fun i => habove i⟩

/-- Before its first opening brace a text that opens first has no braces at all. -/
theorem count_takeWhile_eq_zero {w : List Char} (hfirst : OpensFirst w) :
    (w.takeWhile (· ≠ '\x7b')).count '\x7b' = 0 ∧ (w.takeWhile (· ≠ '\x7b')).count '\x7d' = 0 := by
  refine ⟨List.count_eq_zero.2 fun h => ?_, List.count_eq_zero.2 hfirst⟩
  simpa using List.mem_takeWhile_imp h

/-- From its first opening brace on, every beginning of a text that opens first and has not balanced
has more opening than closing braces. -/
theorem count_lt_of_prefix_dropWhile {w q : List Char} (hfirst : OpensFirst w)
    (hopen : ¬ Balances w) (hq : q <+: w.dropWhile (· ≠ '\x7b')) (hne : q ≠ []) :
    q.count '\x7d' < q.count '\x7b' := by
  obtain ⟨rest, hrest⟩ := hq
  have hsplit : w.takeWhile (· ≠ '\x7b') ++ q ++ rest = w := by
    rw [List.append_assoc, hrest, List.takeWhile_append_dropWhile]
  have hmem : '\x7b' ∈ q := by
    obtain ⟨c, q', rfl⟩ := List.exists_cons_of_ne_nil hne
    have hhead := List.head?_dropWhile_not (fun c => decide (c ≠ '\x7b')) w
    rw [← hrest] at hhead
    have hc : c = '\x7b' := by simpa using hhead
    exact hc ▸ List.mem_cons_self
  -- the text up to the end of `q` has the braces of `q` and no others
  obtain ⟨hnone, hnone'⟩ := count_takeWhile_eq_zero hfirst
  rw [← hsplit] at hfirst hopen
  have hlt := count_close_lt_count_open hfirst.of_append
    (fun h => hopen ((balancesAfter_append_iff _ _ _).2 (Or.inl h)))
    (List.mem_append_right _ hmem)
  rw [List.count_append, List.count_append, hnone, hnone'] at hlt
  omega

/-- From its first opening brace on, such a text and the closing brace after it are above the ground
after each of their steps but the last. -/
theorem count_take_braceSteps_lt {w : List Char} (hfirst : OpensFirst w) (hopen : ¬ Balances w)
    {i : Nat} (hpos : 0 < i)
    (hlt : i < (braceSteps (w.dropWhile (· ≠ '\x7b') ++ ['\x7d'])).length) :
    ((braceSteps (w.dropWhile (· ≠ '\x7b') ++ ['\x7d'])).take i).count .D <
      ((braceSteps (w.dropWhile (· ≠ '\x7b') ++ ['\x7d'])).take i).count .U := by
  -- the first steps are the steps of a beginning of the text
  obtain ⟨q, hq, hsteps⟩ := List.prefix_filterMap_iff.1 (List.take_prefix i (braceSteps
    (w.dropWhile (· ≠ '\x7b') ++ ['\x7d'])))
  have hlength : (braceSteps q).length = i := by
    rw [braceSteps, ← hsteps, List.length_take, Nat.min_eq_left (Nat.le_of_lt hlt)]
  rw [hsteps]
  change (braceSteps q).count .D < (braceSteps q).count .U
  rw [count_braceSteps, count_braceSteps]
  rcases List.prefix_concat_iff.1 hq with rfl | hq
  · -- the whole text has all of the steps
    exact absurd hlength (Nat.ne_of_gt hlt)
  · apply count_lt_of_prefix_dropWhile hfirst hopen hq
    rintro rfl
    exact absurd hlength (Nat.ne_of_lt hpos)

/-- Where a text that opens first is closed, there are as many steps up as down from its first
opening brace on. -/
theorem count_braceSteps_of_closes {w : List Char} (hfirst : OpensFirst w) (hcloses : Closes w) :
    (braceSteps (w.dropWhile (· ≠ '\x7b') ++ ['\x7d'])).count .U =
      (braceSteps (w.dropWhile (· ≠ '\x7b') ++ ['\x7d'])).count .D := by
  obtain ⟨-, hcount⟩ := hcloses
  obtain ⟨hnone, hnone'⟩ := count_takeWhile_eq_zero hfirst
  nth_rewrite 1 2 [← List.takeWhile_append_dropWhile (l := w) (p := (· ≠ '\x7b'))] at hcount
  rw [List.count_append, List.count_append, hnone, hnone'] at hcount
  have hopens : ['\x7d'].count '\x7b' = 0 := by decide
  have hcloses : ['\x7d'].count '\x7d' = 1 := by decide
  rw [count_braceSteps, count_braceSteps, braceOf, braceOf, List.count_append, List.count_append,
    hopens, hcloses]
  omega

/-- Where a text that opens first is closed for the first time, the steps from its first opening
brace on are a Dyck word that returns to the ground at its end only. -/
theorem exists_nested_of_closes {w : List Char} (hfirst : OpensFirst w) (hopen : ¬ Balances w)
    (hcloses : Closes w) :
    ∃ word : DyckWord,
      word.toList = braceSteps ((w ++ ['\x7d']).dropWhile (· ≠ '\x7b')) ∧ word.IsNested := by
  have hdrop : (w ++ ['\x7d']).dropWhile (· ≠ '\x7b') = w.dropWhile (· ≠ '\x7b') ++ ['\x7d'] := by
    rw [List.dropWhile_append, if_neg]
    intro hempty
    rw [List.isEmpty_iff, List.dropWhile_eq_nil_iff] at hempty
    simpa using hempty _ hcloses.1
  rw [hdrop]
  apply exists_isNested
  · rw [braceSteps, List.filterMap_append]
    exact List.append_ne_nil_of_right_ne_nil _ (by decide)
  · exact count_braceSteps_of_closes hfirst hcloses
  · intro i hpos hlt
    exact count_take_braceSteps_lt hfirst hopen hpos hlt

/-! ## The end of a body -/

/-- The text through a character is a beginning of the text from the declaration on. -/
theorem exists_characters_eq_append {lines : List String} {declaration index : Nat} {line : String}
    (hline : lines[index]? = some line) (hbelow : declaration ≤ index) (column : Nat) :
    ∃ rest, characters (lines.drop declaration) =
      characters ((lines.drop declaration).take (index - declaration)) ++
        line.toList.take column ++ rest := by
  obtain ⟨hlt, rfl⟩ := List.getElem?_eq_some_iff.1 hline
  refine ⟨lines[index].toList.drop column ++ characters (lines.drop (index + 1)), ?_⟩
  have hsplit : lines.drop declaration =
      (lines.drop declaration).take (index - declaration) ++
        lines[index] :: lines.drop (index + 1) := by
    rw [← List.drop_eq_getElem_cons hlt]
    nth_rewrite 1 [← List.take_append_drop (index - declaration) (lines.drop declaration)]
    rw [List.drop_drop, Nat.add_sub_of_le hbelow]
  nth_rewrite 1 [hsplit]
  rw [characters_append, characters_cons, List.append_assoc, ← List.append_assoc (List.take _ _),
    List.take_append_drop]

/-- **A body ends at the first closing brace that balances it.** It ends on a line exactly if this
line holds a closing brace through which the text from the declaration on has an opening brace and
as many opening as closing ones, and no earlier closing brace is of that kind; it ends nowhere
exactly if there is no such brace. If no closing brace comes before the first opening one, then the
braces from that opening brace through the closing one are a Dyck word: as many closing as opening
ones, and more opening than closing ones after every proper beginning that is not empty. -/
theorem bodyEnd_first_close (lines : List String) (declaration : Nat) :
    (∀ last, bodyEnd lines declaration = some last ↔
        ∃ column, FirstClosesAt lines declaration last column) ∧
      (bodyEnd lines declaration = none ↔
        ∀ index column, ¬ ClosesAt lines declaration index column) ∧
      (∀ last column, FirstClosesAt lines declaration last column →
        OpensFirst (characters (lines.drop declaration)) →
          ∃ word : DyckWord, word.IsNested ∧ word.toList =
            braceSteps ((textThrough lines declaration last column).dropWhile (· ≠ '\x7b'))) := by
  refine ⟨fun last => ?_, ?_, fun last column h hfirst => ?_⟩
  · rw [bodyEnd_eq_some_iff_closesAt]
    constructor
    · rintro ⟨⟨column, hcloses⟩, habove⟩
      exact exists_firstClosesAt hcloses habove
    · rintro ⟨column, hcloses, hearlier⟩
      exact ⟨⟨column, hcloses⟩, fun earlier hlt column' => hearlier _ _ (Or.inl hlt)⟩
  · have hall : (lines.drop declaration).take lines.length = lines.drop declaration :=
      List.take_of_length_le (by rw [List.length_drop]; omega)
    rw [bodyEnd_eq_none_iff, ← hall, balances_take_iff]
    constructor
    · intro hnone index column hcloses
      obtain ⟨line, hline⟩ := hcloses.exists_line
      have hlt := (List.getElem?_eq_some_iff.1 hline).1
      exact hnone ⟨index, by omega, column, hcloses⟩
    · rintro hnone ⟨index, -, column, hcloses⟩
      exact hnone index column hcloses
  · obtain ⟨line, hline⟩ := h.closes.exists_line
    obtain ⟨hbelow, hbrace, hcloses⟩ := (closesAt_iff hline).1 h.closes
    obtain ⟨rest, hrest⟩ := exists_characters_eq_append hline hbelow column
    rw [hrest] at hfirst
    obtain ⟨word, hword, hnested⟩ :=
      exists_nested_of_closes hfirst.of_append (h.not_balances hline) hcloses
    exact ⟨word, hnested, by rw [hword, textThrough_eq hline hbrace]⟩

/-- A body that opens among the parameters, below a closing brace that is not its own, and closes
with the third closing brace of its last line. -/
theorem bodyEnd_first_close_among_parameters :
    let lines := ["\x7d\n", "private a(x: \x7b\n", "  y: \x7b\x7d) \x7b\n",
      "  if (x) \x7b \x7d \x7d \x7d\n", "\x7d\n"]
    OpensFirst (characters (lines.drop 1)) ∧ FirstClosesAt lines 1 3 15 ∧
      bodyEnd lines 1 = some 3 ∧
      ∃ word : DyckWord, word.IsNested ∧ word.toList = [.U, .U, .D, .U, .U, .D, .D, .D] := by
  intro lines
  have hfirst : OpensFirst (characters (lines.drop 1)) := by decide +kernel
  have hend : bodyEnd lines 1 = some 3 := by decide +kernel
  have hcloses : ClosesAt lines 1 3 15 := by decide +kernel
  have hbefore : ∀ column < 15, ¬ ClosesAt lines 1 3 column := by decide +kernel
  obtain ⟨hsome, -, hnested⟩ := bodyEnd_first_close lines 1
  obtain ⟨column, hcolumn⟩ := (hsome 3).1 hend
  obtain rfl : column = 15 := by
    rcases Nat.lt_trichotomy column 15 with hlt | heq | hgt
    · exact absurd hcolumn.closes (hbefore column hlt)
    · exact heq
    · exact absurd hcloses (hcolumn.first 3 15 (Or.inr ⟨rfl, hgt⟩))
  obtain ⟨word, hword, hsteps⟩ := hnested 3 15 hcolumn hfirst
  refine ⟨hfirst, hcolumn, hend, word, hword, ?_⟩
  rw [hsteps]
  decide +kernel

-- A closing brace that comes first is made up for by the one that ends the body.
example :
    let lines := ["private a() \x7d \x7b \x7b\n", "\x7d\n"]
    bodyEnd lines 0 = some 1 ∧ ClosesAt lines 0 1 0 ∧
      braceSteps ((textThrough lines 0 1 0).dropWhile (· ≠ '\x7b')) = [.U, .U, .D] := by
  decide +kernel

end Excision
