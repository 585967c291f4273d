import Excision.Pattern
import Mathlib.Data.List.Basic

/-!
# What patterns match

A pattern means a relation between a text and the characters before and after it
(`Pattern.Matches`): one constructor of patterns after the other, with no regard to how a match is
looked for. The search works otherwise. It keeps the patterns of which one must match what is left,
and takes each of them past one character at a time.

Both agree on every pattern whose repetitions have a least count that is not above the most
(`Pattern.matchesIn_iff`). The step is that a pattern matches a text with a first character exactly
if one of the patterns that it leaves after that character matches the others
(`Pattern.matches_cons_iff`). For a repetition this asks how its rounds share out the first
character: some rounds may be empty, and then one takes it (`Meaning.rounds_cons_iff`).
-/

set_option autoImplicit false

namespace Excision

/-- What a pattern can mean: which texts it matches between two characters, either of which may be
missing at an end of the text. -/
abbrev Meaning := Option Char → List Char → Option Char → Prop

namespace Meaning

/-- One meaning after the other. Each part has the other one as its neighbour. -/
def seq (first second : Meaning) : Meaning := fun before text after =>
  ∃ left right, text = left ++ right ∧ first before left (right.head?.or after) ∧
    second (left.getLast?.or before) right after

/-- So many rounds of a meaning. -/
def rounds (meaning : Meaning) : Nat → Meaning
  | 0 => fun _ text _ => text = []
  | count + 1 => meaning.seq (rounds meaning count)

variable {first second meaning : Meaning} {before after : Option Char} {c : Char}
  {text : List Char}

theorem seq_nil_iff : first.seq second before [] after ↔
    first before [] after ∧ second before [] after := by
  constructor
  · rintro ⟨left, right, heq, hfirst, hsecond⟩
    obtain ⟨rfl, rfl⟩ := List.append_eq_nil_iff.1 heq.symm
    exact ⟨hfirst, hsecond⟩
  · rintro ⟨hfirst, hsecond⟩
    exact ⟨[], [], rfl, hfirst, hsecond⟩

/-- The character before what follows on a text that is not empty. -/
theorem getLast?_cons_or (before : Option Char) (left : List Char) :
    (c :: left).getLast?.or before = left.getLast?.or (some c) := by
  rw [List.getLast?_cons]
  cases left.getLast? <;> rfl

/-- The first character belongs to the second part if the first one is empty. -/
theorem seq_cons_iff : first.seq second before (c :: text) after ↔
    (first before [] (some c) ∧ second before (c :: text) after) ∨
      ∃ left right, text = left ++ right ∧ first before (c :: left) (right.head?.or after) ∧
        second (left.getLast?.or (some c)) right after := by
  constructor
  · rintro ⟨left, right, heq, hfirst, hsecond⟩
    cases left with
    | nil =>
        obtain rfl : c :: text = right := heq
        exact Or.inl ⟨hfirst, hsecond⟩
    | cons d left =>
        obtain ⟨rfl, rfl⟩ := List.cons.inj heq
        rw [getLast?_cons_or] at hsecond
        exact Or.inr ⟨left, right, rfl, hfirst, hsecond⟩
  · rintro (⟨hfirst, hsecond⟩ | ⟨left, right, rfl, hfirst, hsecond⟩)
    · exact ⟨[], c :: text, rfl, hfirst, hsecond⟩
    · rw [← getLast?_cons_or before] at hsecond
      exact ⟨c :: left, right, rfl, hfirst, hsecond⟩

theorem rounds_nil_iff (count : Nat) :
    meaning.rounds count before [] after ↔ count = 0 ∨ meaning before [] after := by
  induction count with
  | zero => simp [rounds]
  | succ count ih =>
      rw [rounds, seq_nil_iff, ih]
      constructor
      · rintro ⟨h, -⟩
        exact Or.inr h
      · rintro (h | h)
        · cases h
        · exact ⟨h, Or.inr h⟩

/-- The first character belongs to the first round that is not empty. -/
theorem rounds_cons_iff (count : Nat) :
    meaning.rounds count before (c :: text) after ↔
      ∃ idle more left right, count = idle + 1 + more ∧
        (idle = 0 ∨ meaning before [] (some c)) ∧ text = left ++ right ∧
        meaning before (c :: left) (right.head?.or after) ∧
        meaning.rounds more (left.getLast?.or (some c)) right after := by
  induction count with
  | zero =>
      constructor
      · intro h
        cases h
      · rintro ⟨idle, more, -, -, hcount, -⟩
        omega
  | succ count ih =>
      rw [rounds, seq_cons_iff, ih]
      -- the first round is empty and one more is idle, or it takes the character and none is
      constructor
      · rintro (⟨hempty, idle, more, left, right, rfl, -, hrest⟩ | ⟨left, right, hrest⟩)
        · exact ⟨idle + 1, more, left, right, by omega, Or.inr hempty, hrest⟩
        · obtain ⟨htext, hround, hmore⟩ := hrest
          exact ⟨0, count, left, right, by omega, Or.inl rfl, htext, hround, hmore⟩
      · rintro ⟨idle, more, left, right, hcount, hidle, htext, hround, hmore⟩
        cases idle with
        | zero =>
            obtain rfl : count = more := by omega
            exact Or.inr ⟨left, right, htext, hround, hmore⟩
        | succ idle =>
            have hempty : meaning before [] (some c) := by
              rcases hidle with hzero | hempty
              · cases hzero
              · exact hempty
            exact Or.inl ⟨hempty, idle, more, left, right, by omega, Or.inr hempty, htext, hround,
              hmore⟩

/-- Rounds up to a bound on a text that is not empty: one of them takes the first character, and
empty ones before it make up for those that are missing after it. -/
theorem exists_rounds_cons_iff {least : Nat} {most : Option Nat}
    (hmost : ∀ bound ∈ most, least ≤ bound) :
    (∃ count, least ≤ count ∧ (∀ bound ∈ most, count ≤ bound) ∧
        meaning.rounds count before (c :: text) after) ↔
      ∃ more, (meaning before [] (some c) ∨ least ≤ more + 1) ∧ (∀ bound ∈ most, more < bound) ∧
        ∃ left right, text = left ++ right ∧ meaning before (c :: left) (right.head?.or after) ∧
          meaning.rounds more (left.getLast?.or (some c)) right after := by
  constructor
  · rintro ⟨count, hleast, hbound, hrounds⟩
    obtain ⟨idle, more, left, right, rfl, hidle, hrest⟩ := (rounds_cons_iff count).1 hrounds
    refine ⟨more, ?_, fun bound h => ?_, left, right, hrest⟩
    · rcases hidle with rfl | hempty
      · exact Or.inr (by omega)
      · exact Or.inl hempty
    · have := hbound bound h
      omega
  · rintro ⟨more, henough, hbound, left, right, hrest⟩
    rcases henough with hempty | henough
    · -- so many empty rounds first that the least count is reached
      refine ⟨(least - (more + 1)) + 1 + more, by omega, fun bound h => ?_,
        (rounds_cons_iff _).2 ⟨_, more, left, right, rfl, Or.inr hempty, hrest⟩⟩
      have := hbound bound h
      have := hmost bound h
      omega
    · refine ⟨0 + 1 + more, by omega, fun bound h => ?_,
        (rounds_cons_iff _).2 ⟨0, more, left, right, rfl, Or.inl rfl, hrest⟩⟩
      have := hbound bound h
      omega

end Meaning

namespace Pattern

/-- Which texts a pattern matches between two characters. -/
def Matches : Pattern → Meaning
  | empty => fun _ text _ => text = []
  | char set => fun _ text _ => ∃ c, text = [c] ∧ set.contains c = true
  | edge kind => fun before text after => text = [] ∧ kind.lies before after = true
  | seq first second => first.Matches.seq second.Matches
  | either left right => fun before text after =>
      left.Matches before text after ∨ right.Matches before text after
  | repeated pattern least most => fun before text after =>
      ∃ count, least ≤ count ∧ (∀ bound ∈ most, count ≤ bound) ∧
        pattern.Matches.rounds count before text after

/-- Whether no repetition in a pattern has a least count above the most. -/
def Bounded : Pattern → Prop
  | empty => True
  | char _ => True
  | edge _ => True
  | seq first second => first.Bounded ∧ second.Bounded
  | either left right => left.Bounded ∧ right.Bounded
  | repeated pattern least most => pattern.Bounded ∧ ∀ bound ∈ most, least ≤ bound

variable {pattern first second : Pattern} {before after : Option Char} {c : Char}
  {text : List Char}

/-! ## One character -/

theorem matches_nil_iff (h : pattern.Bounded) :
    pattern.Matches before [] after ↔ pattern.isSatisfied before after = true := by
  induction pattern generalizing before after with
  | empty => simp [Matches, isSatisfied]
  | char set => simp [Matches, isSatisfied]
  | edge kind => simp [Matches, isSatisfied]
  | seq first second ihfirst ihsecond =>
      rw [Matches, Meaning.seq_nil_iff, isSatisfied, Bool.and_eq_true, ihfirst h.1, ihsecond h.2]
  | either left right ihleft ihright =>
      simp only [Matches, isSatisfied, Bool.or_eq_true, ihleft h.1, ihright h.2]
  | repeated pattern least most ih =>
      simp only [Matches, isSatisfied, Meaning.rounds_nil_iff, Bool.or_eq_true,
        decide_eq_true_eq, ih h.1]
      constructor
      · rintro ⟨count, hleast, -, rfl | hround⟩
        · exact Or.inl (Nat.le_zero.1 hleast)
        · exact Or.inr hround
      · rintro (rfl | hround)
        · exact ⟨0, Nat.le_refl 0, fun bound _ => Nat.zero_le bound, Or.inl rfl⟩
        · exact ⟨least, Nat.le_refl least, h.2, Or.inr hround⟩

theorem matches_andThen_iff :
    (first.andThen second).Matches before text after ↔
      first.Matches.seq second.Matches before text after := by
  unfold andThen
  split
  · constructor
    · intro h
      exact ⟨[], text, rfl, rfl, h⟩
    · rintro ⟨left, right, rfl, rfl, h⟩
      exact h
  · exact Iff.rfl

theorem Bounded.andThen (hfirst : first.Bounded) (hsecond : second.Bounded) :
    (first.andThen second).Bounded := by
  unfold Pattern.andThen
  split
  · exact hsecond
  · exact ⟨hfirst, hsecond⟩

theorem mem_rest_repeated_iff {least : Nat} {most : Option Nat} (other : Pattern) :
    other ∈ (repeated pattern least most).rest before c ↔
      most ≠ some 0 ∧ ∃ start ∈ pattern.rest before c,
        start.andThen (repeated pattern
          (if pattern.isSatisfied before (some c) then 0 else least - 1) (most.map (· - 1))) =
          other := by
  simp only [rest]
  split
  · next hzero => simp [hzero]
  · next hzero => simp [hzero]

/-- What a repetition leaves matches a text exactly if one of its rounds goes on to match and so
many more rounds match what is behind it. -/
theorem exists_mem_rest_repeated_iff {least : Nat} {most : Option Nat} :
    (∃ other ∈ (repeated pattern least most).rest before c, other.Matches (some c) text after) ↔
      ∃ more, (pattern.isSatisfied before (some c) = true ∨ least ≤ more + 1) ∧
        (∀ bound ∈ most, more < bound) ∧ ∃ left right, text = left ++ right ∧
          (∃ start ∈ pattern.rest before c, start.Matches (some c) left (right.head?.or after)) ∧
          pattern.Matches.rounds more (left.getLast?.or (some c)) right after := by
  constructor
  · rintro ⟨other, hother, hmatches⟩
    obtain ⟨hzero, start, hstart, rfl⟩ := (mem_rest_repeated_iff other).1 hother
    obtain ⟨left, right, rfl, hleft, more, hleast, hbound, hright⟩ :=
      matches_andThen_iff.1 hmatches
    refine ⟨more, ?_, fun bound hmem => ?_, left, right, rfl, ⟨start, hstart, hleft⟩, hright⟩
    · split at hleast
      · next hsatisfied => exact Or.inl hsatisfied
      · exact Or.inr (by omega)
    · -- one round less is left, and there was room for it since the bound is not zero
      have hle := hbound (bound - 1) (Option.map_eq_some_iff.2 ⟨bound, hmem, rfl⟩)
      have hpos : bound ≠ 0 := fun h => hzero (h ▸ hmem)
      omega
  · rintro ⟨more, henough, hbound, left, right, rfl, ⟨start, hstart, hleft⟩, hright⟩
    refine ⟨_, (mem_rest_repeated_iff _).2 ⟨fun hzero => ?_, start, hstart, rfl⟩,
      matches_andThen_iff.2 ⟨left, right, rfl, hleft, more, ?_, fun bound hmem => ?_, hright⟩⟩
    · exact absurd (hbound 0 hzero) (Nat.not_lt_zero more)
    · split
      · exact Nat.zero_le more
      · next hsatisfied =>
        have := henough.resolve_left hsatisfied
        omega
    · obtain ⟨most, hmost, rfl⟩ := Option.map_eq_some_iff.1 hmem
      exact Nat.le_sub_one_of_lt (hbound most hmost)

/-- What a pattern leaves after a character is bounded as it is. -/
theorem Bounded.rest (h : pattern.Bounded) :
    ∀ other ∈ pattern.rest before c, other.Bounded := by
  induction pattern with
  | empty => simp [Pattern.rest]
  | char set =>
      intro other hother
      rw [Pattern.rest] at hother
      split at hother
      · rw [List.mem_singleton.1 hother]
        trivial
      · cases hother
  | edge kind => simp [Pattern.rest]
  | seq first second ihfirst ihsecond =>
      have hafter : ∀ other ∈ (first.rest before c).map (·.andThen second), other.Bounded := by
        intro other hother
        obtain ⟨start, hstart, rfl⟩ := List.mem_map.1 hother
        exact (ihfirst h.1 start hstart).andThen h.2
      intro other hother
      simp only [Pattern.rest] at hother
      split at hother
      · rcases List.mem_append.1 hother with hother | hother
        · exact hafter other hother
        · exact ihsecond h.2 other hother
      · exact hafter other hother
  | either left right ihleft ihright =>
      intro other hother
      rcases List.mem_append.1 hother with hother | hother
      · exact ihleft h.1 other hother
      · exact ihright h.2 other hother
  | repeated pattern least most ih =>
      intro other hother
      obtain ⟨-, start, hstart, rfl⟩ := (mem_rest_repeated_iff other).1 hother
      refine (ih h.1 start hstart).andThen ⟨h.1, ?_⟩
      -- both counts go down by one, the least one perhaps to zero at once
      intro bound hbound
      obtain ⟨most, hmost, rfl⟩ := Option.map_eq_some_iff.1 hbound
      have hle : least ≤ most := h.2 most hmost
      split <;> omega

/-- A pattern matches on from a character exactly if one of those it leaves matches the rest. -/
theorem matches_cons_iff (h : pattern.Bounded) :
    pattern.Matches before (c :: text) after ↔
      ∃ other ∈ pattern.rest before c, other.Matches (some c) text after := by
  induction pattern generalizing before text after with
  | empty => simp [Matches, rest]
  | char set =>
      by_cases hset : set.contains c = true <;> simp [Matches, rest, hset]
  | edge kind => simp [Matches, rest]
  | seq first second ihfirst ihsecond =>
      -- the first part takes the character, or is empty and leaves it to the second one
      have hafter : (∃ left right, text = left ++ right ∧
            first.Matches before (c :: left) (right.head?.or after) ∧
            second.Matches (left.getLast?.or (some c)) right after) ↔
          ∃ other ∈ (first.rest before c).map (·.andThen second),
            other.Matches (some c) text after := by
        simp only [List.mem_map, exists_exists_and_eq_and, matches_andThen_iff, Meaning.seq,
          ihfirst h.1]
        constructor
        · rintro ⟨left, right, rfl, ⟨other, hother, hfirst⟩, hsecond⟩
          exact ⟨other, hother, left, right, rfl, hfirst, hsecond⟩
        · rintro ⟨other, hother, left, right, rfl, hfirst, hsecond⟩
          exact ⟨left, right, rfl, ⟨other, hother, hfirst⟩, hsecond⟩
      rw [Matches, Meaning.seq_cons_iff, hafter, matches_nil_iff h.1, ihsecond h.2]
      by_cases hsatisfied : first.isSatisfied before (some c) = true
      · simp only [rest, hsatisfied, true_and, if_true, List.mem_append, or_and_right,
          exists_or, or_comm]
      · simp only [rest, hsatisfied, false_and, false_or, Bool.false_eq_true, if_false]
  | either left right ihleft ihright =>
      simp only [Matches, rest, ihleft h.1, ihright h.2, List.mem_append, or_and_right, exists_or]
  | repeated pattern least most ih =>
      rw [exists_mem_rest_repeated_iff]
      simp only [Matches, Meaning.exists_rounds_cons_iff h.2, matches_nil_iff h.1, ih h.1]

/-! ## The search -/

/-- Whether a pattern matches a beginning of a text after a character. -/
def Begins (pattern : Pattern) (before : Option Char) (text : List Char) : Prop :=
  ∃ left right, text = left ++ right ∧ pattern.Matches before left right.head?

/-- Whether a pattern matches some stretch of a text after a character. -/
def Occurs (pattern : Pattern) (before : Option Char) (text : List Char) : Prop :=
  ∃ skipped others, text = skipped ++ others ∧
    pattern.Begins (skipped.getLast?.or before) others

theorem begins_nil_iff (h : pattern.Bounded) :
    pattern.Begins before [] ↔ pattern.isSatisfied before none = true := by
  rw [← matches_nil_iff h]
  constructor
  · rintro ⟨left, right, heq, hmatches⟩
    obtain ⟨rfl, rfl⟩ := List.append_eq_nil_iff.1 heq.symm
    exact hmatches
  · intro hmatches
    exact ⟨[], [], rfl, hmatches⟩

theorem begins_cons_iff (h : pattern.Bounded) :
    pattern.Begins before (c :: text) ↔
      pattern.isSatisfied before (some c) = true ∨
        ∃ other ∈ pattern.rest before c, other.Begins (some c) text := by
  rw [← matches_nil_iff h]
  constructor
  · rintro ⟨left, right, heq, hmatches⟩
    cases left with
    | nil =>
        obtain rfl : c :: text = right := heq
        exact Or.inl hmatches
    | cons d left =>
        obtain ⟨rfl, rfl⟩ := List.cons.inj heq
        obtain ⟨other, hother, hmatches⟩ := (matches_cons_iff h).1 hmatches
        exact Or.inr ⟨other, hother, left, right, rfl, hmatches⟩
  · rintro (hmatches | ⟨other, hother, left, right, rfl, hmatches⟩)
    · exact ⟨[], c :: text, rfl, hmatches⟩
    · exact ⟨c :: left, right, rfl, (matches_cons_iff h).2 ⟨other, hother, hmatches⟩⟩

theorem occurs_nil_iff : pattern.Occurs before [] ↔ pattern.Begins before [] := by
  constructor
  · rintro ⟨skipped, others, heq, hbegins⟩
    obtain ⟨rfl, rfl⟩ := List.append_eq_nil_iff.1 heq.symm
    exact hbegins
  · intro hbegins
    exact ⟨[], [], rfl, hbegins⟩

theorem occurs_cons_iff : pattern.Occurs before (c :: text) ↔
    pattern.Begins before (c :: text) ∨ pattern.Occurs (some c) text := by
  constructor
  · rintro ⟨skipped, others, heq, hbegins⟩
    cases skipped with
    | nil =>
        obtain rfl : c :: text = others := heq
        exact Or.inl hbegins
    | cons d skipped =>
        obtain ⟨rfl, rfl⟩ := List.cons.inj heq
        rw [Meaning.getLast?_cons_or] at hbegins
        exact Or.inr ⟨skipped, others, rfl, hbegins⟩
  · rintro (hbegins | ⟨skipped, others, rfl, hbegins⟩)
    · exact ⟨[], c :: text, rfl, hbegins⟩
    · rw [← Meaning.getLast?_cons_or before] at hbegins
      exact ⟨c :: skipped, others, rfl, hbegins⟩

/-- The patterns of a search go on from where the text is, and one more begins there. -/
theorem endsIn_iff (h : pattern.Bounded) {begun : List Pattern}
    (hbegun : ∀ other ∈ begun, other.Bounded) :
    pattern.endsIn before begun text = true ↔
      (∃ other ∈ begun, other.Begins before text) ∨ pattern.Occurs before text := by
  induction text generalizing before begun with
  | nil =>
      rw [endsIn, List.any_cons, Bool.or_eq_true, List.any_eq_true, occurs_nil_iff,
        begins_nil_iff h, or_comm]
      refine or_congr_left (exists_congr fun other => and_congr_right fun hother => ?_)
      exact (begins_nil_iff (hbegun other hother)).symm
  | cons c text ih =>
      have hall : ∀ other ∈ pattern :: begun, other.Bounded := List.forall_mem_cons.2 ⟨h, hbegun⟩
      have hrest : ∀ other ∈ ((pattern :: begun).flatMap (rest before c)).eraseDups,
          other.Bounded := by
        intro other hother
        obtain ⟨start, hstart, hother⟩ := List.mem_flatMap.1 (List.mem_eraseDups.1 hother)
        exact (hall start hstart).rest other hother
      -- one step of all patterns together
      have hstep : (∃ other ∈ pattern :: begun, other.Begins before (c :: text)) ↔
          (pattern :: begun).any (isSatisfied before (some c)) = true ∨
            ∃ other ∈ ((pattern :: begun).flatMap (rest before c)).eraseDups,
              other.Begins (some c) text := by
        simp only [List.any_eq_true, List.mem_eraseDups, List.mem_flatMap]
        constructor
        · rintro ⟨start, hstart, hbegins⟩
          rcases (begins_cons_iff (hall start hstart)).1 hbegins with hbegins | ⟨other, hother, hb⟩
          · exact Or.inl ⟨start, hstart, hbegins⟩
          · exact Or.inr ⟨other, ⟨start, hstart, hother⟩, hb⟩
        · rintro (⟨start, hstart, hbegins⟩ | ⟨other, ⟨start, hstart, hother⟩, hb⟩)
          · exact ⟨start, hstart, (begins_cons_iff (hall start hstart)).2 (Or.inl hbegins)⟩
          · exact ⟨start, hstart, (begins_cons_iff (hall start hstart)).2
              (Or.inr ⟨other, hother, hb⟩)⟩
      rw [endsIn, Bool.or_eq_true, ih hrest, ← or_assoc, ← hstep, occurs_cons_iff,
        List.exists_mem_cons_iff, or_comm (a := pattern.Begins before (c :: text)), or_assoc]

/-- A search succeeds exactly if some stretch of the text matches between its neighbours. -/
theorem matchesIn_iff (h : pattern.Bounded) (text : String) :
    pattern.matchesIn text = true ↔
      ∃ skipped left right, text.toList = skipped ++ (left ++ right) ∧
        pattern.Matches skipped.getLast? left right.head? := by
  rw [matchesIn, endsIn_iff h (List.forall_mem_nil _)]
  simp only [List.not_mem_nil, false_and, exists_false, false_or, Occurs, Begins, Option.or_none]
  constructor
  · rintro ⟨skipped, _, heq, left, right, rfl, hmatches⟩
    exact ⟨skipped, left, right, heq, hmatches⟩
  · rintro ⟨skipped, left, right, heq, hmatches⟩
    exact ⟨skipped, _, heq, left, right, rfl, hmatches⟩

end Pattern

end Excision
