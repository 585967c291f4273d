import Excision.Proofs.Declarations
import Excision.Proofs.Matching
import Excision.Proofs.Reading

/-!
# The grammar of declarations

A line declares a name if it is put together of blanks, a modifier, blanks that are not empty, the
name, blanks, an opening parenthesis, and anything (`Declaration.InGrammar`). Modifiers and names
are any texts here. They may begin or end with blanks, hold characters that mean something in
patterns, or be beginnings of each other.

The written pattern is read (`Pattern.read_declaration`), and each of its parts matches the part of
a line that it is written for. So the pattern is found in a line exactly if the line is in the
grammar, and `Declaration.declares` accepts the same lines (`Declaration.pattern_exact`). Since the
grammar asks only which modifiers there are, neither their order nor how often they are listed
makes a difference.
-/

set_option autoImplicit false

namespace Excision

namespace Pattern

open Meaning

variable {pattern : Pattern} {patterns : List Pattern} {before after : Option Char} {c : Char}
  {set : CharSet} {text : List Char}

/-! ## The parts of a pattern -/

theorem matches_ofList_cons_iff : (ofList (pattern :: patterns)).Matches before text after ↔
    (pattern.Matches.seq (ofList patterns).Matches) before text after :=
  matches_andThen_iff

theorem bounded_ofList (h : ∀ pattern ∈ patterns, pattern.Bounded) : (ofList patterns).Bounded := by
  induction patterns with
  | nil => trivial
  | cons pattern patterns ih =>
      obtain ⟨hpattern, hpatterns⟩ := List.forall_mem_cons.1 h
      exact hpattern.andThen (ih hpatterns)

theorem contains_one_iff {d : Char} : (CharSet.one c).contains d = true ↔ d = c := by
  rw [CharSet.one, CharSet.contains, Bool.and_eq_true, decide_eq_true_eq, decide_eq_true_eq,
    ← Char.toNat_inj]
  omega

/-- A word is matched by itself alone. -/
theorem matches_literal_append_iff (word : List Char) :
    (ofList (literal word ++ patterns)).Matches before text after ↔
      ∃ others, text = word ++ others ∧
        (ofList patterns).Matches (word.getLast?.or before) others after := by
  induction word generalizing before text with
  | nil => simp [literal]
  | cons c word ih =>
      have hcons : literal (c :: word) ++ patterns =
          .char (.one c) :: (literal word ++ patterns) := rfl
      rw [hcons, matches_ofList_cons_iff, getLast?_cons_or]
      -- a character of the word takes one character of the text, itself
      constructor
      · rintro ⟨left, right, rfl, ⟨d, rfl, hd⟩, hright⟩
        obtain rfl := contains_one_iff.1 hd
        obtain ⟨others, rfl, hothers⟩ := ih.1 hright
        exact ⟨others, rfl, hothers⟩
      · rintro ⟨others, rfl, hothers⟩
        exact ⟨[c], word ++ others, rfl, ⟨c, rfl, contains_one_iff.2 rfl⟩,
          ih.2 ⟨others, rfl, hothers⟩⟩

theorem matches_literal_iff (word : List Char) :
    (ofList (literal word)).Matches before text after ↔ text = word := by
  rw [← List.append_nil (literal word), matches_literal_append_iff]
  constructor
  · rintro ⟨others, rfl, rfl⟩
    exact List.append_nil word
  · rintro rfl
    exact ⟨[], (List.append_nil text).symm, rfl⟩

theorem rounds_char_iff (count : Nat) :
    (Pattern.char set).Matches.rounds count before text after ↔
      text.length = count ∧ ∀ c ∈ text, set.contains c = true := by
  induction count generalizing before text with
  | zero =>
      rw [rounds, List.length_eq_zero_iff]
      constructor
      · rintro rfl
        exact ⟨rfl, List.forall_mem_nil _⟩
      · exact And.left
  | succ count ih =>
      constructor
      · rintro ⟨left, right, rfl, ⟨c, rfl, hc⟩, hright⟩
        obtain ⟨hlength, hall⟩ := ih.1 hright
        exact ⟨congrArg (· + 1) hlength, List.forall_mem_cons.2 ⟨hc, hall⟩⟩
      · rintro ⟨hlength, hall⟩
        obtain ⟨c, right, rfl⟩ := List.exists_cons_of_length_eq_add_one hlength
        obtain ⟨hc, hall⟩ := List.forall_mem_cons.1 hall
        exact ⟨[c], right, rfl, ⟨c, rfl, hc⟩, ih.2 ⟨Nat.succ.inj hlength, hall⟩⟩

theorem matches_blanks_iff (least : Nat) :
    (blanks least).Matches before text after ↔
      least ≤ text.length ∧ ∀ c ∈ text, Text.isBlank c = true := by
  constructor
  · rintro ⟨count, hleast, -, hrounds⟩
    obtain ⟨rfl, hall⟩ := (rounds_char_iff count).1 hrounds
    exact ⟨hleast, hall⟩
  · rintro ⟨hleast, hall⟩
    exact ⟨text.length, hleast, by simp, (rounds_char_iff _).2 ⟨rfl, hall⟩⟩

theorem matches_anyOf_iff :
    (anyOf pattern patterns).Matches before text after ↔
      pattern.Matches before text after ∨ ∃ other ∈ patterns, other.Matches before text after := by
  rw [anyOf]
  induction patterns generalizing pattern with
  | nil => simp
  | cons other patterns ih =>
      rw [List.foldl_cons, ih, List.exists_mem_cons_iff, ← or_assoc]
      rfl

theorem branch_foldl_add (group : OpenGroup) (hitems : group.items = [])
    (patterns : List Pattern) : (patterns.foldl OpenGroup.add group).branch = ofList patterns := by
  rw [foldl_add]
  simp [OpenGroup.branch, hitems]

theorem branches_foldl_add (group : OpenGroup) (patterns : List Pattern) :
    (patterns.foldl OpenGroup.add group).branches = group.branches := by
  rw [foldl_add]

/-- Words with bars between them match any of the words, or the empty one if there is none. -/
theorem matches_closed_afterAlternatives_iff (group : OpenGroup) (hitems : group.items = [])
    (words : List (List Char)) :
    (afterAlternatives group words).closed.Matches before text after ↔
      (∃ other ∈ group.branches, other.Matches before text after) ∨ text ∈ words ∨
        words = [] ∧ text = [] := by
  induction group, words using afterAlternatives.induct with
  | case1 group =>
      rw [afterAlternatives, OpenGroup.closed, matches_anyOf_iff, OpenGroup.branch, hitems, or_comm]
      simp [ofList, Matches]
  | case2 group word =>
      rw [afterAlternatives, OpenGroup.closed, matches_anyOf_iff, branch_foldl_add group hitems,
        matches_literal_iff, branches_foldl_add, or_comm]
      simp
  | case3 group word words hne ih =>
      -- the bar has made a branch of the first word
      have hwords : words ≠ [] := hne
      rw [afterAlternatives.eq_3 _ _ _ hne, ih rfl, OpenGroup.divided, List.exists_mem_cons_iff,
        branch_foldl_add group hitems, matches_literal_iff, branches_foldl_add, or_assoc,
        or_left_comm, List.mem_cons]
      simp [hwords]

theorem bounded_literal (word : List Char) : ∀ pattern ∈ literal word, pattern.Bounded := by
  intro pattern h
  obtain ⟨c, -, rfl⟩ := List.mem_map.1 h
  trivial

theorem bounded_blanks (least : Nat) : (blanks least).Bounded :=
  ⟨trivial, fun _ h => by cases h⟩

theorem bounded_anyOf (h : pattern.Bounded) (hpatterns : ∀ other ∈ patterns, other.Bounded) :
    (anyOf pattern patterns).Bounded := by
  rw [anyOf]
  induction patterns generalizing pattern with
  | nil => exact h
  | cons other patterns ih =>
      obtain ⟨hother, hpatterns⟩ := List.forall_mem_cons.1 hpatterns
      exact ih ⟨h, hother⟩ hpatterns

theorem bounded_closed_afterAlternatives (group : OpenGroup) (hitems : group.items = [])
    (hbranches : ∀ other ∈ group.branches, other.Bounded) (words : List (List Char)) :
    (afterAlternatives group words).closed.Bounded := by
  induction group, words using afterAlternatives.induct with
  | case1 group =>
      rw [afterAlternatives, OpenGroup.closed, OpenGroup.branch, hitems]
      exact bounded_anyOf trivial hbranches
  | case2 group word =>
      rw [afterAlternatives, OpenGroup.closed, branch_foldl_add group hitems, branches_foldl_add]
      exact bounded_anyOf (bounded_ofList (bounded_literal word)) hbranches
  | case3 group word words hne ih =>
      rw [afterAlternatives.eq_3 _ _ _ hne]
      refine ih rfl ?_
      rw [OpenGroup.divided, branch_foldl_add group hitems, branches_foldl_add]
      exact List.forall_mem_cons.2 ⟨bounded_ofList (bounded_literal word), hbranches⟩

/-! ## The whole pattern -/

/-- The pattern matches at the start of a text what its parts match one after the other. -/
theorem matches_declarationParts_iff (place : Span) (modifiers : List (List Char))
    (name : List Char) :
    (ofList (declarationParts place modifiers name)).Matches before text after ↔
      before = none ∧ ∃ start modifier gap space,
        text = start ++ (modifier ++ (gap ++ (name ++ (space ++ ['('])))) ∧
          (∀ c ∈ start, Text.isBlank c = true) ∧
          (modifier ∈ modifiers ∨ modifiers = [] ∧ modifier = []) ∧
          (1 ≤ gap.length ∧ ∀ c ∈ gap, Text.isBlank c = true) ∧
          ∀ c ∈ space, Text.isBlank c = true := by
  have hgroup {before after : Option Char} {text : List Char} :
      (afterAlternatives ⟨place, {}, [], []⟩ modifiers).closed.Matches before text after ↔
        text ∈ modifiers ∨ modifiers = [] ∧ text = [] := by
    simp [matches_closed_afterAlternatives_iff]
  -- part by part, each of which says what it takes of the text
  constructor
  · intro h
    obtain ⟨_, _, rfl, ⟨rfl, hedge⟩, h⟩ := matches_ofList_cons_iff.1 h
    obtain ⟨start, _, rfl, hstart, h⟩ := matches_ofList_cons_iff.1 h
    obtain ⟨modifier, _, rfl, hmodifier, h⟩ := matches_ofList_cons_iff.1 h
    obtain ⟨gap, _, rfl, hgap, h⟩ := matches_ofList_cons_iff.1 h
    obtain ⟨_, rfl, htail⟩ := (matches_literal_append_iff name).1 h
    obtain ⟨space, _, rfl, hspace, hlast⟩ := matches_ofList_cons_iff.1 htail
    obtain ⟨_, _, rfl, ⟨c, rfl, hc⟩, rfl⟩ := matches_ofList_cons_iff.1 hlast
    obtain rfl := contains_one_iff.1 hc
    exact ⟨Option.isNone_iff_eq_none.1 hedge, start, modifier, gap, space, rfl,
      ((matches_blanks_iff 0).1 hstart).2, hgroup.1 hmodifier, (matches_blanks_iff 1).1 hgap,
      ((matches_blanks_iff 0).1 hspace).2⟩
  · rintro ⟨rfl, start, modifier, gap, space, rfl, hstart, hmodifier, hgap, hspace⟩
    refine matches_ofList_cons_iff.2 ⟨[], _, rfl, ⟨rfl, rfl⟩, ?_⟩
    refine matches_ofList_cons_iff.2 ⟨start, _, rfl,
      (matches_blanks_iff 0).2 ⟨Nat.zero_le _, hstart⟩, ?_⟩
    refine matches_ofList_cons_iff.2 ⟨modifier, _, rfl, hgroup.2 hmodifier, ?_⟩
    refine matches_ofList_cons_iff.2 ⟨gap, _, rfl, (matches_blanks_iff 1).2 hgap, ?_⟩
    refine (matches_literal_append_iff name).2 ⟨_, rfl, ?_⟩
    refine matches_ofList_cons_iff.2 ⟨space, _, rfl,
      (matches_blanks_iff 0).2 ⟨Nat.zero_le _, hspace⟩, ?_⟩
    exact matches_ofList_cons_iff.2 ⟨['('], [], rfl, ⟨'(', rfl, contains_one_iff.2 rfl⟩, rfl⟩

theorem bounded_declarationParts (place : Span) (modifiers : List (List Char)) (name : List Char) :
    (ofList (declarationParts place modifiers name)).Bounded := by
  apply bounded_ofList
  intro pattern h
  rw [declarationParts] at h
  simp only [List.mem_cons, List.mem_append, List.not_mem_nil, or_false] at h
  rcases h with rfl | rfl | rfl | rfl | h | rfl | rfl
  · trivial
  · exact bounded_blanks 0
  · exact bounded_closed_afterAlternatives _ rfl (List.forall_mem_nil _) modifiers
  · exact bounded_blanks 1
  · exact bounded_literal name pattern h
  · exact bounded_blanks 0
  · trivial

end Pattern

namespace Declaration

/-- Whether all characters of a text are blank. -/
def IsBlankText (text : String) : Prop := ∀ c ∈ text.toList, Text.isBlank c = true

/-- Whether a line is put together of blanks, a modifier or nothing where there is none, blanks
that are not empty, a name, blanks, an opening parenthesis, and anything. -/
def InGrammar (modifiers : List String) (name line : String) : Prop :=
  ∃ w m s t rest : String, line = w ++ m ++ s ++ name ++ t ++ "(" ++ rest ∧
    IsBlankText w ∧ IsBlankText t ∧ s ≠ "" ∧ IsBlankText s ∧
    (m ∈ modifiers ∨ modifiers = [] ∧ m = "")

theorem mem_alternatives_iff (modifiers : List String) (modifier : String) :
    modifier.toList ∈ alternatives modifiers ↔
      modifier ∈ modifiers ∨ modifiers = [] ∧ modifier = "" := by
  cases modifiers with
  | nil => simp [alternatives]
  | cons first others => simp [alternatives, String.toList_inj]

theorem mem_alternatives_iff_mem_map (modifiers : List String) (text : List Char) :
    text ∈ alternatives modifiers ↔
      text ∈ modifiers.map String.toList ∨ modifiers.map String.toList = [] ∧ text = [] := by
  cases modifiers with
  | nil => simp [alternatives]
  | cons first others => simp [alternatives]

/-- The grammar, for lines as lists of characters. -/
theorem inGrammar_iff (modifiers : List String) (name line : String) :
    InGrammar modifiers name line ↔
      ∃ blanks text, line.toList = blanks ++ text ∧ (∀ c ∈ blanks, Text.isBlank c = true) ∧
        Declares (alternatives modifiers) name.toList text := by
  constructor
  · rintro ⟨w, m, s, t, rest, rfl, hw, ht, hne, hs, hm⟩
    refine ⟨w.toList, _, ?_, hw, m.toList, (mem_alternatives_iff modifiers m).2 hm, s.toList,
      t.toList, rest.toList, rfl, mt String.toList_eq_nil_iff.1 hne, hs, ht⟩
    have hopening : "(".toList = ['('] := rfl
    simp only [String.toList_append, hopening, List.append_assoc, List.cons_append,
      List.nil_append]
  · rintro ⟨w, _, hline, hw, m, hm, s, t, rest, rfl, hne, hs, ht⟩
    refine ⟨String.ofList w, String.ofList m, String.ofList s, String.ofList t,
      String.ofList rest, ?_, ?_, ?_, ?_, ?_, ?_⟩
    · have hopening : "(".toList = ['('] := rfl
      rw [← String.toList_inj, hline]
      simp only [String.toList_append, String.toList_ofList, hopening, List.append_assoc,
        List.cons_append, List.nil_append]
    · rwa [IsBlankText, String.toList_ofList]
    · rwa [IsBlankText, String.toList_ofList]
    · rwa [ne_eq, ← String.toList_eq_nil_iff, String.toList_ofList]
    · rwa [IsBlankText, String.toList_ofList]
    · rwa [← mem_alternatives_iff, String.toList_ofList]

/-- The pattern is found in a line exactly if the line is in the grammar. -/
theorem matchesIn_iff_inGrammar (place : Pattern.Span) (modifiers : List String)
    (name line : String) :
    (Pattern.ofList (Pattern.declarationParts place (modifiers.map String.toList)
      name.toList)).matchesIn line = true ↔ InGrammar modifiers name line := by
  rw [Pattern.matchesIn_iff (Pattern.bounded_declarationParts _ _ _), inGrammar_iff]
  simp only [Pattern.matches_declarationParts_iff, List.getLast?_eq_none_iff,
    ← mem_alternatives_iff_mem_map]
  -- nothing may be skipped, since there is no character before the start of the text
  constructor
  · rintro ⟨_, _, rest, hline, rfl, start, modifier, gap, space, rfl, hstart, hmodifier, hgap,
      hspace⟩
    refine ⟨start, _, hline.trans ?_, hstart, modifier, hmodifier, gap, space, rest, rfl,
      List.length_pos_iff.1 hgap.1, hgap.2, hspace⟩
    simp only [List.append_assoc, List.cons_append, List.nil_append]
  · rintro ⟨start, _, hline, hstart, modifier, hmodifier, gap, space, rest, rfl, hne, hgap, hspace⟩
    refine ⟨[], _, rest, hline.trans ?_, rfl, start, modifier, gap, space, rfl, hstart, hmodifier,
      ⟨List.length_pos_iff.2 hne, hgap⟩, hspace⟩
    simp only [List.append_assoc, List.cons_append, List.nil_append]

theorem declares_iff_inGrammar (modifiers : List String) (name line : String) :
    declares modifiers name line = true ↔ InGrammar modifiers name line := by
  rw [declares_iff, inGrammar_iff]

/-- The grammar asks only which modifiers there are. -/
theorem inGrammar_congr {modifiers others : List String}
    (h : ∀ modifier, modifier ∈ modifiers ↔ modifier ∈ others) (name line : String) :
    InGrammar modifiers name line ↔ InGrammar others name line := by
  have hnil : modifiers = [] ↔ others = [] := by
    simp only [List.eq_nil_iff_forall_not_mem, h]
  simp only [InGrammar, h, hnil]

/-- **The pattern of declarations accepts exactly its grammar.** It can be read, whatever the
modifiers and the name are; it is found in exactly the lines of the grammar, which are those that
are taken for declarations; and other modifiers make no difference to either, if they are the same
ones in another order or number. -/
theorem pattern_exact (modifiers : List String) (name : String) :
    ∃ pattern, Pattern.read (Declaration.pattern modifiers name) = .ok pattern ∧
      (∀ line, pattern.matchesIn line = true ↔ InGrammar modifiers name line) ∧
      (∀ line, declares modifiers name line = pattern.matchesIn line) ∧
      ∀ others : List String, (∀ modifier, modifier ∈ modifiers ↔ modifier ∈ others) →
        ∃ other, Pattern.read (Declaration.pattern others name) = .ok other ∧
          ∀ line, other.matchesIn line = pattern.matchesIn line ∧
            declares others name line = declares modifiers name line := by
  have hread (modifiers : List String) : ∃ pattern,
      Pattern.read (Declaration.pattern modifiers name) = .ok pattern ∧
        ∀ line, pattern.matchesIn line = true ↔ InGrammar modifiers name line := by
    obtain ⟨place, hplace⟩ := Pattern.read_declaration modifiers name
    exact ⟨_, hplace, fun line => matchesIn_iff_inGrammar place modifiers name line⟩
  obtain ⟨pattern, hpattern, hmatches⟩ := hread modifiers
  refine ⟨pattern, hpattern, hmatches, fun line => ?_, fun others hothers => ?_⟩
  · rw [Bool.eq_iff_iff, hmatches, declares_iff_inGrammar]
  · obtain ⟨other, hother, hmatches'⟩ := hread others
    refine ⟨other, hother, fun line => ⟨?_, ?_⟩⟩
    · rw [Bool.eq_iff_iff, hmatches', hmatches, inGrammar_congr hothers]
    · rw [Bool.eq_iff_iff, declares_iff_inGrammar, declares_iff_inGrammar, inGrammar_congr hothers]

/-- One modifier begins another one and ends in a blank, and the name has a bar in it. -/
theorem pattern_exact_on_repeated_modifiers :
    (∀ modifier : String, modifier ∈ ["static", "static void "] ↔
        modifier ∈ ["static void ", "static", "static void "]) ∧
      ∃ pattern other,
        Pattern.read (Declaration.pattern ["static", "static void "] "f|g") = .ok pattern ∧
        Pattern.read (Declaration.pattern ["static void ", "static", "static void "] "f|g") =
          .ok other ∧
        ∀ line, other.matchesIn line = pattern.matchesIn line := by
  have hsame : ∀ modifier : String, modifier ∈ ["static", "static void "] ↔
      modifier ∈ ["static void ", "static", "static void "] := by
    intro modifier
    simp only [List.mem_cons, List.not_mem_nil, or_false]
    constructor
    · rintro (h | h)
      · exact Or.inr (Or.inl h)
      · exact Or.inl h
    · rintro (h | h | h)
      · exact Or.inr h
      · exact Or.inl h
      · exact Or.inr h
  obtain ⟨pattern, hpattern, -, -, hothers⟩ := pattern_exact ["static", "static void "] "f|g"
  obtain ⟨other, hother, hlines⟩ := hothers ["static void ", "static", "static void "] hsame
  exact ⟨hsame, pattern, other, hpattern, hother, fun line => (hlines line).1⟩

end Declaration

end Excision
