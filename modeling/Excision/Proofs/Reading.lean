import Excision.Declaration
import Excision.Pattern.Reader

/-!
# How a written pattern is read

The reader takes a text piece by piece. Between two pieces it stands in a group, inside of the
groups that are open, before the rest of the text. `Pattern.Leads` says that it gets from one such
place to another, whatever comes of it there. There is one lemma for every kind of piece that the
pattern of declarations is made of, and the reading of the whole is put together from them
(`Pattern.read_declaration`).

Words are read literally (`Pattern.Leads.word`): a character that means something of its own has a
backslash before it, and any other one stands for itself. So the reader sees in a word neither the
end of the word nor anything else that its characters could mean, and this is all that the words of
a declaration are asked for: they may hold bars, parentheses, blanks and newlines.
-/

set_option autoImplicit false

namespace Excision.Pattern

/-! ## Places of the reader -/

/-- Whether reading on at one place is reading on at another: in a group inside of others, before
the rest of the text. There are enough steps at the second place if there are at the first. -/
def Leads (group : OpenGroup) (outer : List OpenGroup) (text : List Char) (group' : OpenGroup)
    (outer' : List OpenGroup) (text' : List Char) : Prop :=
  ∀ steps, text.length < steps → ∃ steps', text'.length < steps' ∧
    readRest steps [] group outer text = readRest steps' [] group' outer' text'

variable {group group' group'' : OpenGroup} {outer outer' outer'' : List OpenGroup}
  {text text' text'' : List Char} {c : Char}

namespace Leads

theorem refl : Leads group outer text group outer text :=
  fun steps h => ⟨steps, h, rfl⟩

theorem trans (h : Leads group outer text group' outer' text')
    (h' : Leads group' outer' text' group'' outer'' text'') :
    Leads group outer text group'' outer'' text'' := by
  intro steps hsteps
  obtain ⟨steps', hsteps', heq⟩ := h steps hsteps
  obtain ⟨steps'', hsteps'', heq'⟩ := h' steps' hsteps'
  exact ⟨steps'', hsteps'', heq.trans heq'⟩

/-- One step that takes characters leads on. -/
theorem of_step (hlength : text'.length < text.length)
    (h : ∀ steps, readRest (steps + 1) [] group outer text =
      readRest steps [] group' outer' text') :
    Leads group outer text group' outer' text' := by
  intro steps hsteps
  obtain ⟨steps, rfl⟩ := Nat.exists_eq_add_of_lt (Nat.zero_lt_of_lt hsteps)
  exact ⟨0 + steps, by omega, h (0 + steps)⟩

end Leads

/-! ## Single pieces

No flag is set in the groups here. -/

theorem Flags.skip_default (text : List Char) : ({} : Flags).skip text = text := rfl

/-- The signs before which no item is read: those of groups, branches and repetitions. -/
def signs : List Char := ['(', ')', '|', '\x7b', '?', '*', '+']

/-- An item is added to the group. -/
theorem Leads.item {pattern : Pattern} (hflags : group.flags = {}) (hsign : c ∉ signs)
    (hitem : Pattern.item {} (c :: text) = .ok (pattern, text'))
    (hlength : text'.length < (c :: text).length) :
    Leads group outer (c :: text) (group.add pattern) outer text' := by
  refine .of_step hlength fun steps => ?_
  -- the reader tries the signs first, and none of them is here
  have hcount : countOf? c = none := by
    unfold countOf?
    split
    · exact absurd (by decide) hsign
    · exact absurd (by decide) hsign
    · exact absurd (by decide) hsign
    · rfl
  rw [readRest.eq_def (steps + 1)]
  simp only [hflags, Flags.skip_default]
  split
  · next h => cases h
  · next h => cases h; exact absurd (by decide) hsign
  · next h => cases h; exact absurd (by decide) hsign
  · next h => cases h; exact absurd (by decide) hsign
  · next h => cases h; exact absurd (by decide) hsign
  · next h =>
    cases h
    rw [hcount, hitem]
    rfl

/-- A character that means something of its own stands for itself after a backslash. -/
theorem item_of_isMeta (hmeta : Declaration.isMeta c = true) (text : List Char) :
    Pattern.item {} ('\\' :: c :: text) = .ok (.char (.one c), text) := by
  have hescape : Pattern.escape ('\\' :: c :: text) (c :: text) = .ok (.literal c, text) := by
    -- none of them starts a class or an anchor behind a backslash
    simp only [Declaration.isMeta, decide_eq_true_eq, List.mem_cons, List.not_mem_nil,
      or_false] at hmeta
    rcases hmeta with rfl | rfl | rfl | rfl | rfl | rfl | rfl | rfl | rfl | rfl | rfl | rfl | rfl |
      rfl | rfl | rfl | rfl | rfl <;> rfl
  rw [Pattern.item, hescape]
  rfl

/-- A character that means nothing of its own stands for itself. -/
theorem item_of_not_isMeta (hmeta : Declaration.isMeta c = false) (text : List Char) :
    Pattern.item {} (c :: text) = .ok (.char (.one c), text) := by
  unfold Pattern.item
  split
  · next h => cases h
  · next h => cases h; cases hmeta
  · next h => cases h; cases hmeta
  · next h => cases h; cases hmeta
  · next h => cases h; cases hmeta
  · next h => cases h; cases hmeta
  · next h => cases h; rfl

theorem isMeta_of_mem_signs : ∀ c ∈ signs, Declaration.isMeta c = true := by
  intro c h
  simp only [signs, List.mem_cons, List.not_mem_nil, or_false] at h
  rcases h with rfl | rfl | rfl | rfl | rfl | rfl | rfl <;> rfl

/-- A character of a word is read as itself. -/
theorem Leads.escaped (hflags : group.flags = {}) (c : Char) (text : List Char) :
    Leads group outer (Declaration.escape [c] ++ text) (group.add (.char (.one c))) outer text := by
  cases hmeta : Declaration.isMeta c with
  | false =>
      have hsign : c ∉ signs := fun h => by simp [isMeta_of_mem_signs c h] at hmeta
      rw [Declaration.escape, hmeta]
      exact .item hflags hsign (item_of_not_isMeta hmeta text) (Nat.lt_succ_self _)
  | true =>
      rw [Declaration.escape, hmeta]
      exact .item hflags (by decide) (item_of_isMeta hmeta text)
        (Nat.lt_succ_of_lt (Nat.lt_succ_self _))

/-- A repetition applies to the item before it. A question mark after it would belong to it. -/
theorem Leads.repetition {pattern : Pattern} {count : Count} (hflags : group.flags = {})
    (hcount : countOf? c = some count) (hnext : text.head? ≠ some '?') :
    Leads (group.add pattern) outer (c :: text)
      (group.add (.repeated pattern count.least count.most)) outer text := by
  refine .of_step (Nat.lt_succ_self _) fun steps => ?_
  have hflags' : (group.add pattern).flags = {} := hflags
  rw [readRest.eq_def (steps + 1)]
  simp only [hflags', Flags.skip_default]
  split
  · next h => cases h
  · next h => cases h; cases hcount
  · next h => cases h; cases hcount
  · next h => cases h; cases hcount
  · next h => cases h; cases hcount
  · next h =>
    cases h
    rw [hcount, if_neg hnext]
    rfl

/-- A group without a name opens. -/
theorem Leads.parenthesis (hflags : group.flags = {}) (text : List Char) :
    Leads group outer ('(' :: '?' :: ':' :: text)
      ⟨.ofHead ('(' :: '?' :: ':' :: text), {}, [], []⟩ (group :: outer) text := by
  refine .of_step (by simp only [List.length_cons]; omega) fun steps => ?_
  rw [readRest.eq_def (steps + 1)]
  simp only [hflags, Flags.skip_default]
  rfl

/-- A branch ends. -/
theorem Leads.bar (hflags : group.flags = {}) :
    Leads group outer ('|' :: text) group.divided outer text := by
  refine .of_step (Nat.lt_succ_self _) fun steps => ?_
  rw [readRest.eq_def (steps + 1)]
  simp only [hflags, Flags.skip_default]

/-- The innermost group closes, as an item of the group around it. -/
theorem Leads.close {parent : OpenGroup} (hflags : group.flags = {}) :
    Leads group (parent :: outer) (')' :: text) (parent.add group.closed) outer text := by
  refine .of_step (Nat.lt_succ_self _) fun steps => ?_
  rw [readRest.eq_def (steps + 1)]
  simp only [hflags, Flags.skip_default]

/-- What the outermost group holds at the end is the pattern. -/
theorem read_eq_closed {text : String} (hflags : group.flags = {})
    (h : Leads ⟨⟨0, 0⟩, {}, [], []⟩ [] text.toList group [] []) :
    read text = .ok group.closed := by
  obtain ⟨steps, hsteps, heq⟩ := h (text.length + 1) (Nat.lt_succ_self _)
  cases steps with
  | zero => exact absurd hsteps (Nat.lt_irrefl 0)
  | succ steps =>
      rw [read, heq, readRest.eq_def]
      simp only [hflags, Flags.skip_default]

/-! ## Words and alternatives -/

/-- A word as patterns, one for each character. -/
def literal (word : List Char) : List Pattern := word.map fun c => .char (.one c)

theorem foldl_add (group : OpenGroup) (patterns : List Pattern) :
    patterns.foldl OpenGroup.add group =
      { group with items := patterns.reverse.map some ++ group.items } := by
  induction patterns generalizing group with
  | nil => rfl
  | cons pattern patterns ih =>
      rw [List.foldl_cons, ih]
      simp [OpenGroup.add]

theorem flags_foldl_add (group : OpenGroup) (patterns : List Pattern) :
    (patterns.foldl OpenGroup.add group).flags = group.flags := by
  rw [foldl_add]

/-- A group of which only one branch was read is this branch. -/
theorem closed_foldl_add (place : Span) (patterns : List Pattern) :
    (patterns.foldl OpenGroup.add ⟨place, {}, [], []⟩).closed = ofList patterns := by
  rw [foldl_add]
  simp [OpenGroup.closed, OpenGroup.branch, anyOf]

theorem Leads.word (hflags : group.flags = {}) (word text : List Char) :
    Leads group outer (Declaration.escape word ++ text)
      ((literal word).foldl OpenGroup.add group) outer text := by
  induction word generalizing group with
  | nil => exact .refl
  | cons c word ih =>
      have hword : Declaration.escape (c :: word) ++ text =
          Declaration.escape [c] ++ (Declaration.escape word ++ text) := by
        cases hmeta : Declaration.isMeta c <;> simp [Declaration.escape, hmeta]
      rw [hword]
      exact (Leads.escaped hflags c _).trans (ih hflags)

/-- A group after words with bars between neighbours. -/
def afterAlternatives (group : OpenGroup) : List (List Char) → OpenGroup
  | [] => group
  | [word] => (literal word).foldl OpenGroup.add group
  | word :: words => afterAlternatives ((literal word).foldl OpenGroup.add group).divided words

theorem flags_afterAlternatives (group : OpenGroup) (words : List (List Char)) :
    (afterAlternatives group words).flags = group.flags := by
  induction group, words using afterAlternatives.induct with
  | case1 group => rfl
  | case2 group word => exact flags_foldl_add group _
  | case3 group word words hne ih =>
      rw [afterAlternatives.eq_3 _ _ _ hne, ih]
      exact flags_foldl_add group _

theorem Leads.alternatives (hflags : group.flags = {}) (words : List (List Char))
    (text : List Char) :
    Leads group outer (Declaration.joinAlternatives (words.map Declaration.escape) ++ text)
      (afterAlternatives group words) outer text := by
  induction group, words using afterAlternatives.induct with
  | case1 => exact .refl
  | case2 group word => exact .word hflags word text
  | case3 group word words hne ih =>
      have hword := (flags_foldl_add group (literal word)).trans hflags
      have hne' : words.map Declaration.escape = [] → False :=
        fun h => hne (List.map_eq_nil_iff.1 h)
      rw [List.map_cons, Declaration.joinAlternatives.eq_3 _ _ hne', List.append_assoc,
        afterAlternatives.eq_3 _ _ _ hne]
      exact (Leads.word hflags word _).trans ((Leads.bar hword).trans (ih hword))

/-! ## The pattern of declarations -/

/-- So many blank characters at least. -/
def blanks (least : Nat) : Pattern := .repeated (.char .blank) least none

theorem Leads.blanks (least : Nat) (hflags : group.flags = {})
    (hcount : countOf? c = some ⟨least, none⟩) (hnext : text.head? ≠ some '?') :
    Leads group outer ('\\' :: 's' :: c :: text) (group.add (Pattern.blanks least)) outer text :=
  (Leads.item hflags (by decide) rfl (Nat.lt_succ_of_lt (Nat.lt_succ_self _))).trans
    (.repetition hflags hcount hnext)

/-- No word starts with a question mark when it is escaped. -/
theorem head?_escape_append (word : List Char) (h : text.head? ≠ some '?') :
    (Declaration.escape word ++ text).head? ≠ some '?' := by
  cases word with
  | nil => exact h
  | cons c word =>
      cases hmeta : Declaration.isMeta c with
      | false =>
          rw [Declaration.escape, hmeta]
          intro hc
          cases Option.some.inj hc
          cases hmeta
      | true =>
          rw [Declaration.escape, hmeta]
          intro hc
          cases Option.some.inj hc

theorem toList_pattern (modifiers : List String) (name : String) :
    (Declaration.pattern modifiers name).toList =
      '^' :: '\\' :: 's' :: '*' :: '(' :: '?' :: ':' ::
        (Declaration.joinAlternatives ((modifiers.map String.toList).map Declaration.escape) ++
          ')' :: '\\' :: 's' :: '+' ::
            (Declaration.escape name.toList ++ ['\\', 's', '*', '\\', '('])) := by
  unfold Declaration.pattern
  rw [String.toList_ofList]
  simp only [List.map_map, List.append_assoc]
  rfl

/-- The parts of the pattern of declarations: the start of the text, blanks, a group with the
modifiers, blanks, the name, blanks and a parenthesis. -/
def declarationParts (place : Span) (modifiers : List (List Char)) (name : List Char) :
    List Pattern :=
  .edge .textStart :: blanks 0 :: (afterAlternatives ⟨place, {}, [], []⟩ modifiers).closed ::
    blanks 1 :: (literal name ++ [blanks 0, .char (.one '(')])

/-- **The pattern of declarations is read as its parts one after the other.** -/
theorem read_declaration (modifiers : List String) (name : String) :
    ∃ place, read (Declaration.pattern modifiers name) =
      .ok (ofList (declarationParts place (modifiers.map String.toList) name.toList)) := by
  let start : OpenGroup := ⟨⟨0, 0⟩, {}, [], []⟩
  -- the text behind the parenthesis
  let grouped := Declaration.joinAlternatives ((modifiers.map String.toList).map Declaration.escape)
    ++ ')' :: '\\' :: 's' :: '+' ::
      (Declaration.escape name.toList ++ ['\\', 's', '*', '\\', '('])
  let place := Span.ofHead ('(' :: '?' :: ':' :: grouped)
  let words := afterAlternatives ⟨place, {}, [], []⟩ (modifiers.map String.toList)
  let before := [.edge .textStart, blanks 0, words.closed, blanks 1]
  let named := (literal name.toList).foldl OpenGroup.add (before.foldl OpenGroup.add start)
  have hwords : words.flags = {} := flags_afterAlternatives _ _
  have hnamed : named.flags = {} := flags_foldl_add _ _
  have hread : Leads start [] (Declaration.pattern modifiers name).toList
      ([blanks 0, .char (.one '(')].foldl OpenGroup.add named) [] [] := by
    rw [toList_pattern]
    -- the anchor, blanks, the group, blanks, the name, blanks, the parenthesis
    refine (Leads.item rfl (by decide) rfl (Nat.lt_succ_self _)).trans ?_
    refine (Leads.blanks 0 rfl rfl (by simp)).trans ?_
    refine (Leads.parenthesis rfl grouped).trans ?_
    refine (Leads.alternatives rfl _ _).trans ?_
    refine (Leads.close hwords).trans ?_
    refine (Leads.blanks 1 rfl rfl (head?_escape_append _ (by decide))).trans ?_
    refine (Leads.word rfl _ _).trans ?_
    refine (Leads.blanks 0 hnamed rfl (by decide)).trans ?_
    have hspaced : (named.add (blanks 0)).flags = {} := hnamed
    exact Leads.escaped hspaced '(' []
  rw [← List.foldl_append, ← List.foldl_append] at hread
  refine ⟨place, ?_⟩
  rw [read_eq_closed (flags_foldl_add _ _) hread, closed_foldl_add]
  rfl

end Excision.Pattern
