import Excision.Proofs.Reading
import Mathlib.Data.List.Basic

/-!
# Patterns of declarations are read back uniquely

Modifiers and names may be any texts, also such as look like pieces of a pattern. Still a pattern
tells which they are. It is read back mark by mark (`Declaration.marks`): a backslash takes the next
character as it is, and any other character stands bare. The modifiers lie between the fixed
beginning and the first bare closing parenthesis, with a bare bar between neighbours, and the name
lies between the fixed pieces behind (`Declaration.readBack`).

Escaping a text leaves no bare character in it that has a meaning (`Declaration.bare_not_mem`), and
the marks of a text after an escaped one are what they would be alone
(`Declaration.marks_escape_append`). So nothing within a modifier or a name is taken for a bar, for
the end of the group, or for the end of the name, and different modifiers or names have different
patterns (`Declaration.pattern_unique`).
-/

set_option autoImplicit false

namespace Excision.Declaration

/-- A character of a text in which a backslash takes the next one as it is. -/
inductive Mark where
  | taken (c : Char)
  | bare (c : Char)
deriving DecidableEq, Repr

/-- The character itself. -/
def Mark.char : Mark → Char
  | taken c => c
  | bare c => c

/-- The marks of a text. A backslash at the end of the text takes nothing and stands bare. -/
def marks : List Char → List Mark
  | '\\' :: c :: text => .taken c :: marks text
  | c :: text => .bare c :: marks text
  | [] => []

/-- The text of some marks, without the backslashes that take a character. -/
def unmarked (read : List Mark) : String := String.ofList (read.map Mark.char)

/-- The modifiers and the name in a pattern of declarations. The group of the modifiers ends at
the first bare closing parenthesis and is divided at the bare bars. -/
def readBack (pattern : String) : Option (List String × String) := do
  let opened ← (marks pattern.toList).dropPrefix? (marks "^\\s*(?:".toList)
  let group := opened.takeWhile (· ≠ .bare ')')
  let named ← (opened.dropWhile (· ≠ .bare ')')).dropPrefix? (marks ")\\s+".toList)
  let name ← named.dropSuffix? (marks "\\s*\\(".toList)
  return ((group.splitOn (.bare '|')).map unmarked, unmarked name)

/-! ## Marks of escaped texts -/

/-- The marks of an escaped text: what has a meaning is taken. -/
def escapedMarks (text : List Char) : List Mark :=
  text.map fun c => if isMeta c then .taken c else .bare c

theorem unmarked_escapedMarks (text : String) : unmarked (escapedMarks text.toList) = text := by
  have hchar : (Mark.char ∘ fun c => if isMeta c then .taken c else .bare c) = id := by
    funext c
    rw [Function.comp_apply]
    split <;> rfl
  rw [unmarked, escapedMarks, List.map_map, hchar, List.map_id, String.ofList_toList]

/-- No character with a meaning stands bare in an escaped text. -/
theorem bare_not_mem {c : Char} (h : isMeta c = true) (text : List Char) :
    .bare c ∉ escapedMarks text := by
  rw [escapedMarks, List.mem_map]
  rintro ⟨d, -, hd⟩
  split at hd
  · cases hd
  · next hmeta =>
    cases hd
    exact hmeta h

theorem marks_cons_of_ne {c : Char} (h : c ≠ '\\') (text : List Char) :
    marks (c :: text) = .bare c :: marks text := by
  rw [marks]
  rintro d rest rfl -
  exact h rfl

/-- Behind an escaped text the marks are those of what follows. -/
theorem marks_escape_append (text rest : List Char) :
    marks (escape text ++ rest) = escapedMarks text ++ marks rest := by
  induction text with
  | nil => rfl
  | cons c text ih =>
      cases hmeta : isMeta c with
      | true =>
          rw [escape, hmeta, if_pos rfl, List.cons_append, List.cons_append, marks, ih]
          simp [escapedMarks, hmeta]
      | false =>
          have hne : c ≠ '\\' := by
            rintro rfl
            cases hmeta
          rw [escape, hmeta, if_neg Bool.false_ne_true, List.cons_append, marks_cons_of_ne hne, ih]
          simp [escapedMarks, hmeta]

/-- The marks of alternatives: those of each, with a bare bar between neighbours. -/
theorem marks_joinAlternatives_append (words : List (List Char)) (rest : List Char) :
    marks (joinAlternatives (words.map escape) ++ rest) =
      [Mark.bare '|'].intercalate (words.map escapedMarks) ++ marks rest := by
  induction words with
  | nil => rfl
  | cons word words ih =>
      cases words with
      | nil => simpa [joinAlternatives] using marks_escape_append word rest
      | cons next words =>
          rw [List.map_cons, List.map_cons, joinAlternatives.eq_3 _ _ (by simp), List.append_assoc,
            marks_escape_append, List.cons_append, marks_cons_of_ne (by decide)]
          rw [List.map_cons] at ih
          rw [ih, List.map_cons, List.map_cons, List.map_cons, List.intercalate_cons_cons]
          simp

/-! ## The pattern of declarations -/

theorem marks_pattern (modifiers : List String) (name : String) :
    marks (pattern modifiers name).toList =
      marks "^\\s*(?:".toList ++
        ([Mark.bare '|'].intercalate (modifiers.map fun modifier => escapedMarks modifier.toList) ++
          (marks ")\\s+".toList ++ (escapedMarks name.toList ++ marks "\\s*\\(".toList))) := by
  have hfront (text : List Char) :
      marks ('^' :: '\\' :: 's' :: '*' :: '(' :: '?' :: ':' :: text) =
        marks "^\\s*(?:".toList ++ marks text := by
    simp [marks]
  have hmiddle (text : List Char) :
      marks (')' :: '\\' :: 's' :: '+' :: text) = marks ")\\s+".toList ++ marks text := by
    simp [marks]
  have hmodifiers : (modifiers.map String.toList).map escapedMarks =
      modifiers.map fun modifier => escapedMarks modifier.toList := List.map_map
  have hend : "\\s*\\(".toList = ['\\', 's', '*', '\\', '('] := rfl
  rw [Pattern.toList_pattern, hfront, marks_joinAlternatives_append, hmiddle, marks_escape_append,
    hmodifiers, hend]

/-- Neither a bar nor the end of the group stands bare in an alternative. -/
theorem bare_not_mem_intercalate (words : List String) :
    .bare ')' ∉ [Mark.bare '|'].intercalate
      (words.map fun word => escapedMarks word.toList) := by
  induction words with
  | nil => simp
  | cons word words ih =>
      have hword := bare_not_mem (c := ')') rfl word.toList
      cases words with
      | nil => simpa using hword
      | cons next words =>
          rw [List.map_cons] at ih
          rw [List.map_cons, List.map_cons, List.intercalate_cons_cons]
          simp only [List.mem_append, List.mem_singleton, not_or]
          exact ⟨⟨hword, by decide⟩, ih⟩

/-- A pattern with modifiers is read back as they are. -/
theorem readBack_pattern {modifiers : List String} (h : modifiers ≠ []) (name : String) :
    readBack (pattern modifiers name) = some (modifiers, name) := by
  let group := [Mark.bare '|'].intercalate
    (modifiers.map fun modifier => escapedMarks modifier.toList)
  let named := escapedMarks name.toList ++ marks "\\s*\\(".toList
  have hopened : (marks (pattern modifiers name).toList).dropPrefix? (marks "^\\s*(?:".toList) =
      some (group ++ (marks ")\\s+".toList ++ named)) := by
    rw [marks_pattern]
    exact List.dropPrefix?_append_of_beq _ (BEq.refl _)
  -- the group ends where the marks of the modifiers do
  have hinside : ∀ mark ∈ group, decide (mark ≠ .bare ')') = true := by
    intro mark hmark
    refine decide_eq_true ?_
    rintro rfl
    exact bare_not_mem_intercalate modifiers hmark
  have hgroup : (group ++ (marks ")\\s+".toList ++ named)).takeWhile (· ≠ .bare ')') = group := by
    rw [List.takeWhile_append_of_pos hinside]
    exact List.append_nil group
  have hrest : ((group ++ (marks ")\\s+".toList ++ named)).dropWhile
      (· ≠ .bare ')')).dropPrefix? (marks ")\\s+".toList) = some named := by
    rw [List.dropWhile_append_of_pos hinside]
    exact List.dropPrefix?_append_of_beq named (BEq.refl (marks ")\\s+".toList))
  have hname : named.dropSuffix? (marks "\\s*\\(".toList) = some (escapedMarks name.toList) :=
    List.dropSuffix?_eq_some_iff.2 ⟨_, rfl, BEq.refl _⟩
  have hwords : group.splitOn (.bare '|') =
      modifiers.map fun modifier => escapedMarks modifier.toList := by
    refine List.splitOn_intercalate _ ?_ (by simpa using h)
    intro word hword
    obtain ⟨modifier, -, rfl⟩ := List.mem_map.1 hword
    exact bare_not_mem rfl _
  have hmodifiers : (modifiers.map fun modifier => escapedMarks modifier.toList).map unmarked =
      modifiers := by
    simp [Function.comp_def, unmarked_escapedMarks]
  rw [readBack, hopened, Option.bind_eq_bind, Option.bind_some, hgroup, hrest]
  simp only [Option.bind_some, hname, hwords, hmodifiers, unmarked_escapedMarks]
  rfl

/-- **No modifier and no name means more than itself.** A pattern of declarations with at least one
modifier is read back as exactly its modifiers and its name, whatever characters they have. So
patterns with the same text have the same modifiers, one by one, and the same name. -/
theorem pattern_unique (modifiers modifiers' : List String) (name name' : String)
    (h : modifiers ≠ []) (h' : modifiers' ≠ []) :
    readBack (pattern modifiers name) = some (modifiers, name) ∧
      (pattern modifiers name = pattern modifiers' name' →
        modifiers = modifiers' ∧ name = name') := by
  refine ⟨readBack_pattern h name, fun hsame => ?_⟩
  have hread : some (modifiers, name) = some (modifiers', name') := by
    rw [← readBack_pattern h, ← readBack_pattern h', hsame]
  obtain ⟨hmodifiers, hname⟩ := Prod.mk.inj (Option.some.inj hread)
  exact ⟨hmodifiers, hname⟩

/-- Modifiers that look like bars and ends of a group, one of them empty, and a name that looks like
the rest of a pattern. -/
theorem pattern_unique_of_signs :
    let modifiers := ["a|b\\", "", ")\\s+x\\s*\\("]
    let name := ")\\s*\\(\\"
    pattern modifiers name =
        "^\\s*(?:a\\|b\\\\||\\)\\\\s\\+x\\\\s\\*\\\\\\()\\s+\\)\\\\s\\*\\\\\\(\\\\\\s*\\(" ∧
      readBack (pattern modifiers name) = some (modifiers, name) ∧
      pattern modifiers name ≠ pattern ["a", "b\\", "", ")\\s+x\\s*\\("] name := by
  intro modifiers name
  obtain ⟨hread, hsame⟩ := pattern_unique modifiers ["a", "b\\", "", ")\\s+x\\s*\\("] name name
    (by decide) (by decide)
  refine ⟨by decide +kernel, hread, fun heq => ?_⟩
  exact absurd (hsame heq).1 (by decide)

end Excision.Declaration
