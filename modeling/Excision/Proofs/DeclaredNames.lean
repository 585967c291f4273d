import Excision.Proofs.Grammar
import Excision.Proofs.NameLists
import Excision.Proofs.Removal

/-!
# A line declares one name

A declaration leaves no choice of how to take it apart. A keyword holds no blank character and is
followed by one, so the modifier is the whole first word of the text, also where one keyword is the
beginning of another. Behind the blanks after it the name begins, since a name starts with no blank
character. It ends at the next blank character or at the parenthesis, since it holds neither. So the
only name that a text can declare is read off it without looking at any modifier
(`Declaration.declarableName`, `Declaration.Declares.name_eq`), and two names that the same line
declares are the same (`Settings.eq_of_declares`, `Settings.declares_one_name`).

A name with an opening parenthesis in it is left out: a line that declares it may as well declare
the part of it before the parenthesis.
-/

set_option autoImplicit false

namespace Excision

namespace Declaration

open Text

/-- The name that a text can declare: what stands behind the first word and the blanks after it, up
to a blank character or an opening parenthesis. -/
def declarableName (text : List Char) : List Char :=
  ((text.dropWhile (!isBlank ·)).dropWhile isBlank).takeWhile fun c => !isBlank c && c ≠ '('

/-- A text declares no other name than the one it can declare. -/
theorem Declares.name_eq {modifiers : List (List Char)} {name text : List Char}
    (hmodifiers : ∀ modifier ∈ modifiers, ∀ c ∈ modifier, isBlank c = false) (hne : name ≠ [])
    (hname : ∀ c ∈ name, isBlank c = false) (hopen : '(' ∉ name)
    (h : Declares modifiers name text) : declarableName text = name := by
  obtain ⟨modifier, hmodifier, gap, space, rest, rfl, hgap, hgapBlank, hspace⟩ := h
  -- the modifier is the first word: all of it is passed, and the gap after it is not
  have hword : (modifier ++ (gap ++ (name ++ (space ++ '(' :: rest)))).dropWhile (!isBlank ·) =
      gap ++ (name ++ (space ++ '(' :: rest)) := by
    rw [List.dropWhile_append_of_pos]
    · obtain ⟨c, gap, rfl⟩ := List.exists_cons_of_ne_nil hgap
      rw [List.cons_append, List.dropWhile_cons, hgapBlank c List.mem_cons_self]
      rfl
    · intro c hc
      rw [hmodifiers modifier hmodifier c hc]
      rfl
  have hnamed : (gap ++ (name ++ (space ++ '(' :: rest))).dropWhile isBlank =
      name ++ (space ++ '(' :: rest) := by
    obtain ⟨c, name, rfl⟩ := List.exists_cons_of_ne_nil hne
    rw [List.cons_append]
    exact trimStart_append_cons hgapBlank (hname c List.mem_cons_self) _
  have hinside : ∀ c ∈ name, (!isBlank c && c ≠ '(') = true := by
    intro c hc
    have hparenthesis : c ≠ '(' := by
      rintro rfl
      exact hopen hc
    rw [hname c hc, decide_eq_true hparenthesis]
    rfl
  -- what follows the name starts with a blank character or is the parenthesis
  have hbehind : (space ++ '(' :: rest).takeWhile (fun c => !isBlank c && c ≠ '(') = [] := by
    cases space with
    | nil => rfl
    | cons c space =>
        rw [List.cons_append, List.takeWhile_cons, hspace c List.mem_cons_self]
        rfl
  rw [declarableName, hword, hnamed, List.takeWhile_append_of_pos hinside, hbehind,
    List.append_nil]

/-- The pattern of a name is found in exactly the lines that declare it. -/
theorem matchesIn_iff_declares {modifiers : List String} {name : String} {pattern : Pattern}
    (hread : Pattern.read (Declaration.pattern modifiers name) = .ok pattern) (line : String) :
    pattern.matchesIn line = true ↔ declares modifiers name line = true := by
  obtain ⟨place, hplace⟩ := Pattern.read_declaration modifiers name
  rw [hplace, Except.ok.injEq] at hread
  rw [← hread, matchesIn_iff_inGrammar, declares_iff_inGrammar]

end Declaration

namespace Settings

open Declaration

variable {settings : Settings} {name other : String}

/-- With accepted modifiers a line that declares a name can declare no other one. -/
theorem declarableName_eq (hcheck : settings.check = .ok ())
    (hname : MethodNames.isName name = true) (hopen : '(' ∉ name.toList) {line : String}
    (h : declares settings.modifiers name line = true) :
    declarableName (Text.trim line.toList) = name.toList := by
  obtain ⟨hne, hkeywords⟩ := (check_eq_ok_iff settings).1 hcheck
  obtain ⟨hempty, hblank⟩ := (MethodNames.isName_iff name).1 hname
  apply Declares.name_eq _ _ hblank hopen ((declares_iff_trim hne hkeywords).1 h)
  · intro modifier hmodifier
    obtain ⟨keyword, hkeyword, rfl⟩ := List.mem_map.1 hmodifier
    exact not_isBlank_of_mem_keyword (hkeywords keyword hkeyword)
  · simpa using hempty

theorem eq_of_declares (hcheck : settings.check = .ok ())
    (hname : MethodNames.isName name = true) (hother : MethodNames.isName other = true)
    (hopen : '(' ∉ name.toList) (hopen' : '(' ∉ other.toList) {line : String}
    (h : declares settings.modifiers name line = true)
    (h' : declares settings.modifiers other line = true) : name = other := by
  apply String.toList_inj.1
  rw [← declarableName_eq hcheck hname hopen h, declarableName_eq hcheck hother hopen' h']

/-- **A line declares at most one name.** Let the modifiers be accepted, and let two names without
an opening parenthesis be among those that a list of names comes to. If a line declares both, or the
patterns of both are found in it, they are the same name. So in every document two methods of
different names that are found have different lines of declaration. -/
theorem declares_one_name (hcheck : settings.check = .ok ()) {names methods : List String}
    (hmethods : MethodNames.ofList names = .ok methods) (hname : name ∈ methods)
    (hother : other ∈ methods) (hopen : '(' ∉ name.toList) (hopen' : '(' ∉ other.toList) :
    (∀ line, declares settings.modifiers name line = true →
        declares settings.modifiers other line = true → name = other) ∧
      (∀ pattern pattern' line,
        Pattern.read (Declaration.pattern settings.modifiers name) = .ok pattern →
        Pattern.read (Declaration.pattern settings.modifiers other) = .ok pattern' →
        pattern.matchesIn line = true → pattern'.matchesIn line = true → name = other) ∧
      ∀ (source : Source) (e e' : Extent),
        settings.cutter.search.find source.lines name = .ok e →
        settings.cutter.search.find source.lines other = .ok e' →
        name ≠ other → e.declaration ≠ e'.declaration := by
  have hnames : ∀ method ∈ methods, MethodNames.isName method = true := by
    obtain ⟨haccepted, hfirsts⟩ := (MethodNames.ofList_eq_ok_iff names methods).1 hmethods
    intro method hmethod
    exact haccepted method ((hfirsts.mem_iff method).1 hmethod)
  have hsame : ∀ line, declares settings.modifiers name line = true →
      declares settings.modifiers other line = true → name = other := by
    intro line h h'
    exact eq_of_declares hcheck (hnames name hname) (hnames other hother) hopen hopen' h h'
  refine ⟨hsame, ?_, ?_⟩
  · intro pattern pattern' line hread hread' h h'
    apply hsame line
    · exact (matchesIn_iff_declares hread line).1 h
    · exact (matchesIn_iff_declares hread' line).1 h'
  · intro source e e' hfind hfind' hne hdeclaration
    -- both names are declared by the line of their extents, which would be one line
    obtain ⟨line, hline, hdeclares⟩ := (Search.bounds_of_find hfind).1.exists_line
    obtain ⟨line', hline', hdeclares'⟩ := (Search.bounds_of_find hfind').1.exists_line
    rw [hdeclaration, hline', Option.some.injEq] at hline
    subst hline
    exact hne (hsame line' ((Search.declares_iff _).1 hdeclares).2
      ((Search.declares_iff _).1 hdeclares').2)

/-- One keyword begins another one, and one name ends another one; the outer method is declared
above the inner one. -/
theorem declares_one_name_of_nested_keywords :
    let settings : Settings := { builtin with modifiers := ["pub", "public"] }
    let source : Source := ⟨["  public größe (a) \x7b\n", "pub\töße() \x7b\x7d\n", "\x7d\n"]⟩
    settings.check = .ok () ∧
      MethodNames.ofList [" größe", "öße", "größe"] = .ok ["größe", "öße"] ∧
      declares settings.modifiers "größe" "  public größe (a) \x7b\n" = true ∧
      ¬ declares settings.modifiers "öße" "  public größe (a) \x7b\n" = true ∧
      settings.cutter.search.find source.lines "größe" = .ok ⟨0, 0, 2⟩ ∧
      settings.cutter.search.find source.lines "öße" = .ok ⟨1, 1, 1⟩ ∧ 0 ≠ 1 := by
  intro settings source
  have hcheck : settings.check = .ok () := rfl
  have hmethods : MethodNames.ofList [" größe", "öße", "größe"] = .ok ["größe", "öße"] := by
    decide +kernel
  have hfind : settings.cutter.search.find source.lines "größe" = .ok ⟨0, 0, 2⟩ := by
    decide +kernel
  have hfind' : settings.cutter.search.find source.lines "öße" = .ok ⟨1, 1, 1⟩ := by
    decide +kernel
  have hdeclares : declares settings.modifiers "größe" "  public größe (a) \x7b\n" = true := by
    decide +kernel
  obtain ⟨hsame, -, hlines⟩ := @declares_one_name settings "größe" "öße" hcheck _ _ hmethods
    (by simp) (by simp) (by decide) (by decide)
  refine ⟨hcheck, hmethods, hdeclares, ?_, hfind, hfind', ?_⟩
  · intro hother
    exact absurd (hsame _ hdeclares hother) (by decide)
  · exact hlines source _ _ hfind hfind' (by decide)

/-- With a parenthesis in a name the line that declares it may declare another one, too. -/
example : declares ["private"] "f" "private f(x(" = true ∧
    declares ["private"] "f(x" "private f(x(" = true := by decide

end Settings

end Excision
