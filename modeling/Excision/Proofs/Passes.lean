import Excision.Proofs.Lines
import Excision.Proofs.Removal
import Excision.Settings
import Mathlib.Logic.Function.Iterate

/-!
# Passes over a text

One pass reads a text, plans for the requested names and joins the retained lines
(`Cutter.pass`). The lines that a pass retains are read back as they are (`Cutter.ofText_pass`),
so what the next pass does is a matter of the retained lines only.

Passes converge. What falls is the number of lines that declare a requested name
(`Cutter.declaringLines`): a pass that removes anything removes the declaration of a found name
(`Cutter.declaringLines_retained_lt`), while a pass that removes nothing leaves the text as it is.
The number of lines of the removal set itself need not fall.

Where the first pass removes every line that declares a requested name, the second one misses all
names (`Search.absence`). It misses them as undeclared, except for those whose pattern the engine
does not build: no pass tells more of them (`Cutter.second_pass_not_undeclared`).

A second pass is not always idle, even where every requested name is declared once. A name whose
braces never balance is missed, and the lines that the first pass removes below its declaration may
have held the braces that kept it open. `Cutter.removal_second_pass_eq_nil_iff` says exactly when
the second pass is idle, and `Cutter.second_pass_not_idle` gives a text on which it is not.
-/

set_option autoImplicit false

namespace Excision

namespace Plan

variable (plan : Plan)

/-- A retained line stands at an index that does not go. -/
theorem exists_of_mem_keptFrom {lines : List String} {index : Nat} {line : String}
    (h : line ∈ plan.keptFrom lines index) :
    ∃ k, lines[k]? = some line ∧ plan.removes (index + k) = false := by
  induction lines generalizing index with
  | nil => simp at h
  | cons head lines ih =>
      rw [keptFrom_cons] at h
      have later : line ∈ plan.keptFrom lines (index + 1) →
          ∃ k, (head :: lines)[k]? = some line ∧ plan.removes (index + k) = false := by
        intro hline
        obtain ⟨k, hk, hkept⟩ := ih hline
        exact ⟨k + 1, hk, by rwa [Nat.add_right_comm] at hkept⟩
      cases hgoes : plan.removes index with
      | true =>
          rw [hgoes, if_pos rfl] at h
          exact later h
      | false =>
          rw [hgoes, if_neg Bool.false_ne_true] at h
          rcases List.mem_cons.1 h with rfl | h
          · exact ⟨0, rfl, hgoes⟩
          · exact later h

/-- Where a line that counts goes, fewer lines count. -/
theorem countP_keptFrom_lt {p : String → Bool} {lines : List String} {index k : Nat}
    (hp : lines[k]?.any p = true) (hgoes : plan.removes (index + k) = true) :
    (plan.keptFrom lines index).countP p < lines.countP p := by
  induction lines generalizing index k with
  | nil => simp at hp
  | cons head lines ih =>
      rw [keptFrom_cons]
      have hle := (plan.keptFrom_sublist lines (index + 1)).countP_le (p := p)
      cases k with
      | zero =>
          have hhead : p head = true := hp
          rw [Nat.add_zero] at hgoes
          rw [hgoes, if_pos rfl, List.countP_cons_of_pos hhead]
          omega
      | succ k =>
          have hlt := @ih (index + 1) k hp (by rwa [Nat.add_right_comm])
          split
          · rw [List.countP_cons]
            omega
          · rw [List.countP_cons, List.countP_cons]
            omega

end Plan

namespace Cutter

variable {cutter : Cutter} {source : Source} {names : List String}

/-- What one pass makes of a text: the lines retained of it. -/
def pass (cutter : Cutter) (names : List String) (text : String) : String :=
  String.join ((cutter.plan (Source.ofText text) names).retained (Source.ofText text))

/-- How many lines of a document declare a requested name. -/
def declaringLines (cutter : Cutter) (names : List String) (source : Source) : Nat :=
  source.lines.countP fun line =>
    names.any fun name => cutter.search.declares name line

/-- The lines that a pass retains are read back as they are. -/
theorem ofText_pass (cutter : Cutter) (names : List String) (text : String) :
    Source.ofText (cutter.pass names text) =
      ⟨(cutter.plan (Source.ofText text) names).retained (Source.ofText text)⟩ :=
  Source.ofText_join_of_sublist (Plan.retained_sublist _ _)

/-! ## Passes converge -/

/-- A plan that removes anything retains fewer declaring lines. -/
theorem declaringLines_retained_lt (h : (cutter.plan source names).removal ≠ []) :
    cutter.declaringLines names ⟨(cutter.plan source names).retained source⟩ <
      cutter.declaringLines names source := by
  obtain ⟨index, hindex⟩ := List.exists_mem_of_ne_nil _ h
  obtain ⟨name, hname, e, hfind, -⟩ :=
    (removes_plan_iff index).1 ((mem_removal_plan_iff index).1 hindex)
  -- the extent through which the line goes takes its own declaration along
  obtain ⟨line, hline, hdeclares⟩ := (Search.bounds_of_find hfind).1.exists_line
  refine Plan.countP_keptFrom_lt _ (k := e.declaration) ?_ ?_
  · rw [hline]
    exact List.any_eq_true.2 ⟨name, hname, hdeclares⟩
  · rw [Nat.zero_add]
    exact removes_declaration hname hfind

/-- A pass that removes nothing leaves the text as it is. -/
theorem pass_eq_self {text : String}
    (h : (cutter.plan (Source.ofText text) names).removal = []) :
    cutter.pass names text = text := by
  rw [pass, retained_eq_lines h]
  exact Source.text_ofText text

theorem removal_iterate_pass_eq_nil (n : Nat) (text : String)
    (h : cutter.declaringLines names (Source.ofText text) ≤ n) :
    (cutter.plan (Source.ofText ((cutter.pass names)^[n] text)) names).removal = [] := by
  induction n generalizing text with
  | zero =>
      refine Decidable.not_not.1 fun hne => ?_
      have hlt := declaringLines_retained_lt hne
      exact absurd (Nat.lt_of_lt_of_le hlt h) (Nat.not_lt_zero _)
  | succ n ih =>
      by_cases hidle : (cutter.plan (Source.ofText text) names).removal = []
      · rwa [Function.iterate_fixed (pass_eq_self hidle)]
      · rw [Function.iterate_succ_apply]
        refine ih _ ?_
        have hlt := declaringLines_retained_lt hidle
        rw [ofText_pass]
        omega

/-- Where all declaring lines of the requested names go, none of them is found any more. -/
theorem find_retained_of_all_removed
    (h : ∀ name ∈ names, ∀ index, cutter.search.DeclaresAt source.lines name index →
      (cutter.plan source names).removes index = true) {name : String} (hname : name ∈ names) :
    cutter.search.find ((cutter.plan source names).retained source) name =
      .error (cutter.search.absence name) := by
  refine Search.find_of_undeclared (Search.declaration?_eq_none_iff.2 fun index hdecl => ?_)
  obtain ⟨line, hline, hdeclares⟩ := hdecl.exists_line
  obtain ⟨k, hk, hkept⟩ := Plan.exists_of_mem_keptFrom _ (List.mem_of_getElem? hline)
  have hgoes := h name hname k (by rw [Search.DeclaresAt, hk]; exact hdeclares)
  rw [Nat.zero_add] at hkept
  rw [hkept] at hgoes
  exact Bool.false_ne_true hgoes

/-- The plan that follows finds no name and removes nothing. -/
theorem plan_retained_of_all_removed
    (h : ∀ name ∈ names, ∀ index, cutter.search.DeclaresAt source.lines name index →
      (cutter.plan source names).removes index = true) :
    (cutter.plan ⟨(cutter.plan source names).retained source⟩ names).outcomes =
        names.map (fun name => .missing (cutter.search.absence name)) ∧
      (cutter.plan ⟨(cutter.plan source names).retained source⟩ names).removal = [] := by
  constructor
  · refine List.map_congr_left fun name hname => ?_
    rw [outcome, find_retained_of_all_removed h hname]
  · refine removal_plan_eq_nil_iff.2 fun name hname e hfind => ?_
    rw [find_retained_of_all_removed h hname] at hfind
    simp at hfind

/-- **Repeated passes converge.** Every pass that removes anything leaves fewer lines that declare a
requested name. So after as many passes as there are such lines nothing goes any more and the text
is a fixed point. Where the first pass removes all such lines, the second one changes nothing and
misses every name: as refused if the engine does not build its pattern, otherwise as undeclared. -/
theorem passes_converge (cutter : Cutter) (names : List String) (text : String) :
    let source := Source.ofText text
    let plan := cutter.plan source names
    let next := Source.ofText (cutter.pass names text)
    (plan.removal ≠ [] →
        cutter.declaringLines names next < cutter.declaringLines names source) ∧
      (∀ n, cutter.declaringLines names source ≤ n →
        (cutter.plan (Source.ofText ((cutter.pass names)^[n] text)) names).removal = [] ∧
          cutter.pass names ((cutter.pass names)^[n] text) = (cutter.pass names)^[n] text) ∧
      ((∀ name ∈ names, ∀ index, cutter.search.DeclaresAt source.lines name index →
          index ∈ plan.removal) →
        (cutter.plan next names).removal = [] ∧
          (cutter.plan next names).outcomes =
            names.map (fun name => .missing (cutter.search.absence name)) ∧
          cutter.pass names (cutter.pass names text) = cutter.pass names text) := by
  refine ⟨fun h => ?_, fun n hn => ?_, fun h => ?_⟩
  · rw [ofText_pass]
    exact declaringLines_retained_lt h
  · have hidle := removal_iterate_pass_eq_nil n text hn
    exact ⟨hidle, pass_eq_self hidle⟩
  · obtain ⟨houtcomes, hidle⟩ := plan_retained_of_all_removed fun name hname index hdecl =>
      (mem_removal_plan_iff index).1 (h name hname index hdecl)
    rw [← ofText_pass] at houtcomes hidle
    exact ⟨hidle, houtcomes, pass_eq_self hidle⟩

/-- A method of which a document has two declarations is gone after two passes. -/
theorem passes_converge_on_two_declarations :
    let cutter : Cutter := ⟨⟨["private"], .docBlock, 20, .standard⟩, false⟩
    let text := "private a() \x7b\x7d\nkeep();\nprivate a() \x7b\n\x7d\n"
    cutter.declaringLines ["a"] (Source.ofText text) = 2 ∧
      (cutter.plan (Source.ofText text) ["a"]).removal ≠ [] ∧
      (cutter.plan (Source.ofText ((cutter.pass ["a"])^[2] text)) ["a"]).removal = [] := by
  refine ⟨by decide +kernel, by decide +kernel, ?_⟩
  exact ((passes_converge _ _ _).2.1 2 (by decide +kernel)).1

/-- Patterns with a modifier of four hundred thousand bytes are too large. -/
theorem refusal?_of_long_modifier {modifier : String} (h : modifier.utf8ByteSize = 400000)
    (name : String) :
    Engine.standard.refusal? [modifier] name = some Engine.sizeComplaint := by
  have hlarge : Engine.sizeLimit < Engine.patternSize [modifier] name := by
    rw [Engine.patternSize, Engine.modifierStates, h, Engine.sizeLimit, Engine.stateSize]
    omega
  exact if_pos hlarge

/-- With the standard engine, not every name that is missed at last is missed as undeclared: with a
modifier of four hundred thousand letters the pattern is refused in every pass. -/
theorem second_pass_not_undeclared :
    ¬ ∀ (cutter : Cutter) (names : List String) (text : String),
      cutter.search.engine = .standard →
      (∀ name ∈ names, ∀ index, cutter.search.DeclaresAt (Source.ofText text).lines name index →
        index ∈ (cutter.plan (Source.ofText text) names).removal) →
      (cutter.plan (Source.ofText (cutter.pass names text)) names).outcomes =
        names.map (fun name => .missing (.undeclared name)) := by
  intro h
  obtain ⟨modifier, hlong⟩ : ∃ modifier : String, modifier.utf8ByteSize = 400000 :=
    ⟨Text.word 'a' 400000, (Text.utf8ByteSize_word 'a' 400000).trans (Nat.mul_one _)⟩
  let cutter : Cutter := ⟨⟨[modifier], .docBlock, 20, .standard⟩, false⟩
  have hrefusal : cutter.search.refusal? "f" = some Engine.sizeComplaint :=
    refusal?_of_long_modifier hlong "f"
  have hnowhere : ∀ index, ¬ cutter.search.DeclaresAt (Source.ofText "keep();\n").lines "f" index :=
    Search.declaration?_eq_none_iff.1 (Search.declaration?_of_refusal? hrefusal)
  have houtcomes := h cutter ["f"] "keep();\n" rfl ?_
  · have hsame : cutter.outcome (Source.ofText (cutter.pass ["f"] "keep();\n")) "f" =
        .missing (.undeclared "f") := (List.cons.inj houtcomes).1
    rw [Cutter.outcome, Search.find, hrefusal] at hsame
    cases hsame
  · intro name hname index hdecl
    obtain rfl := List.mem_singleton.1 hname
    exact absurd hdecl (hnowhere index)

/-! ## When the second pass is idle -/

/-- A name that one line declares is found among the retained lines exactly if this line is
retained and the retained text from it on balances. -/
theorem exists_find_retained_iff (plan : Plan) {search : Search} {name : String}
    (once : search.DeclaredAtMostOnce source.lines name) :
    (∃ e, search.find (plan.retained source) name = .ok e) ↔
      ∃ d, search.declaration? source.lines name = some d ∧ plan.removes d = false ∧
        Balances (characters (plan.keptFrom (source.lines.drop d) d)) := by
  rw [Search.exists_find_iff]
  cases hdecl : search.declaration? source.lines name with
  | none => simp [Search.declaration?_eq_none_of_sublist (plan.retained_sublist source) hdecl]
  | some d =>
      obtain ⟨habove, hbelow⟩ := once.declaration?_elsewhere hdecl
      have hkept := Search.declaration?_eq_none_of_sublist (plan.keptFrom_sublist _ 0) habove
      have hrest := Search.declaration?_eq_none_of_sublist (plan.keptFrom_sublist _ (d + 1)) hbelow
      obtain ⟨line, hline, hdeclares⟩ :=
        ((Search.declaration?_eq_some_iff d).1 hdecl).1.exists_line
      obtain ⟨hlt, rfl⟩ := List.getElem?_eq_some_iff.1 hline
      have hfrom : plan.keptFrom (source.lines.drop d) d =
          if plan.removes d then plan.keptFrom (source.lines.drop (d + 1)) (d + 1)
          else source.lines[d] :: plan.keptFrom (source.lines.drop (d + 1)) (d + 1) := by
        rw [List.drop_eq_getElem_cons hlt, Plan.keptFrom_cons]
      have hdecl' := Search.declaration?_append (plan.keptFrom (source.lines.drop d) d) hkept
      rw [plan.retained_eq_append (Nat.le_of_lt hlt), hdecl']
      cases hgoes : plan.removes d with
      | true =>
          rw [hfrom, hgoes, if_pos rfl, hrest]
          simp [hgoes]
      | false =>
          rw [hgoes, if_neg Bool.false_ne_true] at hfrom
          have hfirst : search.declaration? (plan.keptFrom (source.lines.drop d) d) name =
              some 0 := by
            rw [hfrom, Search.declaration?, List.findIdx?_cons, if_pos hdeclares]
          simp [hfirst, hgoes]

/-- **When a second pass is idle.** Let each requested name be declared by at most one line. Then
the second pass removes nothing exactly if for every name whose braces never balance the line that
declares it goes as well, or the retained text from that line on still does not balance. -/
theorem removal_second_pass_eq_nil_iff (cutter : Cutter) (names : List String) (text : String)
    (once : ∀ name ∈ names,
      cutter.search.DeclaredAtMostOnce (Source.ofText text).lines name) :
    (cutter.plan (Source.ofText (cutter.pass names text)) names).removal = [] ↔
      ∀ name ∈ names, ∀ d,
        cutter.search.find (Source.ofText text).lines name = .error (.unbalanced name (d + 1)) →
          (cutter.plan (Source.ofText text) names).removes d = true ∨
            ¬ Balances (characters ((cutter.plan (Source.ofText text) names).keptFrom
              ((Source.ofText text).lines.drop d) d)) := by
  rw [ofText_pass, removal_plan_eq_nil_iff]
  refine forall₂_congr fun name hname => ?_
  rw [← not_exists, exists_find_retained_iff _ (once name hname)]
  constructor
  · intro h d hopen
    obtain ⟨hdecl, -⟩ := (Search.find_eq_unbalanced_iff d).1 hopen
    cases hgoes : (cutter.plan (Source.ofText text) names).removes d with
    | true => exact Or.inl rfl
    | false => exact Or.inr fun hbalances => h ⟨d, hdecl, hgoes, hbalances⟩
  · rintro h ⟨d, hdecl, hgoes, hbalances⟩
    by_cases hbody : Balances (characters ((Source.ofText text).lines.drop d))
    · -- the name was found, so its declaration went with its extent
      obtain ⟨e, hfind⟩ := Search.exists_find_iff.2 ⟨d, hdecl, hbody⟩
      obtain ⟨hdecl', -⟩ := (Search.find_eq_ok_iff e).1 hfind
      rw [hdecl, Option.some.injEq] at hdecl'
      rw [hdecl', removes_declaration hname hfind] at hgoes
      exact Bool.noConfusion hgoes
    · rcases h d ((Search.find_eq_unbalanced_iff d).2 ⟨hdecl, hbody⟩) with hgone | hopen
      · rw [hgone] at hgoes
        exact Bool.noConfusion hgoes
      · exact hopen hbalances

/-- A name that stays open: the first pass removes `b`, and the braces of `a` still never balance,
so the second pass is idle. -/
theorem second_pass_idle_on_open_name :
    let cutter : Cutter := ⟨⟨["private"], .docBlock, 20, .standard⟩, true⟩
    let text := "private a() \x7b\n  if (x) \x7b\n/** */\nprivate b() \x7b\x7d\n\n\x7d\n"
    (∀ name ∈ ["a", "b"], cutter.search.DeclaredAtMostOnce (Source.ofText text).lines name) ∧
      (cutter.plan (Source.ofText text) ["a", "b"]).removal = [2, 3, 4] ∧
      (cutter.plan (Source.ofText (cutter.pass ["a", "b"] text)) ["a", "b"]).removal = [] := by
  intro cutter text
  have once : ∀ name ∈ ["a", "b"],
      cutter.search.DeclaredAtMostOnce (Source.ofText text).lines name := by decide +kernel
  refine ⟨once, by decide +kernel, ?_⟩
  refine (removal_second_pass_eq_nil_iff cutter _ text once).2 fun name hname d hfind => ?_
  obtain ⟨hdecl, -⟩ := (Search.find_eq_unbalanced_iff d).1 hfind
  rcases List.mem_cons.1 hname with rfl | hname
  · have hfirst : cutter.search.declaration? (Source.ofText text).lines "a" = some 0 := by
      decide +kernel
    obtain rfl := Option.some.inj (hfirst.symm.trans hdecl)
    exact Or.inr (by decide +kernel)
  · obtain rfl := List.mem_singleton.1 hname
    have hfirst : cutter.search.declaration? (Source.ofText text).lines "b" = some 3 := by
      decide +kernel
    obtain rfl := Option.some.inj (hfirst.symm.trans hdecl)
    exact Or.inl (by decide +kernel)

/-- A document in which the doc comment of `b` holds the brace that keeps `a` open. -/
def heldOpen : String :=
  "class S \x7b\n  private a() \x7b\n    if (x) \x7b\n  \x7d\n"
    ++ "  /** Writes \x7b */\n  private b() \x7b\n  \x7d\n\x7d\n"

/-- Without the doc comment of `b` the braces of `a` balance, so the second pass removes `a` and
the rest of the class with it. -/
theorem second_pass_not_idle :
    ¬ ∀ (settings : Settings) (names : List String) (text : String), settings.check = .ok () →
      (∀ name ∈ names,
        settings.cutter.search.DeclaredAtMostOnce (Source.ofText text).lines name) →
      (settings.cutter.plan (Source.ofText (settings.cutter.pass names text)) names).removal =
        [] := by
  intro h
  have hidle := h .builtin ["a", "b"] heldOpen rfl (by decide +kernel)
  have hremoval : (Settings.builtin.cutter.plan
      (Source.ofText (Settings.builtin.cutter.pass ["a", "b"] heldOpen)) ["a", "b"]).removal =
        [1, 2, 3, 4] := by decide +kernel
  rw [hidle] at hremoval
  simp at hremoval

end Cutter

end Excision
