import Excision.Proofs.Accounts
import Excision.Proofs.Declarations

/-!
# Plans see trimmed lines only

A document with every line trimmed (`Source.trimmed`) is laid out differently: no line is indented,
and none has a terminator. Each part of a search that looks at a line is shown to find the same
there. A declaring line declares from its first character on that is not blank
(`Declaration.declares_trimmed`), the walks read trimmed lines (`Lookback.linesAbove_map_trimmed`),
blank characters leave the braces as they are (`bodyEnd_map_trimmed`), and a blank line is one of
which trimming leaves nothing (`Source.isBlankAt_trimmed`).

So a document has the plan that it has when trimmed (`Cutter.plan_trimmed`). Documents that are the
same when trimmed have the same plan, and keep the lines at the same places
(`Settings.plan_eq_of_trimmed_eq`).
-/

set_option autoImplicit false

namespace Excision

open Text

theorem Text.trim_trimmed (line : String) : trim (trimmed line).toList = trim line.toList := by
  rw [toList_trimmed, trim_trim]

/-- A document with every line trimmed. -/
def Source.trimmed (source : Source) : Source := ⟨source.lines.map Text.trimmed⟩

/-! ## Declarations -/

/-- With keywords as modifiers a line and the trimmed line declare the same names. -/
theorem Declaration.declares_trimmed {modifiers : List String} (hne : modifiers ≠ [])
    (hkeywords : ∀ modifier ∈ modifiers, isKeyword modifier = true) (name line : String) :
    declares modifiers name (Text.trimmed line) = declares modifiers name line := by
  rw [Bool.eq_iff_iff, declares_iff_trim hne hkeywords, declares_iff_trim hne hkeywords,
    trim_trimmed]

/-! ## Walks -/

theorem Lookback.linesAbove_map_trimmed (lines : List String) (declaration depth : Nat) :
    linesAbove (lines.map Text.trimmed) declaration depth =
      linesAbove lines declaration depth := by
  unfold linesAbove
  rw [← List.map_take, ← List.map_reverse, ← List.map_take, List.map_map]
  simp only [Function.comp_def, trim_trimmed]

theorem Lookback.start_map_trimmed (strategy : Lookback) (depth : Nat) (lines : List String)
    (declaration : Nat) :
    strategy.start depth (lines.map Text.trimmed) declaration =
      strategy.start depth lines declaration := by
  rw [start, start, linesAbove_map_trimmed]

/-! ## Braces -/

namespace Braces

/-- A blank character is no brace. -/
theorem read_of_isBlank (b : Braces) {c : Char} (h : isBlank c = true) : b.read c = some b := by
  have hopen : c ≠ '\x7b' := by
    rintro rfl
    revert h
    decide
  have hclose : c ≠ '\x7d' := by
    rintro rfl
    revert h
    decide
  rw [read, if_neg hopen, if_neg hclose]

theorem readAll_of_isBlank (b : Braces) {cs : List Char} (h : ∀ c ∈ cs, isBlank c = true) :
    b.readAll cs = some b := by
  induction cs with
  | nil => rfl
  | cons c cs ih =>
      obtain ⟨hc, hcs⟩ := List.forall_mem_cons.1 h
      rw [readAll, read_of_isBlank b hc]
      exact ih hcs

theorem readAll_append (b : Braces) (cs ds : List Char) :
    b.readAll (cs ++ ds) = (b.readAll cs).bind fun after => after.readAll ds := by
  induction cs generalizing b with
  | nil => rfl
  | cons c cs ih =>
      rw [List.cons_append, readAll, readAll]
      cases b.read c with
      | none => rfl
      | some after => exact ih after

/-- Reading a text is reading the trimmed text. -/
theorem readAll_trim (b : Braces) (cs : List Char) : b.readAll (trim cs) = b.readAll cs := by
  obtain ⟨before, after, heq, hbefore, hafter⟩ := exists_eq_append_trim cs
  have hend : (fun reached : Braces => reached.readAll after) = some :=
    funext fun reached => readAll_of_isBlank reached hafter
  calc b.readAll (trim cs)
      = ((b.readAll before).bind fun reached => reached.readAll (trim cs)).bind some := by
        rw [readAll_of_isBlank b hbefore, Option.bind_some, Option.bind_fun_some]
    _ = b.readAll (before ++ trim cs ++ after) := by
        rw [readAll_append, readAll_append, hend]
    _ = b.readAll cs := by rw [← heq]

theorem closingLine_map_trimmed (b : Braces) (lines : List String) :
    b.closingLine (lines.map Text.trimmed) = b.closingLine lines := by
  induction lines generalizing b with
  | nil => rfl
  | cons line lines ih =>
      rw [List.map_cons, closingLine, closingLine, toList_trimmed, readAll_trim]
      cases b.readAll line.toList with
      | none => rfl
      | some after =>
          simp only
          rw [ih]

end Braces

theorem bodyEnd_map_trimmed (lines : List String) (declaration : Nat) :
    bodyEnd (lines.map Text.trimmed) declaration = bodyEnd lines declaration := by
  rw [bodyEnd, bodyEnd, ← List.map_drop, Braces.closingLine_map_trimmed]

/-! ## Blank lines -/

theorem Text.isBlankText_trimmed (line : String) :
    isBlankText (trimmed line) = isBlankText line := by
  rw [Bool.eq_iff_iff, isBlankText, isBlankText, ← trim_eq_nil_iff, ← trim_eq_nil_iff, trim_trimmed]

theorem Source.isBlankAt_trimmed (source : Source) (index : Nat) :
    source.trimmed.isBlankAt index = source.isBlankAt index := by
  rw [isBlankAt, isBlankAt, trimmed, List.getElem?_map, Option.any_map]
  simp only [isBlankText_trimmed]

/-! ## Searches and plans -/

namespace Search

variable {search : Search} (hne : search.modifiers ≠ [])
  (hkeywords : ∀ modifier ∈ search.modifiers, isKeyword modifier = true)

include hne hkeywords

theorem declaration?_map_trimmed (lines : List String) (name : String) :
    search.declaration? (lines.map Text.trimmed) name = search.declaration? lines name := by
  have hdeclares : search.declares name ∘ Text.trimmed = search.declares name := by
    funext line
    rw [Function.comp_apply, declares, declares, Declaration.declares_trimmed hne hkeywords]
  rw [declaration?, declaration?, List.findIdx?_map, hdeclares]

theorem find_map_trimmed (lines : List String) (name : String) :
    search.find (lines.map Text.trimmed) name = search.find lines name := by
  simp only [find, start, declaration?_map_trimmed hne hkeywords, bodyEnd_map_trimmed,
    Lookback.start_map_trimmed]

end Search

/-- A document has the plan that it has when trimmed. -/
theorem Cutter.plan_trimmed {cutter : Cutter} (hne : cutter.search.modifiers ≠ [])
    (hkeywords : ∀ modifier ∈ cutter.search.modifiers, isKeyword modifier = true)
    (source : Source) (names : List String) :
    cutter.plan source.trimmed names = cutter.plan source names := by
  have hsize : source.trimmed.size = source.size := List.length_map _
  have hblank : ∀ e, cutter.trailingBlank? source.trimmed e = cutter.trailingBlank? source e := by
    intro e
    rw [trailingBlank?, trailingBlank?, Source.isBlankAt_trimmed]
  have houtcome : cutter.outcome source.trimmed = cutter.outcome source := by
    funext name
    have hfind : cutter.search.find source.trimmed.lines name =
        cutter.search.find source.lines name := Search.find_map_trimmed hne hkeywords _ name
    rw [outcome, outcome, hfind]
    simp only [hblank]
  rw [plan, plan, hsize, houtcome]

namespace Settings

/-- **Only trimmed text matters.** Two documents whose lines are the same after blank characters at
both ends are trimmed, line by line, have the same plan under checked settings: the same outcomes,
with their extents, trailing blank lines and faults, and the same removal set. What they retain are
the lines at the same places, those that are not removed. -/
theorem plan_eq_of_trimmed_eq (settings : Settings) (hcheck : settings.check = .ok ())
    (source other : Source) (names : List String)
    (h : source.lines.map Text.trimmed = other.lines.map Text.trimmed) :
    let plan := settings.cutter.plan source names
    let plan' := settings.cutter.plan other names
    plan = plan' ∧ plan.outcomes = plan'.outcomes ∧ plan.removal = plan'.removal ∧
      (∀ index, index ∈ plan.remaining ↔ index < source.size ∧ index ∉ plan.removal) ∧
      plan.retained source = source.linesAt plan.remaining ∧
      plan'.retained other = other.linesAt plan.remaining := by
  intro plan plan'
  obtain ⟨hne, hkeywords⟩ := (check_eq_ok_iff settings).1 hcheck
  have htrimmed : source.trimmed = other.trimmed := congrArg Source.mk h
  have hplan : plan = plan' := by
    calc plan = settings.cutter.plan source.trimmed names :=
          (Cutter.plan_trimmed hne hkeywords source names).symm
      _ = settings.cutter.plan other.trimmed names := by rw [htrimmed]
      _ = plan' := Cutter.plan_trimmed hne hkeywords other names
  have hother : plan'.retained other = other.linesAt plan'.remaining :=
    plan'.retained_eq_linesAt rfl
  rw [← congrArg Plan.remaining hplan] at hother
  exact ⟨hplan, congrArg Plan.outcomes hplan, congrArg Plan.removal hplan,
    Cutter.mem_remaining_iff names, plan.retained_eq_linesAt rfl, hother⟩

/-- Carriage returns on the one side; tabs, a wide space and no terminators on the other. -/
theorem plan_eq_of_trimmed_eq_on_line_ends :
    let settings : Settings := { builtin with trimsBlank := true }
    let source : Source := ⟨["  /** A */\r\n", "  private a() \x7b\r\n", "  \x7d\r\n", "\r\n",
      "private b() \x7b\r\n"]⟩
    let other : Source :=
      ⟨["\t/** A */", "private a() \x7b", "\u3000\x7d", "\t\t", "\tprivate b() \x7b  "]⟩
    settings.check = .ok () ∧ source.lines.map Text.trimmed = other.lines.map Text.trimmed ∧
      (settings.cutter.plan other ["b", "a"]).removal = [0, 1, 2, 3] ∧
      (settings.cutter.plan other ["b", "a"]).outcomes =
        [.missing (.unbalanced "b" 5), .found "a" ⟨0, 1, 2⟩ (some 3)] := by
  intro settings source other
  have hcheck : settings.check = .ok () := rfl
  have hlines : source.lines.map Text.trimmed = other.lines.map Text.trimmed := by decide +kernel
  obtain ⟨-, houtcomes, hremoval, -⟩ :=
    plan_eq_of_trimmed_eq settings hcheck source other ["b", "a"] hlines
  refine ⟨hcheck, hlines, ?_, ?_⟩
  · rw [← hremoval]
    decide +kernel
  · rw [← houtcomes]
    decide +kernel

end Settings

end Excision
