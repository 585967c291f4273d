import Excision.Proofs.Accounts
import Excision.Report
import Mathlib.Algebra.Ring.Nat
import Mathlib.Order.Interval.Finset.Nat

/-!
# Reports add up

A report tells of each found method where it stands, in line numbers from one, how many lines it
has, and whether the blank line after it went as well. It does not tell which lines went in all.
That can be read off (`MethodReport.removed`): the lines of the found methods, counted from zero,
together with the blank lines after them, are the removal set of the plan
(`PruneReport.unionOf_removed`).

Methods may lie inside of each other, share the blank line after them, or be requested twice, so the
report may count a line more than once. The number of removed lines is at most what the report
counts method by method, and it is that number exactly if no two entries share a line
(`card_unionOf_eq_sum_iff`, `PruneReport.report_adds_up`).
-/

set_option autoImplicit false

namespace Excision

/-! ## Sets put together -/

section Union

variable {α : Type} [DecidableEq α]

/-- What is in any set of a list. -/
def unionOf (sets : List (Finset α)) : Finset α := sets.foldr (· ∪ ·) ∅

theorem unionOf_cons (set : Finset α) (sets : List (Finset α)) :
    unionOf (set :: sets) = set ∪ unionOf sets := rfl

theorem mem_unionOf_iff (sets : List (Finset α)) (a : α) :
    a ∈ unionOf sets ↔ ∃ set ∈ sets, a ∈ set := by
  induction sets with
  | nil => simp [unionOf]
  | cons set sets ih => rw [unionOf_cons, Finset.mem_union, ih, List.exists_mem_cons_iff]

theorem disjoint_unionOf_iff (set : Finset α) (sets : List (Finset α)) :
    Disjoint set (unionOf sets) ↔ ∀ other ∈ sets, Disjoint set other := by
  induction sets with
  | nil => simp [unionOf]
  | cons other sets ih => rw [unionOf_cons, Finset.disjoint_union_right, ih, List.forall_mem_cons]

theorem card_unionOf_le_sum (sets : List (Finset α)) :
    (unionOf sets).card ≤ (sets.map Finset.card).sum := by
  induction sets with
  | nil => exact Nat.le_refl 0
  | cons set sets ih =>
      calc (unionOf (set :: sets)).card
          ≤ set.card + (unionOf sets).card := Finset.card_union_le _ _
        _ ≤ set.card + (sets.map Finset.card).sum := Nat.add_le_add_left ih _
        _ = ((set :: sets).map Finset.card).sum := (List.sum_cons ..).symm

/-- Nothing is counted twice exactly if no two sets of the list share anything. -/
theorem card_unionOf_eq_sum_iff (sets : List (Finset α)) :
    (unionOf sets).card = (sets.map Finset.card).sum ↔ sets.Pairwise Disjoint := by
  induction sets with
  | nil => simp [unionOf]
  | cons set sets ih =>
      have hunion := Finset.card_union_le set (unionOf sets)
      have hsum := card_unionOf_le_sum sets
      rw [List.pairwise_cons, ← disjoint_unionOf_iff, ← ih, ← Finset.card_union_eq_card_add_card,
        unionOf_cons, List.map_cons, List.sum_cons]
      -- each of the two inequalities has to be an equality
      constructor
      · intro h
        exact ⟨by omega, by omega⟩
      · rintro ⟨hfirst, hothers⟩
        omega

end Union

/-! ## What a report tells of one method -/

/-- The extent of a found method does not end before it starts, and a blank line that is cut with it
is the next one. -/
def Outcome.InOrder : Outcome → Prop
  | found _ extent trailingBlank =>
    extent.first ≤ extent.last ∧ ∀ index, trailingBlank = some index → index = extent.last + 1
  | missing _ => True

theorem Cutter.inOrder_outcome (cutter : Cutter) (source : Source) (name : String) :
    (cutter.outcome source name).InOrder := by
  unfold outcome
  cases hfind : cutter.search.find source.lines name with
  | error miss => trivial
  | ok extent =>
      obtain ⟨-, hfirst, hlast, -⟩ := Search.bounds_of_find hfind
      refine ⟨Nat.le_trans hfirst hlast, fun index hblank => ?_⟩
      exact ((trailingBlank?_eq_some_iff extent index).1 hblank).2.2

/-- An outcome has the name that was requested. -/
theorem Cutter.name_outcome (cutter : Cutter) (source : Source) (name : String) :
    (cutter.outcome source name).name = name := by
  unfold outcome Search.find
  cases cutter.search.refusal? name with
  | some complaint => rfl
  | none =>
      dsimp only
      cases cutter.search.declaration? source.lines name with
      | none => rfl
      | some declaration =>
          dsimp only
          cases bodyEnd source.lines declaration <;> rfl

namespace MethodReport

/-- The lines, counted from zero, that went with a method according to its report: those of the
method, and the blank line after it. -/
def removed (report : MethodReport) : Finset Nat :=
  match report.startLine, report.endLine with
  | some first, some last =>
    Finset.Icc (first - 1) (last - 1) ∪ if report.trailingBlankRemoved then {last} else ∅
  | _, _ => ∅

/-- How many lines a report counts for a method and the blank line after it. -/
def counted (report : MethodReport) : Nat :=
  report.lines + if report.trailingBlankRemoved then 1 else 0

theorem found_ofOutcome (outcome : Outcome) : (ofOutcome outcome).found = outcome.isFound := by
  cases outcome <;> rfl

theorem name_ofOutcome (outcome : Outcome) : (ofOutcome outcome).name = outcome.name := by
  cases outcome <;> rfl

variable {outcome : Outcome}

/-- A report tells exactly which lines went with a method. -/
theorem mem_removed_ofOutcome_iff (h : outcome.InOrder) (index : Nat) :
    index ∈ (ofOutcome outcome).removed ↔ outcome.removes index = true := by
  cases outcome with
  | missing miss => simp [ofOutcome, removed, Outcome.removes]
  | found name extent trailingBlank =>
      obtain ⟨-, hblank⟩ := h
      rw [Outcome.removes, Bool.or_eq_true, Extent.covers_iff, beq_iff_eq, removed, ofOutcome]
      simp only [Nat.add_sub_cancel, Finset.mem_union, Finset.mem_Icc]
      refine or_congr_right ?_
      cases trailingBlank with
      | none => simp
      | some blank =>
          obtain rfl := hblank blank rfl
          simp [eq_comm]

/-- A report counts the lines that went with a method. -/
theorem card_removed_ofOutcome (h : outcome.InOrder) :
    (ofOutcome outcome).removed.card = (ofOutcome outcome).counted := by
  cases outcome with
  | missing miss => rfl
  | found name extent trailingBlank =>
      obtain ⟨hle, -⟩ := h
      -- the blank line comes after the method
      have hdisjoint : Disjoint (Finset.Icc extent.first extent.last)
          (if trailingBlank.isSome then {extent.last + 1} else ∅) := by
        split
        · simp
        · exact Finset.disjoint_empty_right _
      have hlines : (Finset.Icc extent.first extent.last).card = extent.size := by
        rw [Nat.card_Icc, Extent.size]
        omega
      rw [removed, counted, ofOutcome]
      simp only [Nat.add_sub_cancel]
      rw [Finset.card_union_of_disjoint hdisjoint, hlines]
      split <;> rfl

/-- A missed method has a reason and no line numbers. -/
theorem missed_ofOutcome (h : (ofOutcome outcome).found = false) :
    (ofOutcome outcome).reason.isSome = true ∧ (ofOutcome outcome).startLine = none ∧
      (ofOutcome outcome).declarationLine = none ∧ (ofOutcome outcome).endLine = none := by
  cases outcome with
  | missing miss => exact ⟨rfl, rfl, rfl, rfl⟩
  | found name extent trailingBlank => cases h

/-- A found method has line numbers and no reason. -/
theorem located_ofOutcome (h : (ofOutcome outcome).found = true) :
    (ofOutcome outcome).reason = none ∧ (ofOutcome outcome).startLine.isSome = true ∧
      (ofOutcome outcome).declarationLine.isSome = true ∧
      (ofOutcome outcome).endLine.isSome = true := by
  cases outcome with
  | missing miss => cases h
  | found name extent trailingBlank => exact ⟨rfl, rfl, rfl, rfl⟩

end MethodReport

/-! ## Whole reports -/

namespace PruneReport

/-- The entries of the methods that were found. -/
def located (report : PruneReport) : List MethodReport := report.methods.filter (·.found)

section OfPlan

variable (plan : Plan) (input : String) (output : Option String) (written : Bool)

theorem located_ofPlan : (ofPlan plan input output written).located =
    (plan.outcomes.filter Outcome.isFound).map MethodReport.ofOutcome := by
  show (plan.outcomes.map MethodReport.ofOutcome).filter (·.found) = _
  rw [List.filter_map]
  refine congrArg (List.map MethodReport.ofOutcome) (List.filter_congr fun outcome _ => ?_)
  exact MethodReport.found_ofOutcome outcome

/-- The missing names are those of the entries that are not found, in their order. -/
theorem missing_ofPlan : (ofPlan plan input output written).missing =
    ((ofPlan plan input output written).methods.filter (!·.found)).map MethodReport.name := by
  show (plan.outcomes.filter (!·.isFound)).map Outcome.name =
    ((plan.outcomes.map MethodReport.ofOutcome).filter (!·.found)).map MethodReport.name
  rw [List.filter_map, List.map_map]
  have hfound : ((!·.found) ∘ MethodReport.ofOutcome) = (!·.isFound) :=
    funext fun outcome => congrArg (!·) (MethodReport.found_ofOutcome outcome)
  rw [hfound]
  exact List.map_congr_left fun outcome _ => (MethodReport.name_ofOutcome outcome).symm

theorem allFound_ofPlan_iff : (ofPlan plan input output written).allFound = true ↔
    ∀ method ∈ (ofPlan plan input output written).methods, method.found = true := by
  rw [allFound, List.isEmpty_iff, missing_ofPlan, List.map_eq_nil_iff, List.filter_eq_nil_iff]
  simp

end OfPlan

section OfCutter

variable (cutter : Cutter) (source : Source) (names : List String) (input : String)
  (output : Option String) (written : Bool)

theorem inOrder_of_mem {outcome : Outcome}
    (h : outcome ∈ (cutter.plan source names).outcomes) : outcome.InOrder := by
  obtain ⟨name, -, rfl⟩ := List.mem_map.1 h
  exact cutter.inOrder_outcome source name

/-- The lines that the entries tell are the lines that the plan removes. -/
theorem unionOf_removed :
    unionOf ((ofPlan (cutter.plan source names) input output written).located.map
      MethodReport.removed) = (cutter.plan source names).removal.toFinset := by
  ext index
  rw [mem_unionOf_iff, List.mem_toFinset, Cutter.mem_removal_plan_iff, located_ofPlan,
    List.map_map, Plan.removes, List.any_eq_true]
  simp only [List.mem_map, exists_exists_and_eq_and, List.mem_filter, Function.comp_apply]
  refine exists_congr fun outcome => ?_
  constructor
  · rintro ⟨⟨hmem, -⟩, hindex⟩
    have horder := inOrder_of_mem cutter source names hmem
    exact ⟨hmem, (MethodReport.mem_removed_ofOutcome_iff horder index).1 hindex⟩
  · rintro ⟨hmem, hremoves⟩
    have horder := inOrder_of_mem cutter source names hmem
    -- an outcome that removes a line is found
    have hfound : outcome.isFound = true := by
      cases outcome with
      | found name extent trailingBlank => rfl
      | missing miss => cases hremoves
    exact ⟨⟨hmem, hfound⟩, (MethodReport.mem_removed_ofOutcome_iff horder index).2 hremoves⟩

theorem map_card_removed :
    ((ofPlan (cutter.plan source names) input output written).located.map
      MethodReport.removed).map Finset.card =
    (ofPlan (cutter.plan source names) input output written).located.map
      MethodReport.counted := by
  rw [located_ofPlan, List.map_map, List.map_map, List.map_map]
  refine List.map_congr_left fun outcome hmem => ?_
  exact MethodReport.card_removed_ofOutcome
    (inOrder_of_mem cutter source names (List.mem_filter.1 hmem).1)

end OfCutter

/-- **A report adds up.** The lines of the found methods and the blank lines after them are together
the removal set of the plan, which is what was marked name by name, and the report has its size. The
removed and the final lines together are the original ones. The found methods count at least as many
lines as were removed, and exactly as many if and only if no two of them share a line. There is one
entry for each requested name, in request order; the missing names are those of the entries that are
not found. An entry has either line numbers or a reason. All are found exactly if each one is. -/
theorem report_adds_up (cutter : Cutter) (source : Source) (names : List String) (input : String)
    (output : Option String) (written : Bool) :
    let plan := cutter.plan source names
    let report := ofPlan plan input output written
    unionOf (report.located.map MethodReport.removed) = plan.removal.toFinset ∧
      plan.removal.toFinset = (cutter.draft source names).marked ∧
      report.removedLines = plan.removal.toFinset.card ∧
      report.originalLines = source.size ∧
      report.originalLines = report.removedLines + report.finalLines ∧
      report.removedLines ≤ (report.located.map MethodReport.counted).sum ∧
      (report.removedLines = (report.located.map MethodReport.counted).sum ↔
        report.located.Pairwise fun method other => Disjoint method.removed other.removed) ∧
      report.methods.map MethodReport.name = names ∧
      report.missing = (report.methods.filter (!·.found)).map MethodReport.name ∧
      (∀ method ∈ report.methods, method.found = false →
        method.reason.isSome = true ∧ method.startLine = none ∧ method.declarationLine = none ∧
          method.endLine = none) ∧
      (∀ method ∈ report.methods, method.found = true →
        method.reason = none ∧ method.startLine.isSome = true ∧
          method.declarationLine.isSome = true ∧ method.endLine.isSome = true) ∧
      (report.allFound = true ↔ ∀ method ∈ report.methods, method.found = true) := by
  intro plan report
  let sets := report.located.map MethodReport.removed
  have hunion : unionOf sets = plan.removal.toFinset :=
    unionOf_removed cutter source names input output written
  have hnodup : plan.removal.Nodup := plan.removal_pairwise_lt.imp Nat.ne_of_lt
  have hsize : report.removedLines = plan.removal.toFinset.card :=
    (List.toFinset_card_of_nodup hnodup).symm
  have hcounted : sets.map Finset.card = report.located.map MethodReport.counted :=
    map_card_removed cutter source names input output written
  have hmarked : plan.removal.toFinset = (cutter.draft source names).marked :=
    (congrArg Draft.marked (Cutter.draft_eq_plan names)).symm
  refine ⟨hunion, hmarked, hsize, rfl, ?_, ?_, ?_, ?_, missing_ofPlan plan input output written,
    ?_, ?_, allFound_ofPlan_iff plan input output written⟩
  · exact (Nat.add_sub_cancel' plan.removedLines_le).symm
  · rw [hsize, ← hunion, ← hcounted]
    exact card_unionOf_le_sum sets
  · rw [hsize, ← hunion, ← hcounted, card_unionOf_eq_sum_iff, List.pairwise_map]
  · show ((names.map (cutter.outcome source)).map MethodReport.ofOutcome).map MethodReport.name =
      names
    rw [List.map_map, List.map_map]
    refine (List.map_congr_left fun name _ => ?_).trans (List.map_id names)
    rw [Function.comp_apply, Function.comp_apply, MethodReport.name_ofOutcome]
    exact cutter.name_outcome source name
  · intro method hmem
    obtain ⟨outcome, -, rfl⟩ := List.mem_map.1 hmem
    exact MethodReport.missed_ofOutcome
  · intro method hmem
    obtain ⟨outcome, -, rfl⟩ := List.mem_map.1 hmem
    exact MethodReport.located_ofOutcome

/-- A method inside of another one, requested twice, and a name that no line declares: four lines
go, and the entries count six. -/
theorem report_adds_up_on_shared_lines :
    let cutter : Cutter := ⟨⟨["private"], .docBlock, 20, .standard⟩, true⟩
    let source : Source := ⟨["private a() \x7b\n", "  private b() \x7b\x7d\n", "\x7d\n", " \n",
      "keep();\n"]⟩
    let report := ofPlan (cutter.plan source ["b", "a", "gone", "b"]) "S.ts" none false
    let first : MethodReport := ⟨"b", true, some 2, some 2, some 2, 1, false, none⟩
    let missed : MethodReport :=
      ⟨"gone", false, none, none, none, 0, false, some "no declaration of `gone` found"⟩
    report.removedLines = 4 ∧ (report.located.map MethodReport.counted).sum = 6 ∧
      ¬ report.located.Pairwise (fun method other => Disjoint method.removed other.removed) ∧
      first ∈ report.methods ∧ first.reason = none ∧ missed ∈ report.methods ∧
      missed.reason.isSome = true ∧ report.missing = ["gone"] ∧ report.allFound = false := by
  intro cutter source report first missed
  obtain ⟨-, -, -, -, -, -, hdisjoint, -, -, hmissed, hlocated, hall⟩ :=
    report_adds_up cutter source ["b", "a", "gone", "b"] "S.ts" none false
  have hremoved : report.removedLines = 4 := by decide +kernel
  have hcounted : (report.located.map MethodReport.counted).sum = 6 := by decide +kernel
  have hfirst : first ∈ report.methods := by decide +kernel
  have hgone : missed ∈ report.methods := by decide +kernel
  refine ⟨hremoved, hcounted, fun hpairwise => ?_, hfirst, (hlocated first hfirst rfl).1, hgone,
    (hmissed missed hgone rfl).1, by decide +kernel, ?_⟩
  · have hequal : report.removedLines = (report.located.map MethodReport.counted).sum :=
      hdisjoint.2 hpairwise
    rw [hremoved, hcounted] at hequal
    exact absurd hequal (by decide)
  · refine Bool.eq_false_iff.2 fun hfound => ?_
    exact Bool.false_ne_true (hall.1 hfound missed hgone)

end PruneReport

end Excision
