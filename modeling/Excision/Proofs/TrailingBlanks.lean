import Excision.Proofs.Accounts

/-!
# What trimming costs

Two cutters with the same search may differ in whether the blank line directly after a method goes
as well. Their outcomes differ in that line only (`Search.outcome_untrimmed`), so the trimming plan
removes what the plain one removes and, besides, the blank lines directly after the extents that
were found (`Search.removes_trimming_iff`). Such a line may lie inside of another extent, or follow
several of them; each extent costs at most one further line (`Search.length_removedBeyond_le`).

A line that is not blank therefore stays with both plans or with neither
(`Search.remaining_filter_eq`), and the retained lines are the same up to blank ones
(`Search.trimming_costs_blank_lines`).
-/

set_option autoImplicit false

namespace Excision

namespace Outcome

/-- The outcome without the blank line that is cut with the extent. -/
def untrimmed : Outcome → Outcome
  | found name extent _ => found name extent none
  | missing miss => missing miss

/-- The extent of a method that was found. -/
def extent? : Outcome → Option Extent
  | found _ extent _ => some extent
  | missing _ => none

end Outcome

namespace Plan

/-- The extents of the methods that were found, in request order. -/
def extents (plan : Plan) : List Extent := plan.outcomes.filterMap Outcome.extent?

/-- The lines that go with one plan and stay with another. -/
def removedBeyond (plan other : Plan) : List Nat :=
  plan.removal.filter fun index => index ∉ other.removal

theorem mem_removedBeyond_iff (plan other : Plan) (index : Nat) :
    index ∈ plan.removedBeyond other ↔ index ∈ plan.removal ∧ index ∉ other.removal := by
  simp [removedBeyond]

theorem nodup_removedBeyond (plan other : Plan) : (plan.removedBeyond other).Nodup :=
  (plan.removal_pairwise_lt.imp Nat.ne_of_lt).filter _

end Plan

/-! ## Lines that are not blank -/

namespace Source

/-- The lines at some indices that are not blank are those at the indices of lines that are not
blank. -/
theorem filter_linesAt (source : Source) (indices : List Nat) :
    (source.linesAt indices).filter (!Text.isBlankText ·) =
      source.linesAt (indices.filter (!source.isBlankAt ·)) := by
  induction indices with
  | nil => rfl
  | cons index indices ih =>
      -- an index beyond the document is on neither side
      cases hline : source.lines[index]? with
      | none =>
          have hskip (indices : List Nat) :
              source.linesAt (index :: indices) = source.linesAt indices :=
            List.filterMap_cons_none hline
          rw [hskip, ih, List.filter_cons]
          split
          · rw [hskip]
          · rfl
      | some line =>
          have hcons (indices : List Nat) :
              source.linesAt (index :: indices) = line :: source.linesAt indices :=
            List.filterMap_cons_some hline
          have hblank : source.isBlankAt index = Text.isBlankText line := by
            rw [isBlankAt, hline, Option.any_some]
          rw [hcons, List.filter_cons, List.filter_cons, hblank, ih]
          split
          · rw [hcons]
          · rfl

end Source

/-- The extents of a plan are those of the names that are found. -/
theorem Cutter.mem_extents_plan_iff (cutter : Cutter) (source : Source) (names : List String)
    (e : Extent) :
    e ∈ (cutter.plan source names).extents ↔
      ∃ name ∈ names, cutter.search.find source.lines name = .ok e := by
  have hextent (name : String) : (cutter.outcome source name).extent? = some e ↔
      cutter.search.find source.lines name = .ok e := by
    unfold outcome
    cases cutter.search.find source.lines name <;> simp [Outcome.extent?]
  simp only [Plan.extents, plan, List.mem_filterMap, List.mem_map, exists_exists_and_eq_and,
    hextent]

/-! ## Two plans with one search -/

namespace Search

variable (search : Search) (source : Source) (names : List String)

/-- The cutter that cuts the blank line after a method with it. -/
def trimming : Cutter := ⟨search, true⟩

/-- The cutter that leaves the blank line after a method. -/
def plain : Cutter := ⟨search, false⟩

/-- What becomes of a name differs in the blank line only. -/
theorem outcome_untrimmed (name : String) :
    (search.trimming.outcome source name).untrimmed = search.plain.outcome source name := by
  unfold Cutter.outcome trimming plain
  dsimp only
  cases search.find source.lines name <;> rfl

/-- Trimming removes the blank lines directly after the extents besides. -/
theorem removes_trimming_iff (index : Nat) :
    (search.trimming.plan source names).removes index = true ↔
      (search.plain.plan source names).removes index = true ∨
        source.isBlankAt index = true ∧
          ∃ e ∈ (search.plain.plan source names).extents, index = e.last + 1 := by
  rw [Cutter.removes_plan_iff, Cutter.removes_plan_iff_of_not_trims rfl]
  simp only [Cutter.mem_extents_plan_iff, Cutter.trailingBlank?_eq_some_iff]
  constructor
  · rintro ⟨name, hname, e, hfind, hcovers | ⟨-, hblank, hlast⟩⟩
    · exact Or.inl ⟨name, hname, e, hfind, hcovers⟩
    · exact Or.inr ⟨hblank, e, ⟨name, hname, hfind⟩, hlast⟩
  · rintro (⟨name, hname, e, hfind, hcovers⟩ | ⟨hblank, e, ⟨name, hname, hfind⟩, hlast⟩)
    · exact ⟨name, hname, e, hfind, Or.inl hcovers⟩
    · exact ⟨name, hname, e, hfind, Or.inr ⟨rfl, hblank, hlast⟩⟩

theorem mem_removal_trimming_iff (index : Nat) :
    index ∈ (search.trimming.plan source names).removal ↔
      index ∈ (search.plain.plan source names).removal ∨
        source.isBlankAt index = true ∧
          ∃ e ∈ (search.plain.plan source names).extents, index = e.last + 1 := by
  rw [Cutter.mem_removal_plan_iff, Cutter.mem_removal_plan_iff, removes_trimming_iff]

/-- Each extent costs at most one further line, and extents that end on the same line cost the same
one. -/
theorem length_removedBeyond_le :
    ((search.trimming.plan source names).removedBeyond (search.plain.plan source names)).length ≤
      (search.plain.plan source names).extents.toFinset.card := by
  let trimmed := search.trimming.plan source names
  let kept := search.plain.plan source names
  have hends : (trimmed.removedBeyond kept).toFinset ⊆
      kept.extents.toFinset.image fun e => e.last + 1 := by
    intro index hindex
    obtain ⟨hgoes, hstays⟩ :=
      (trimmed.mem_removedBeyond_iff kept index).1 (List.mem_toFinset.1 hindex)
    obtain ⟨-, e, he, hlast⟩ :=
      ((search.mem_removal_trimming_iff source names index).1 hgoes).resolve_left hstays
    exact Finset.mem_image.2 ⟨e, List.mem_toFinset.2 he, hlast.symm⟩
  calc (trimmed.removedBeyond kept).length
      = (trimmed.removedBeyond kept).toFinset.card :=
        (List.toFinset_card_of_nodup (trimmed.nodup_removedBeyond kept)).symm
    _ ≤ (kept.extents.toFinset.image fun e => e.last + 1).card := Finset.card_le_card hends
    _ ≤ kept.extents.toFinset.card := Finset.card_image_le

/-- A line that is not blank stays with both plans or with neither. -/
theorem remaining_filter_eq :
    (search.trimming.plan source names).remaining.filter (!source.isBlankAt ·) =
      (search.plain.plan source names).remaining.filter (!source.isBlankAt ·) := by
  unfold Plan.remaining
  rw [List.filter_filter, List.filter_filter]
  apply List.filter_congr
  intro index _
  cases hblank : source.isBlankAt index with
  | true => rfl
  | false =>
      -- what trimming removes besides is blank
      have hsame : (search.trimming.plan source names).removes index =
          (search.plain.plan source names).removes index := by
        rw [Bool.eq_iff_iff, removes_trimming_iff, hblank]
        simp
      rw [hsame]

/-- **Trimming costs only blank lines.** With and without trimming a plan finds and misses the same
names with the same extents and for the same reasons, in the same order. The lines that go with
trimming are those that go without it and the blank lines directly after the extents, so at most as
many further ones as there are extents. The lines that are not blank stay at the same places, and
the retained lines that are not blank are the same. -/
theorem trimming_costs_blank_lines (search : Search) (source : Source) (names : List String) :
    let trimmed := search.trimming.plan source names
    let plain := search.plain.plan source names
    trimmed.outcomes.map Outcome.untrimmed = plain.outcomes ∧
      plain.removal ⊆ trimmed.removal ∧
      (∀ index, index ∈ trimmed.removal ↔
        index ∈ plain.removal ∨
          source.isBlankAt index = true ∧ ∃ e ∈ plain.extents, index = e.last + 1) ∧
      (∀ index ∈ trimmed.removedBeyond plain,
        source.isBlankAt index = true ∧ ∃ e ∈ plain.extents, index = e.last + 1) ∧
      (trimmed.removedBeyond plain).length ≤ plain.extents.toFinset.card ∧
      trimmed.remaining.filter (!source.isBlankAt ·) =
        plain.remaining.filter (!source.isBlankAt ·) ∧
      (trimmed.retained source).filter (!Text.isBlankText ·) =
        (plain.retained source).filter (!Text.isBlankText ·) := by
  intro trimmed plain
  have hmem := search.mem_removal_trimming_iff source names
  have hremaining := search.remaining_filter_eq source names
  refine ⟨?_, ?_, hmem, ?_, search.length_removedBeyond_le source names, hremaining, ?_⟩
  · show (names.map (search.trimming.outcome source)).map Outcome.untrimmed =
      names.map (search.plain.outcome source)
    rw [List.map_map]
    apply List.map_congr_left
    intro name _
    exact search.outcome_untrimmed source name
  · intro index hindex
    exact (hmem index).2 (Or.inl hindex)
  · intro index hindex
    obtain ⟨hgoes, hstays⟩ := (trimmed.mem_removedBeyond_iff plain index).1 hindex
    exact ((hmem index).1 hgoes).resolve_left hstays
  · rw [trimmed.retained_eq_linesAt rfl, plain.retained_eq_linesAt rfl, Source.filter_linesAt,
      Source.filter_linesAt, hremaining]

/-- A method with another one inside and a third below: the blank line after the inner method goes
with the outer one anyhow, and the blank lines after the two others are what trimming costs. -/
theorem trimming_costs_blank_lines_of_three_methods :
    let search : Search := ⟨["private"], .docBlock, 20, .standard⟩
    let source : Source := ⟨["private a() \x7b\n", "  private b() \x7b\x7d\n", "\n", "\x7d\n",
      " \t\n", "private c() \x7b\x7d\n", "\n", "k\n"]⟩
    let names := ["b", "a", "gone", "a", "c"]
    let trimmed := search.trimming.plan source names
    let plain := search.plain.plan source names
    plain.removal = [0, 1, 2, 3, 5] ∧ 6 ∈ trimmed.removedBeyond plain ∧
      (source.isBlankAt 6 = true ∧ ∃ e ∈ plain.extents, 6 = e.last + 1) ∧
      trimmed.removedBeyond plain = [4, 6] ∧ plain.extents.toFinset.card = 3 ∧
      (trimmed.retained source).filter (!Text.isBlankText ·) = ["k\n"] := by
  intro search source names trimmed plain
  obtain ⟨-, -, -, hcosts, -, -, hretained⟩ := search.trimming_costs_blank_lines source names
  have hsix : 6 ∈ trimmed.removedBeyond plain := by decide +kernel
  refine ⟨by decide +kernel, hsix, hcosts 6 hsix, by decide +kernel, by decide +kernel, ?_⟩
  rw [hretained]
  decide +kernel

end Search

end Excision
