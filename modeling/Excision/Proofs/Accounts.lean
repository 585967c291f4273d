import Excision.Proofs.Draft
import Mathlib.Data.Finset.Card
import Mathlib.Data.List.Induction

/-!
# Every line is accounted for

The indices of a document fall into those that a plan removes and the others. The retained lines are
the lines at the others, in order (`Plan.retained_eq_linesAt`), so retained and removed lines
together are the document, and their numbers add up to its length
(`Cutter.finalLines_add_removedLines`).

For the plan of a cutter, `Cutter.plan_accounts` says which indices are removed: those within the
extent of a found name, and the blank line directly below one if blank lines are to go. No other
index is ever marked on the way, in particular none beyond the document.
-/

set_option autoImplicit false

namespace Excision

namespace Source

/-- The lines of a document at some indices. -/
def linesAt (source : Source) (indices : List Nat) : List String :=
  indices.filterMap fun index => source.lines[index]?

/-- A selection of the lines by their indices. -/
theorem map_filter_zipIdx_eq_linesAt (selected : Nat → Bool) (lines : List String) :
    (lines.zipIdx.filter fun line => selected line.2).map Prod.fst =
      (⟨lines⟩ : Source).linesAt ((List.range lines.length).filter selected) := by
  -- the selection grows at its end as the document does
  induction lines using List.reverseRecOn with
  | nil => rfl
  | append_singleton lines line ih =>
      have habove : (⟨lines ++ [line]⟩ : Source).linesAt
          ((List.range lines.length).filter selected) =
          (⟨lines⟩ : Source).linesAt ((List.range lines.length).filter selected) := by
        refine List.filterMap_congr fun index hindex => ?_
        exact List.getElem?_append_left (List.mem_range.1 (List.mem_filter.1 hindex).1)
      rw [List.zipIdx_append, List.filter_append, List.map_append, ih, List.length_append,
        List.length_singleton, List.range_succ, List.filter_append, ← habove]
      simp only [linesAt, List.filterMap_append, List.append_cancel_left_eq, Nat.zero_add,
        List.zipIdx_cons, List.zipIdx_nil, List.filter_cons, List.filter_nil]
      cases selected lines.length <;> simp

/-- The lines at all indices are the lines of the document. -/
theorem linesAt_range (source : Source) :
    source.linesAt (List.range source.size) = source.lines := by
  have hall := map_filter_zipIdx_eq_linesAt (fun _ => true) source.lines
  simp only [List.filter_true, List.zipIdx_map_fst] at hall
  exact hall.symm

/-- There is one line at each index within the document. -/
theorem length_linesAt {source : Source} {indices : List Nat}
    (h : ∀ index ∈ indices, index < source.size) :
    (source.linesAt indices).length = indices.length := by
  induction indices with
  | nil => rfl
  | cons index indices ih =>
      rw [List.forall_mem_cons] at h
      have hindex : index < source.lines.length := h.1
      have hline : source.lines[index]? = some source.lines[index] :=
        List.getElem?_eq_getElem hindex
      have hcons : source.linesAt (index :: indices) =
          source.lines[index] :: source.linesAt indices :=
        List.filterMap_cons_some hline
      rw [hcons, List.length_cons, List.length_cons, ih h.2]

end Source

namespace Plan

variable (plan : Plan)

/-- The indices of the lines that stay, in increasing order. -/
def remaining (plan : Plan) : List Nat :=
  (List.range plan.originalLines).filter fun index => !plan.removes index

theorem retained_eq_linesAt {source : Source} (h : plan.originalLines = source.size) :
    plan.retained source = source.linesAt plan.remaining := by
  rw [remaining, h]
  exact Source.map_filter_zipIdx_eq_linesAt (fun index => !plan.removes index) source.lines

/-- Each index stays or goes. -/
theorem remaining_append_removal_perm :
    (plan.remaining ++ plan.removal).Perm (List.range plan.originalLines) :=
  List.perm_append_comm.trans (List.filter_append_perm plan.removes _)

/-- The lines that go are in increasing order, each once. -/
theorem removal_pairwise_lt : plan.removal.Pairwise (· < ·) :=
  List.pairwise_lt_range.filter _

theorem removedLines_le : plan.removedLines ≤ plan.originalLines := by
  have hle := List.length_filter_le plan.removes (List.range plan.originalLines)
  rwa [List.length_range] at hle

theorem length_remaining_add_removedLines :
    plan.remaining.length + plan.removedLines = plan.originalLines := by
  have hlength := plan.remaining_append_removal_perm.length_eq
  rwa [List.length_append, List.length_range] at hlength

/-- The retained lines and the removed lines together are the lines of the document. -/
theorem retained_append_removed_perm {source : Source} (h : plan.originalLines = source.size) :
    (plan.retained source ++ source.linesAt plan.removal).Perm source.lines := by
  have hperm := plan.remaining_append_removal_perm.filterMap fun index => source.lines[index]?
  rw [List.filterMap_append, h] at hperm
  rw [plan.retained_eq_linesAt h]
  exact hperm.trans (List.Perm.of_eq source.linesAt_range)

theorem length_retained {source : Source} (h : plan.originalLines = source.size) :
    (plan.retained source).length = plan.finalLines := by
  have hin : ∀ index ∈ plan.remaining, index < source.size := by
    intro index hindex
    rw [← h]
    exact List.mem_range.1 (List.mem_filter.1 hindex).1
  have hsum := plan.length_remaining_add_removedLines
  rw [plan.retained_eq_linesAt h, Source.length_linesAt hin, finalLines]
  omega

end Plan

namespace Cutter

variable {cutter : Cutter} {source : Source}

/-- A plan removes the extents of the found names, and the blank line below one if such lines are
to go. -/
theorem mem_removal_iff_exists_extent (names : List String) (index : Nat) :
    index ∈ (cutter.plan source names).removal ↔
      ∃ name ∈ names, ∃ e, cutter.search.find source.lines name = .ok e ∧
        (e.first ≤ index ∧ index ≤ e.last ∨
          cutter.trimsBlank = true ∧ index = e.last + 1 ∧ source.isBlankAt index = true) := by
  rw [mem_removal_plan_iff, removes_plan_iff]
  refine exists_congr fun name => and_congr_right fun _ => exists_congr fun e =>
    and_congr_right fun _ => or_congr (Extent.covers_iff _ _) ?_
  rw [trailingBlank?_eq_some_iff, and_comm (a := source.isBlankAt index = true)]

theorem mem_remaining_iff (names : List String) (index : Nat) :
    index ∈ (cutter.plan source names).remaining ↔
      index < source.size ∧ index ∉ (cutter.plan source names).removal := by
  rw [Plan.remaining, List.mem_filter, List.mem_range, mem_removal_plan_iff]
  simp [plan]

/-- Nothing beyond the document is marked while a plan is drafted. -/
theorem lt_size_of_mem_marked {names : List String} {index : Nat}
    (h : index ∈ (cutter.draft source names).marked) : index < source.size :=
  lt_size_of_removes ((mem_marked_draft_iff names index).1 h)

/-- **A plan accounts for every line.** What is marked name by name is the removal set; it lies
within the document and is made of the extents of the found names and of the blank lines cut with
them. The extents themselves are in order and within the document. The retained lines are the lines
at the other indices, in order, so nothing is lost and nothing doubled, and the numbers of removed
and of final lines are those of the lines removed and retained. -/
theorem plan_accounts (cutter : Cutter) (source : Source) (names : List String) :
    let plan := cutter.plan source names
    (cutter.draft source names).marked = plan.removal.toFinset ∧
      plan.removal.Pairwise (· < ·) ∧
      (∀ index, index ∈ plan.removal ↔
        ∃ name ∈ names, ∃ e, cutter.search.find source.lines name = .ok e ∧
          (e.first ≤ index ∧ index ≤ e.last ∨
            cutter.trimsBlank = true ∧ index = e.last + 1 ∧ source.isBlankAt index = true)) ∧
      (∀ name e, cutter.search.find source.lines name = .ok e →
        e.first ≤ e.declaration ∧ e.declaration ≤ e.last ∧ e.last < source.size) ∧
      (∀ index ∈ (cutter.draft source names).marked, index < source.size) ∧
      plan.removedLines = (cutter.draft source names).marked.card ∧
      plan.removedLines ≤ source.size ∧
      plan.finalLines + plan.removedLines = source.size ∧
      plan.finalLines = (plan.retained source).length ∧
      plan.retained source = source.linesAt plan.remaining ∧
      (∀ index, index ∈ plan.remaining ↔ index < source.size ∧ index ∉ plan.removal) ∧
      (plan.remaining ++ plan.removal).Perm (List.range source.size) ∧
      (plan.retained source ++ source.linesAt plan.removal).Perm source.lines := by
  intro plan
  have hsize : plan.originalLines = source.size := rfl
  have hmarked : (cutter.draft source names).marked = plan.removal.toFinset :=
    congrArg Draft.marked (draft_eq_plan names)
  have hnodup : plan.removal.Nodup := plan.removal_pairwise_lt.imp Nat.ne_of_lt
  have hle : plan.removedLines ≤ source.size := plan.removedLines_le
  refine ⟨hmarked, plan.removal_pairwise_lt, mem_removal_iff_exists_extent names,
    fun name e hfind => (Search.bounds_of_find hfind).2, fun index => lt_size_of_mem_marked, ?_,
    hle, ?_, (plan.length_retained hsize).symm, plan.retained_eq_linesAt hsize,
    mem_remaining_iff names, plan.remaining_append_removal_perm,
    plan.retained_append_removed_perm hsize⟩
  · rw [hmarked, List.toFinset_card_of_nodup hnodup, Plan.removedLines]
  · rw [Plan.finalLines, hsize, Nat.sub_add_cancel hle]

/-- A method inside of another one, a blank line below, and a line with a newline inside of it: of
six lines five go, each once, although one name is requested twice. -/
theorem plan_accounts_on_nested_methods :
    let cutter : Cutter := ⟨⟨["private"], .docBlock, 18446744073709551615, .standard⟩, true⟩
    let source : Source := ⟨["/** A */\n", "private a() \x7b\n", "private b() \x7b\x7d\n",
      "\x7d\n", " \n", "keep();\nkeep();\n"]⟩
    let plan := cutter.plan source ["b", "a", "b"]
    cutter.search.find source.lines "a" = .ok ⟨0, 1, 3⟩ ∧ 3 < source.size ∧
      plan.removal = [0, 1, 2, 3, 4] ∧ 3 ∈ plan.removal ∧ plan.finalLines = 1 ∧
      plan.retained source = ["keep();\nkeep();\n"] := by
  intro cutter source plan
  have hfind : cutter.search.find source.lines "a" = .ok ⟨0, 1, 3⟩ := by decide +kernel
  obtain ⟨-, -, hmem, hbounds, -, -, -, hsum, -⟩ :=
    plan_accounts cutter source ["b", "a", "b"]
  have hremoval : plan.removal = [0, 1, 2, 3, 4] := by decide +kernel
  refine ⟨hfind, (hbounds "a" _ hfind).2.2, hremoval, ?_, ?_, by decide +kernel⟩
  · exact (hmem 3).2 ⟨"a", by simp, _, hfind, Or.inl ⟨by decide, by decide⟩⟩
  · have hremoved : plan.removedLines = 5 := congrArg List.length hremoval
    have hsize : source.size = 6 := rfl
    have htotal : plan.finalLines + plan.removedLines = source.size := hsum
    omega

end Cutter

end Excision
