import Excision.Proofs.Removal
import Mathlib.Data.Fin.Rev
import Mathlib.Data.Finset.Lattice.Lemmas
import Mathlib.Tactic.Tauto

/-!
# Plans drafted name by name

A plan can be made in one walk over the requested names. A draft holds what is marked so far and
what became of the names so far; each name marks what its outcome removes and notes the outcome
down last (`Draft.note`). The draft for all names has exactly the removal set and the outcomes of
the plan (`Cutter.draft_eq_plan`).

What a walk adds does not depend on the draft it starts from (`Cutter.foldl_note`), so the draft of
two request lists in a row is made of the drafts of both (`Cutter.draft_append`). A name therefore
adds the same whatever is requested before and after it, and neither the order nor the repetition
of names matters for the removal set (`Cutter.plan_of_requests`).
-/

set_option autoImplicit false

namespace Excision

namespace Outcome

/-- The lines that an outcome removes. -/
def indices : Outcome → List Nat
  | found _ extent trailingBlank => extent.indices ++ trailingBlank.toList
  | missing _ => []

theorem mem_indices_iff (outcome : Outcome) (index : Nat) :
    index ∈ outcome.indices ↔ outcome.removes index = true := by
  cases outcome with
  | found name extent trailingBlank =>
      simp only [indices, removes, List.mem_append, Extent.mem_indices_iff, Option.mem_toList,
        Bool.or_eq_true, beq_iff_eq]
  | missing miss => simp [indices, removes]

end Outcome

/-! ## Drafts -/

/-- A plan in the making: the lines marked so far, and what became of the names so far. -/
@[ext]
structure Draft where
  marked : Finset Nat
  outcomes : List Outcome

namespace Draft

/-- The draft before any name is read. -/
def empty : Draft := ⟨∅, []⟩

/-- The draft after one more outcome. -/
def note (draft : Draft) (outcome : Outcome) : Draft :=
  ⟨draft.marked ∪ outcome.indices.toFinset, draft.outcomes ++ [outcome]⟩

/-- Two drafts in a row. -/
instance : Append Draft :=
  ⟨fun draft more => ⟨draft.marked ∪ more.marked, draft.outcomes ++ more.outcomes⟩⟩

@[simp]
theorem marked_append (draft more : Draft) :
    (draft ++ more).marked = draft.marked ∪ more.marked := rfl

@[simp]
theorem outcomes_append (draft more : Draft) :
    (draft ++ more).outcomes = draft.outcomes ++ more.outcomes := rfl

theorem append_empty (draft : Draft) : draft ++ empty = draft :=
  Draft.ext (Finset.union_empty _) (List.append_nil _)

/-- Noting down an outcome is putting the draft of that outcome alone behind. -/
theorem note_append (draft : Draft) (outcome : Outcome) (more : Draft) :
    draft.note outcome ++ more = draft ++ (empty.note outcome ++ more) := by
  refine Draft.ext ?_ ?_
  · simp only [marked_append, note, empty, Finset.empty_union, Finset.union_assoc]
  · simp only [outcomes_append, note, empty, List.nil_append, List.append_assoc]

end Draft

namespace Cutter

variable {cutter : Cutter} {source : Source}

/-- The draft for a list of requested names, made in one walk over them. -/
def draft (cutter : Cutter) (source : Source) (names : List String) : Draft :=
  names.foldl (fun draft name => draft.note (cutter.outcome source name)) Draft.empty

/-- What the walk adds to a draft is the draft of the names that it reads. -/
theorem foldl_note (before : Draft) (names : List String) :
    names.foldl (fun draft name => draft.note (cutter.outcome source name)) before =
      before ++ cutter.draft source names := by
  induction names generalizing before with
  | nil => exact (Draft.append_empty before).symm
  | cons name names ih =>
      have hfirst : cutter.draft source (name :: names) =
          Draft.empty.note (cutter.outcome source name) ++ cutter.draft source names :=
        ih (Draft.empty.note (cutter.outcome source name))
      rw [List.foldl_cons, ih, hfirst]
      exact Draft.note_append _ _ _

/-- The draft of two request lists in a row is made of the drafts of both. -/
theorem draft_append (names more : List String) :
    cutter.draft source (names ++ more) =
      cutter.draft source names ++ cutter.draft source more := by
  rw [draft, List.foldl_append]
  exact foldl_note _ _

theorem draft_singleton (name : String) :
    cutter.draft source [name] =
      ⟨(cutter.outcome source name).indices.toFinset, [cutter.outcome source name]⟩ :=
  Draft.ext (Finset.empty_union _) rfl

/-- The walk marks what the plan removes. -/
theorem mem_marked_draft_iff (names : List String) (index : Nat) :
    index ∈ (cutter.draft source names).marked ↔
      (cutter.plan source names).removes index = true := by
  induction names with
  | nil => simp [draft, Draft.empty, plan, Plan.removes]
  | cons name names ih =>
      have hplan : (cutter.plan source (name :: names)).removes index =
          ((cutter.outcome source name).removes index ||
            (cutter.plan source names).removes index) := rfl
      rw [← List.singleton_append, draft_append, Draft.marked_append, Finset.mem_union, ih,
        draft_singleton, List.mem_toFinset, Outcome.mem_indices_iff, List.singleton_append, hplan,
        Bool.or_eq_true]

theorem outcomes_draft (names : List String) :
    (cutter.draft source names).outcomes = (cutter.plan source names).outcomes := by
  induction names with
  | nil => rfl
  | cons name names ih =>
      rw [← List.singleton_append, draft_append, Draft.outcomes_append, ih, draft_singleton]
      rfl

/-- The draft for all names holds the removal set and the outcomes of the plan. -/
theorem draft_eq_plan (names : List String) :
    cutter.draft source names =
      ⟨(cutter.plan source names).removal.toFinset, (cutter.plan source names).outcomes⟩ := by
  refine Draft.ext (Finset.ext fun index => ?_) (outcomes_draft names)
  rw [mem_marked_draft_iff, List.mem_toFinset, mem_removal_plan_iff]

/-! ## Request lists -/

section Requests

variable {names more : List String}

theorem toFinset_removal_append (names more : List String) :
    (cutter.plan source (names ++ more)).removal.toFinset =
      (cutter.plan source names).removal.toFinset ∪
        (cutter.plan source more).removal.toFinset := by
  have hboth := congrArg Draft.marked (@draft_append cutter source names more)
  rwa [Draft.marked_append, draft_eq_plan, draft_eq_plan, draft_eq_plan] at hboth

theorem outcomes_append (names more : List String) :
    (cutter.plan source (names ++ more)).outcomes =
      (cutter.plan source names).outcomes ++ (cutter.plan source more).outcomes := by
  have hboth := congrArg Draft.outcomes (@draft_append cutter source names more)
  rwa [Draft.outcomes_append, draft_eq_plan, draft_eq_plan, draft_eq_plan] at hboth

/-- Each name has the outcome that it has when it is requested alone. -/
theorem outcomes_eq_flatMap (names : List String) :
    (cutter.plan source names).outcomes =
      names.flatMap fun name => (cutter.plan source [name]).outcomes := by
  induction names with
  | nil => rfl
  | cons name names ih =>
      rw [← List.singleton_append, outcomes_append, ih]
      rfl

/-- The outcome at a position is that of the name there. -/
theorem getElem?_outcomes (names : List String) (i : Nat) :
    (cutter.plan source names).outcomes[i]? = names[i]?.map (cutter.outcome source) :=
  List.getElem?_map

/-- More names remove more lines. -/
theorem removes_of_subset (h : names ⊆ more) {index : Nat}
    (hgoes : (cutter.plan source names).removes index = true) :
    (cutter.plan source more).removes index = true := by
  obtain ⟨name, hname, hfound⟩ := (removes_plan_iff index).1 hgoes
  exact (removes_plan_iff index).2 ⟨name, h hname, hfound⟩

/-- Lists with the same names remove the same lines. -/
theorem removes_congr (h : ∀ name, name ∈ names ↔ name ∈ more) :
    (cutter.plan source names).removes = (cutter.plan source more).removes := by
  funext index
  rw [Bool.eq_iff_iff]
  exact ⟨removes_of_subset fun name => (h name).1, removes_of_subset fun name => (h name).2⟩

/-- **A plan follows its request list.** The plan for two lists in a row has the union of the
removal sets and the outcomes one after the other, each name with the outcome that it has alone. So
two lists with the same names remove and retain the same lines, names in another order have their
outcomes in that order, and more names remove more. -/
theorem plan_of_requests (cutter : Cutter) (source : Source) (names more : List String) :
    let plan := cutter.plan source
    (plan (names ++ more)).removal.toFinset =
        (plan names).removal.toFinset ∪ (plan more).removal.toFinset ∧
      (plan (names ++ more)).outcomes = (plan names).outcomes ++ (plan more).outcomes ∧
      (plan names).outcomes = names.flatMap (fun name => (plan [name]).outcomes) ∧
      ((∀ name, name ∈ names ↔ name ∈ more) →
        (plan names).removal = (plan more).removal ∧
          (plan names).retained source = (plan more).retained source) ∧
      (∀ σ : Fin names.length ≃ Fin more.length, (∀ i, names[i] = more[σ i]) →
        ∀ i : Fin names.length,
          (plan names).outcomes[(i : Nat)]? = (plan more).outcomes[(σ i : Nat)]?) ∧
      (names ⊆ more → (plan names).removal ⊆ (plan more).removal) := by
  intro plan
  refine ⟨toFinset_removal_append names more, outcomes_append names more,
    outcomes_eq_flatMap names, fun hsame => ?_, fun σ hσ i => ?_, fun hsub index hindex => ?_⟩
  · have hremoves : (plan names).removes = (plan more).removes := removes_congr hsame
    have hsize : (plan names).originalLines = (plan more).originalLines := rfl
    constructor
    · rw [Plan.removal, Plan.removal, hremoves, hsize]
    · rw [Plan.retained, Plan.retained, hremoves]
  · rw [getElem?_outcomes, getElem?_outcomes, List.getElem?_eq_getElem i.isLt,
      List.getElem?_eq_getElem (σ i).isLt]
    exact congrArg (fun name => some (cutter.outcome source name)) (hσ i)
  · rw [mem_removal_plan_iff] at hindex ⊢
    exact removes_of_subset hsub hindex

/-- Three requests read backwards: a method, a method inside of it, and a name that no line
declares. -/
theorem plan_of_requests_read_backwards :
    let cutter : Cutter := ⟨⟨["private"], .docBlock, 20, .standard⟩, true⟩
    let source : Source := ⟨["private a() \x7b\n", "  private b() \x7b\x7d\n", "\x7d\n", "\n"]⟩
    let names := ["a", "b", "gone"]
    let more := ["gone", "b", "a"]
    (∀ name, name ∈ names ↔ name ∈ more) ∧
      (∀ i : Fin 3, names[i] = more[Fin.revPerm i]) ∧ names ⊆ more ∧
      (cutter.plan source names).removal = [0, 1, 2, 3] ∧
      (cutter.plan source more).removal = [0, 1, 2, 3] ∧
      (cutter.plan source names).removal ⊆ (cutter.plan source more).removal ∧
      (cutter.plan source more).outcomes[2]? = some (.found "a" ⟨0, 0, 2⟩ (some 3)) := by
  intro cutter source names more
  have hsame : ∀ name, name ∈ names ↔ name ∈ more := by
    intro name
    simp only [names, more, List.mem_cons, List.not_mem_nil, or_false]
    tauto
  have hreversed : ∀ i : Fin 3, names[i] = more[Fin.revPerm i] := by decide
  have hsub : names ⊆ more := fun name => (hsame name).1
  obtain ⟨-, -, -, hequal, hpositions, hmore⟩ := plan_of_requests cutter source names more
  have hremoval : (cutter.plan source names).removal = [0, 1, 2, 3] := by decide +kernel
  refine ⟨hsame, hreversed, hsub, hremoval, ?_, hmore hsub, ?_⟩
  · rw [← (hequal hsame).1]
    exact hremoval
  · have hfirst := hpositions Fin.revPerm hreversed (0 : Fin 3)
    refine hfirst.symm.trans ?_
    decide +kernel

end Requests

end Cutter

end Excision
