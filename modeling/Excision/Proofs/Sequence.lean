import Mathlib.Data.List.Forall2

/-!
# Steps that may fail

A program that may fail stops at its first fault, so what it gives can be taken apart into what
its steps give. There are three ways to put steps together: one after the other
(`exists_of_bind_eq_ok`), the same step on every item of a list (`mapM_eq_ok_iff`), and for every
item a step that goes on from where the last one stopped (`foldlM_eq_ok_induction`).

Where every fault of each step can be told beforehand, the program fails with the first of the
faults of all its steps in their order (`FailsWithFirst.bind`).
-/

set_option autoImplicit false

namespace Excision

variable {ε α β : Type}

/-- A sequence succeeds only if its first part does. -/
theorem exists_of_bind_eq_ok {first : Except ε α} {next : α → Except ε β} {b : β}
    (h : (first >>= next) = .ok b) : ∃ a, first = .ok a ∧ next a = .ok b := by
  cases first with
  | error fault => cases h
  | ok a => exact ⟨a, rfl, h⟩

theorem bind_eq_ok_iff {first : Except ε α} {next : α → Except ε β} {b : β} :
    (first >>= next) = .ok b ↔ ∃ a, first = .ok a ∧ next a = .ok b := by
  constructor
  · exact exists_of_bind_eq_ok
  · rintro ⟨a, rfl, hnext⟩
    exact hnext

/-- A check before a program: both must succeed. -/
theorem check_bind_eq_ok_iff {check : Except ε Unit} {next : Except ε β} {b : β} :
    (check >>= fun _ => next) = .ok b ↔ check = .ok () ∧ next = .ok b := by
  rw [bind_eq_ok_iff]
  constructor
  · rintro ⟨⟨⟩, hcheck, hnext⟩
    exact ⟨hcheck, hnext⟩
  · rintro ⟨hcheck, hnext⟩
    exact ⟨(), hcheck, hnext⟩

/-- A step on every item of a list succeeds exactly if it does so on each item by itself. -/
theorem mapM_eq_ok_iff {step : α → Except ε β} {items : List α} {results : List β} :
    items.mapM step = .ok results ↔
      List.Forall₂ (fun item result => step item = .ok result) items results := by
  induction items generalizing results with
  | nil =>
      rw [List.mapM_nil]
      constructor
      · intro h
        cases h
        exact List.Forall₂.nil
      · intro h
        cases h
        rfl
  | cons item items ih =>
      rw [List.mapM_cons]
      constructor
      · intro h
        obtain ⟨result, hresult, h⟩ := exists_of_bind_eq_ok h
        obtain ⟨others, hothers, h⟩ := exists_of_bind_eq_ok h
        cases h
        exact List.Forall₂.cons hresult (ih.1 hothers)
      · intro h
        cases h with
        | cons hresult hothers =>
            rw [hresult, show items.mapM step = .ok _ from ih.2 hothers]
            rfl

/-- What every step of a walk over a list keeps, the walk keeps. -/
theorem foldlM_eq_ok_induction {step : β → α → Except ε β} {Holds : β → Prop}
    (hstep : ∀ state item next, Holds state → step state item = .ok next → Holds next)
    {items : List α} {state result : β} (hstate : Holds state)
    (h : items.foldlM step state = .ok result) : Holds result := by
  induction items generalizing state with
  | nil =>
      cases h
      exact hstate
  | cons item items ih =>
      rw [List.foldlM_cons] at h
      obtain ⟨next, hnext, h⟩ := exists_of_bind_eq_ok h
      exact ih (hstep state item next hstate hnext) h

/-! ## The first of many faults -/

/-- Whether a program fails with the first of some faults, and succeeds if there are none. -/
def FailsWithFirst (result : Except ε α) (faults : List ε) : Prop :=
  ∀ fault, result = .error fault ↔ faults.head? = some fault

namespace FailsWithFirst

variable {result : Except ε α} {faults more : List ε}

theorem exists_ok_iff (h : FailsWithFirst result faults) :
    (∃ a, result = .ok a) ↔ faults = [] := by
  cases faults with
  | nil =>
      cases result with
      | error fault => exact absurd ((h fault).1 rfl) (by simp)
      | ok a => exact iff_of_true ⟨a, rfl⟩ rfl
  | cons fault faults =>
      have herror : result = .error fault := (h fault).2 rfl
      simp [herror]

/-- A step that fails with the first of some faults, before one that does so too: together they fail
with the first of the faults of both. -/
theorem bind {next : α → Except ε β} (h : FailsWithFirst result faults)
    (hnext : ∀ a, result = .ok a → FailsWithFirst (next a) more) :
    FailsWithFirst (result >>= next) (faults ++ more) := by
  cases faults with
  | nil =>
      obtain ⟨a, rfl⟩ := h.exists_ok_iff.2 rfl
      exact hnext a rfl
  | cons fault faults =>
      have herror : result = .error fault := (h fault).2 rfl
      intro other
      rw [herror, List.cons_append, List.head?_cons, Option.some.injEq]
      constructor
      · exact Except.error.inj
      · rintro rfl
        rfl

end FailsWithFirst

end Excision
