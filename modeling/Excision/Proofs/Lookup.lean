import Mathlib.Data.List.Nodup

/-!
# Lists of entries under keys

A list of pairs is looked up by the first component, and the first pair with a key counts. Where no
key stands twice, a value is found exactly if its pair is in the list
(`lookup_eq_some_iff_mem`), so the order of the pairs does not matter.
-/

set_option autoImplicit false

namespace Excision

variable {κ α : Type} [BEq κ] [LawfulBEq κ] {entries : List (κ × α)} {key other : κ}

theorem lookup_eq_none_iff_notMem : entries.lookup key = none ↔ key ∉ entries.map Prod.fst := by
  rw [List.lookup_eq_none_iff, List.mem_map, not_exists]
  constructor
  · rintro h entry ⟨hentry, rfl⟩
    simpa using h entry hentry
  · intro h entry hentry
    simpa using fun heq : key = entry.1 => h entry ⟨hentry, heq.symm⟩

/-- Where no key stands twice, a value is found exactly if its pair is there. -/
theorem lookup_eq_some_iff_mem {value : α} (hnodup : (entries.map Prod.fst).Nodup) :
    entries.lookup key = some value ↔ (key, value) ∈ entries := by
  rw [List.lookup_eq_some_iff]
  constructor
  · rintro ⟨before, after, rfl, -⟩
    simp
  · intro h
    obtain ⟨before, after, rfl⟩ := List.append_of_mem h
    refine ⟨before, after, rfl, ?_⟩
    intro entry hentry
    rw [List.map_append, List.map_cons, List.nodup_middle, List.nodup_cons] at hnodup
    have hkey : key ∉ before.map Prod.fst := fun hbefore =>
      hnodup.1 (List.mem_append_left _ hbefore)
    simpa using fun heq : key = entry.1 => hkey (heq ▸ List.mem_map_of_mem hentry)

/-- Entries in another order are found as before. -/
theorem lookup_eq_of_perm {others : List (κ × α)} (hperm : entries.Perm others)
    (hnodup : (entries.map Prod.fst).Nodup) : entries.lookup key = others.lookup key := by
  ext value
  rw [lookup_eq_some_iff_mem hnodup,
    lookup_eq_some_iff_mem ((hperm.map Prod.fst).nodup_iff.1 hnodup), hperm.mem_iff]

variable [DecidableEq κ]

/-- Entries of other keys are found as before when those of one key are left out. -/
theorem lookup_filter_ne (h : other ≠ key) :
    (entries.filter (·.1 ≠ key)).lookup other = entries.lookup other := by
  induction entries with
  | nil => rfl
  | cons entry entries ih =>
      obtain ⟨first, value⟩ := entry
      by_cases hfirst : first = key
      · subst hfirst
        have hother : (other == first) = false := beq_eq_false_iff_ne.2 h
        rw [List.filter_cons_of_neg (by simp), ih, List.lookup_cons, hother]
      · rw [List.filter_cons_of_pos (by simpa using hfirst), List.lookup_cons, List.lookup_cons,
          ih]

end Excision
