import Excision.MethodNames
import Mathlib.Data.List.Induction
import Mathlib.Data.List.Nodup
import Mathlib.Data.List.Perm.Basic

/-!
# Lists of method names

A list of names is accepted exactly if each of them, trimmed, is a name, and then it comes to the
first occurrences of the trimmed names (`MethodNames.ofList_eq_ok_iff`); otherwise the first that is
no name is refused (`MethodNames.ofList_eq_error_iff`). What first occurrences are is said without
the way they are found (`FirstOccurrences`), and there is only one list of them
(`FirstOccurrences.unique`).

Names can as well be gathered one by one, each checked and then noted unless it was noted before.
One more item leaves the first occurrences of those before it and adds itself at most
(`eraseDups_append_singleton`), so both ways come to the same
(`MethodNames.foldlM_note`, `MethodNames.ofList_eq_foldlM`).
-/

set_option autoImplicit false

namespace Excision

/-! ## First occurrences -/

section FirstOccurrences

variable {α : Type} [DecidableEq α]

/-- Whether a list has the same items as another one, in the order in which they first occur
there. -/
structure FirstOccurrences (items firsts : List α) : Prop where
  mem_iff : ∀ item, item ∈ firsts ↔ item ∈ items
  inOrder : firsts.Pairwise fun item other => items.idxOf item < items.idxOf other

theorem FirstOccurrences.nodup {items firsts : List α} (h : FirstOccurrences items firsts) :
    firsts.Nodup := by
  refine List.Pairwise.imp (fun hlt => ?_) h.inOrder
  rintro rfl
  exact Nat.lt_irrefl _ hlt

/-- A list has its items in one order of first occurrences only. -/
theorem FirstOccurrences.unique {items firsts others : List α}
    (h : FirstOccurrences items firsts) (hothers : FirstOccurrences items others) :
    firsts = others := by
  have hperm : firsts.Perm others :=
    (List.perm_ext_iff_of_nodup h.nodup hothers.nodup).2 fun item =>
      (h.mem_iff item).trans (hothers.mem_iff item).symm
  exact hperm.eq_of_pairwise (fun _ _ _ _ hlt hgt => absurd hgt (Nat.lt_asymm hlt)) h.inOrder
    hothers.inOrder

/-- One more item is a first occurrence unless it occurred before. -/
theorem eraseDups_append_singleton (items : List α) (item : α) :
    (items ++ [item]).eraseDups =
      if item ∈ items then items.eraseDups else items.eraseDups ++ [item] := by
  rw [List.eraseDups_append, List.removeAll]
  by_cases hitem : item ∈ items
  · rw [if_pos hitem, List.filter_cons_of_neg (by simpa using hitem)]
    exact List.append_nil _
  · rw [if_neg hitem, List.filter_cons_of_pos (by simpa using hitem)]
    rfl

theorem FirstOccurrences.append_singleton {items firsts : List α}
    (h : FirstOccurrences items firsts) (item : α) :
    FirstOccurrences (items ++ [item])
      (if item ∈ items then firsts else firsts ++ [item]) := by
  have hbefore : firsts.Pairwise fun first other =>
      (items ++ [item]).idxOf first < (items ++ [item]).idxOf other := by
    refine List.Pairwise.imp_of_mem (fun hfirst hother hlt => ?_) h.inOrder
    rwa [List.idxOf_append_of_mem ((h.mem_iff _).1 hfirst),
      List.idxOf_append_of_mem ((h.mem_iff _).1 hother)]
  by_cases hitem : item ∈ items
  · rw [if_pos hitem]
    refine ⟨fun other => ?_, hbefore⟩
    rw [h.mem_iff, List.mem_append, List.mem_singleton]
    exact ⟨Or.inl, fun hother => hother.elim id fun heq => heq ▸ hitem⟩
  · rw [if_neg hitem]
    refine ⟨fun other => by simp [h.mem_iff], List.pairwise_append.2 ⟨hbefore, by simp, ?_⟩⟩
    -- the new item comes behind all those before it
    intro first hfirst other hother
    rw [List.mem_singleton.1 hother, List.idxOf_append_of_mem ((h.mem_iff _).1 hfirst),
      List.idxOf_append_of_notMem hitem]
    exact Nat.lt_add_right _ (List.idxOf_lt_length_of_mem ((h.mem_iff _).1 hfirst))

theorem firstOccurrences_eraseDups (items : List α) :
    FirstOccurrences items items.eraseDups := by
  induction items using List.reverseRecOn with
  | nil => exact ⟨fun _ => Iff.rfl, List.Pairwise.nil⟩
  | append_singleton items item ih =>
      rw [eraseDups_append_singleton]
      exact ih.append_singleton item

end FirstOccurrences

namespace MethodNames

theorem isName_iff (text : String) :
    isName text = true ↔ text ≠ "" ∧ ∀ c ∈ text.toList, Text.isBlank c = false := by
  simp [isName]

/-- Names are accepted exactly if all of them, trimmed, are names. They come to the first
occurrences of the trimmed names. -/
theorem ofList_eq_ok_iff (names methods : List String) :
    ofList names = .ok methods ↔
      (∀ name ∈ names.map Text.trimmed, isName name = true) ∧
        FirstOccurrences (names.map Text.trimmed) methods := by
  have hgood : (∀ name ∈ names.map Text.trimmed, isName name = true) ↔
      (names.map Text.trimmed).find? (!isName ·) = none := by
    simp only [List.find?_eq_none, Bool.not_eq_true', Bool.not_eq_false]
  rw [hgood]
  unfold ofList
  dsimp only
  cases (names.map Text.trimmed).find? (!isName ·) with
  | some bad => simp
  | none =>
      have hfirsts := firstOccurrences_eraseDups (names.map Text.trimmed)
      constructor
      · intro h
        cases h
        exact ⟨rfl, hfirsts⟩
      · rintro ⟨-, h⟩
        exact congrArg Except.ok (hfirsts.unique h)

/-- Otherwise the first that is no name is refused. -/
theorem ofList_eq_error_iff (names : List String) (fault : RequestFault) :
    ofList names = .error fault ↔
      (((names.map Text.trimmed).filter (!isName ·)).map .badMethodName).head? = some fault := by
  unfold ofList
  dsimp only
  rw [List.head?_map, List.head?_filter]
  cases (names.map Text.trimmed).find? (!isName ·) with
  | some bad => simp
  | none => simp

/-! ## One by one -/

/-- Notes one more name down, trimmed and unless it is noted already, or refuses it. -/
def note (noted : List String) (name : String) : Except RequestFault (List String) :=
  let name := Text.trimmed name
  if isName name then .ok (if name ∈ noted then noted else noted ++ [name])
  else .error (.badMethodName name)

/-- Noting a name behind the first occurrences of others gives those of all. -/
theorem note_eraseDups (done : List String) (name : String) :
    note done.eraseDups name =
      if isName (Text.trimmed name) then .ok (done ++ [Text.trimmed name]).eraseDups
      else .error (.badMethodName (Text.trimmed name)) := by
  unfold note
  rw [eraseDups_append_singleton]
  simp only [List.mem_eraseDups]

/-- From the first occurrences of some names on, a walk over further names stops at the first that
is no name, or comes to the first occurrences of all. -/
theorem foldlM_note (done names : List String) :
    names.foldlM note done.eraseDups =
      match (names.map Text.trimmed).find? (!isName ·) with
      | some bad => .error (.badMethodName bad)
      | none => .ok (done ++ names.map Text.trimmed).eraseDups := by
  induction names generalizing done with
  | nil => rw [List.map_nil, List.append_nil]; rfl
  | cons name names ih =>
      rw [List.foldlM_cons, note_eraseDups, List.map_cons, List.find?_cons]
      cases hname : isName (Text.trimmed name) with
      | false => rfl
      | true =>
          have hrest := ih (done ++ [Text.trimmed name])
          rw [List.append_assoc] at hrest
          exact hrest

/-- **Names may be gathered one by one.** Checking and noting each name in turn comes to the same as
checking all of them and then dropping the repetitions, also in what is refused. -/
theorem ofList_eq_foldlM (names : List String) : ofList names = names.foldlM note [] :=
  (foldlM_note [] names).symm

end MethodNames

end Excision
