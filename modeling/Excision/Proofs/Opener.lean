import Excision.Lookback.Walk

/-!
# Reachable openers

The two walks above a declaration are recursions. What they find is described here without
recursion, on the trimmed lines above the declaration, the nearest first. An opener is reachable if
every line before it is transparent to the strategy (`Reaches`). The bounded walk settles on the
furthest reachable opener (`furthestOpener_eq_some_iff`), the doc block walk on the nearest one
(`nearestOpener_eq_some_iff`), and either settles on none exactly if there is none.

Where only one opener is reachable the strategies agree (`opener?_of_reaches_only`).
-/

set_option autoImplicit false

namespace Excision.Lookback

/-- Whether position `k` of some lines holds an opener and all lines before it are transparent. -/
def Reaches (transparent : List Char → Bool) (above : List (List Char)) (k : Nat) : Prop :=
  above[k]?.any isOpener = true ∧ ∀ text ∈ above.take k, transparent text = true

section Reaches

variable {transparent : List Char → Bool}

theorem not_reaches_nil (k : Nat) : ¬ Reaches transparent [] k := by
  rintro ⟨h, -⟩
  simp at h

@[simp]
theorem reaches_cons_zero_iff (text : List Char) (above : List (List Char)) :
    Reaches transparent (text :: above) 0 ↔ isOpener text = true := by
  simp [Reaches]

@[simp]
theorem reaches_cons_succ_iff (text : List Char) (above : List (List Char)) (k : Nat) :
    Reaches transparent (text :: above) (k + 1) ↔
      transparent text = true ∧ Reaches transparent above k := by
  simp only [Reaches, List.getElem?_cons_succ, List.take_succ_cons, List.forall_mem_cons]
  exact and_left_comm

/-- What holds of the reachable openers of some lines, by the nearest line and the others. -/
theorem forall_reaches_cons_iff (p : Nat → Prop) (text : List Char) (above : List (List Char)) :
    (∀ j, Reaches transparent (text :: above) j → p j) ↔
      (isOpener text = true → p 0) ∧
        (transparent text = true → ∀ j, Reaches transparent above j → p (j + 1)) := by
  constructor
  · intro h
    refine ⟨fun hopener => h 0 ?_, fun ht j hj => h (j + 1) ?_⟩
    · exact (reaches_cons_zero_iff _ _).2 hopener
    · exact (reaches_cons_succ_iff _ _ _).2 ⟨ht, hj⟩
  · rintro ⟨hzero, hsucc⟩ j hj
    cases j with
    | zero => exact hzero ((reaches_cons_zero_iff _ _).1 hj)
    | succ j =>
        obtain ⟨ht, hj⟩ := (reaches_cons_succ_iff _ _ _).1 hj
        exact hsucc ht j hj

theorem forall_not_reaches_cons_iff (text : List Char) (above : List (List Char)) :
    (∀ j, ¬ Reaches transparent (text :: above) j) ↔
      isOpener text = false ∧
        (transparent text = true → ∀ j, ¬ Reaches transparent above j) := by
  rw [← Bool.not_eq_true]
  exact forall_reaches_cons_iff (fun _ => False) text above

/-- Past some lines an opener is reachable exactly if these are all transparent and it is reachable
from there. -/
theorem reaches_append_iff (below above : List (List Char)) (k : Nat) :
    Reaches transparent (below ++ above) (below.length + k) ↔
      (∀ text ∈ below, transparent text = true) ∧ Reaches transparent above k := by
  induction below with
  | nil => simp
  | cons text below ih =>
      rw [List.cons_append, List.length_cons, Nat.add_right_comm, reaches_cons_succ_iff, ih,
        List.forall_mem_cons, and_assoc]

theorem Reaches.lt_length {above : List (List Char)} {k : Nat} (h : Reaches transparent above k) :
    k < above.length := by
  obtain ⟨hopener, -⟩ := h
  refine Nat.lt_of_not_le fun hge => ?_
  rw [List.getElem?_eq_none hge] at hopener
  exact Bool.noConfusion hopener

/-- An opener found among the first lines stands within them. -/
theorem Reaches.lt_of_take {above : List (List Char)} {depth k : Nat}
    (h : Reaches transparent (above.take depth) k) : k < depth := by
  have hlt := h.lt_length
  rw [List.length_take] at hlt
  omega

/-- An opener reachable among the first lines is reachable. -/
theorem Reaches.of_take {above : List (List Char)} {depth k : Nat}
    (h : Reaches transparent (above.take depth) k) : Reaches transparent above k := by
  have hk := h.lt_of_take
  obtain ⟨hopener, hclear⟩ := h
  rw [List.getElem?_take, if_pos hk] at hopener
  rw [List.take_take, Nat.min_eq_left (Nat.le_of_lt hk)] at hclear
  exact ⟨hopener, hclear⟩

/-- A reachable opener within the depth is reachable among the first lines. -/
theorem Reaches.take {above : List (List Char)} {depth k : Nat} (hk : k < depth)
    (h : Reaches transparent above k) : Reaches transparent (above.take depth) k := by
  obtain ⟨hopener, hclear⟩ := h
  refine ⟨by rwa [List.getElem?_take, if_pos hk], ?_⟩
  rwa [List.take_take, Nat.min_eq_left (Nat.le_of_lt hk)]

/-! ## What the walks settle on -/

theorem furthestOpener_eq_none_iff (above : List (List Char)) :
    furthestOpener transparent above = none ↔ ∀ k, ¬ Reaches transparent above k := by
  induction above with
  | nil => simp [furthestOpener, not_reaches_nil]
  | cons text above ih =>
      rw [furthestOpener, forall_not_reaches_cons_iff, ← ih]
      cases transparent text with
      | false => simp
      | true => cases furthestOpener transparent above <;> simp

/-- The bounded walk settles on the furthest reachable opener. -/
theorem furthestOpener_eq_some_iff (above : List (List Char)) (k : Nat) :
    furthestOpener transparent above = some k ↔
      Reaches transparent above k ∧ ∀ j, Reaches transparent above j → j ≤ k := by
  induction above generalizing k with
  | nil => simp [furthestOpener, not_reaches_nil]
  | cons text above ih =>
      rw [furthestOpener, forall_reaches_cons_iff]
      cases hnext : (if transparent text then furthestOpener transparent above else none) with
      | some steps =>
          -- an opener further up is preferred to this line
          obtain ⟨ht, hsteps⟩ := Option.ite_none_right_eq_some.1 hnext
          obtain ⟨hreach, hmax⟩ := (ih steps).1 hsteps
          simp only [Option.some.injEq]
          constructor
          · rintro rfl
            refine ⟨(reaches_cons_succ_iff _ _ _).2 ⟨ht, hreach⟩, fun _ => Nat.zero_le _, ?_⟩
            exact fun _ j hj => Nat.succ_le_succ (hmax j hj)
          · rintro ⟨hk, -, hmax'⟩
            have hle := hmax' ht steps hreach
            cases k with
            | zero => omega
            | succ k =>
                have hge := hmax k ((reaches_cons_succ_iff _ _ _).1 hk).2
                omega
      | none =>
          -- nothing is reachable further up, so this line decides
          have habove : transparent text = true → ∀ j, ¬ Reaches transparent above j := by
            intro ht
            rw [if_pos ht] at hnext
            exact (furthestOpener_eq_none_iff above).1 hnext
          cases k with
          | zero =>
              simp only [reaches_cons_zero_iff, Option.ite_none_right_eq_some, and_true]
              refine ⟨fun h => ⟨h, fun _ => Nat.le_refl 0, ?_⟩, fun h => h.1⟩
              exact fun ht j hj => absurd hj (habove ht j)
          | succ k =>
              have hk : ¬ Reaches transparent (text :: above) (k + 1) := by
                rw [reaches_cons_succ_iff]
                exact fun h => habove h.1 k h.2
              simp [hk]

theorem nearestOpener_eq_none_iff (above : List (List Char)) :
    nearestOpener transparent above = none ↔ ∀ k, ¬ Reaches transparent above k := by
  induction above with
  | nil => simp [nearestOpener, not_reaches_nil]
  | cons text above ih =>
      rw [nearestOpener, forall_not_reaches_cons_iff, ← ih]
      cases isOpener text with
      | true => simp
      | false => cases transparent text <;> simp

/-- The doc block walk settles on the nearest reachable opener. -/
theorem nearestOpener_eq_some_iff (above : List (List Char)) (k : Nat) :
    nearestOpener transparent above = some k ↔
      Reaches transparent above k ∧ ∀ j, Reaches transparent above j → k ≤ j := by
  induction above generalizing k with
  | nil => simp [nearestOpener, not_reaches_nil]
  | cons text above ih =>
      rw [nearestOpener, forall_reaches_cons_iff]
      cases hopener : isOpener text with
      | true =>
          rw [if_pos rfl, Option.some.injEq]
          constructor
          · rintro rfl
            exact ⟨(reaches_cons_zero_iff _ _).2 hopener, fun _ => Nat.le_refl 0,
              fun _ j _ => Nat.zero_le _⟩
          · rintro ⟨-, hmin, -⟩
            exact (Nat.le_zero.1 (hmin rfl)).symm
      | false =>
          rw [if_neg Bool.false_ne_true]
          cases k with
          | zero => cases transparent text <;> simp [hopener]
          | succ k =>
              rw [reaches_cons_succ_iff]
              cases ht : transparent text with
              | false => simp
              | true => simp [← ih]

/-- Among the first lines the doc block walk settles on what it settles on among all, if that is
one of them. -/
theorem nearestOpener_take_eq_some_iff (above : List (List Char)) (depth k : Nat) :
    nearestOpener transparent (above.take depth) = some k ↔
      k < depth ∧ nearestOpener transparent above = some k := by
  rw [nearestOpener_eq_some_iff, nearestOpener_eq_some_iff]
  constructor
  · rintro ⟨hreach, hmin⟩
    refine ⟨hreach.lt_of_take, hreach.of_take, fun j hj => ?_⟩
    rcases Nat.lt_or_ge j depth with hlt | hge
    · exact hmin j (hj.take hlt)
    · exact Nat.le_trans (Nat.le_of_lt hreach.lt_of_take) hge
  · rintro ⟨hk, hreach, hmin⟩
    exact ⟨hreach.take hk, fun j hj => hmin j hj.of_take⟩

/-- What stands above the nearest opener does not matter. -/
theorem nearestOpener_append_of_lt {below above : List (List Char)} {k : Nat}
    (h : nearestOpener transparent (below ++ above) = some k) (hk : k < below.length)
    (other : List (List Char)) : nearestOpener transparent (below ++ other) = some k := by
  have hbelow := (nearestOpener_take_eq_some_iff (below ++ above) below.length k).2 ⟨hk, h⟩
  have hsame : (below ++ other).take below.length = (below ++ above).take below.length := by
    rw [List.take_left, List.take_left]
  rw [← hsame] at hbelow
  exact ((nearestOpener_take_eq_some_iff _ _ _).1 hbelow).2

end Reaches

/-- The opener that a strategy settles on is reachable. -/
theorem reaches_of_opener? {strategy : Lookback} {above : List (List Char)} {k : Nat}
    (h : strategy.opener? above = some k) : Reaches (isTransparent strategy) above k := by
  cases strategy with
  | bounded => exact ((furthestOpener_eq_some_iff _ _).1 h).1
  | docBlock => exact ((nearestOpener_eq_some_iff _ _).1 h).1

/-- Where only one opener is reachable, either strategy settles on it. -/
theorem opener?_of_reaches_only {strategy : Lookback} {above : List (List Char)} {k : Nat}
    (h : Reaches (isTransparent strategy) above k)
    (only : ∀ j, Reaches (isTransparent strategy) above j → j = k) :
    strategy.opener? above = some k := by
  cases strategy with
  | bounded => exact (furthestOpener_eq_some_iff _ _).2 ⟨h, fun j hj => Nat.le_of_eq (only j hj)⟩
  | docBlock =>
      exact (nearestOpener_eq_some_iff _ _).2 ⟨h, fun j hj => Nat.le_of_eq (only j hj).symm⟩

/-- Where no opener is reachable, either strategy settles on none. -/
theorem opener?_eq_none_iff (strategy : Lookback) (above : List (List Char)) :
    strategy.opener? above = none ↔ ∀ k, ¬ Reaches (isTransparent strategy) above k := by
  cases strategy with
  | bounded => exact furthestOpener_eq_none_iff _
  | docBlock => exact nearestOpener_eq_none_iff _

theorem length_linesAbove_le (lines : List String) (declaration depth : Nat) :
    (linesAbove lines declaration depth).length ≤ declaration := by
  simp only [linesAbove, List.length_map, List.length_take, List.length_reverse]
  omega

/-- The lines above a declaration, counted from the declaration. -/
theorem getElem?_linesAbove {lines : List String} {declaration depth k : Nat}
    (hk : k < (linesAbove lines declaration depth).length) (hdecl : declaration ≤ lines.length) :
    (linesAbove lines declaration depth)[k]? =
      lines[declaration - 1 - k]?.map fun line => Text.trim line.toList := by
  simp only [linesAbove, List.length_map, List.length_take, List.length_reverse] at hk
  have hlength : (lines.take declaration).length = declaration := by
    rw [List.length_take, Nat.min_eq_left hdecl]
  rw [linesAbove, List.getElem?_map, List.getElem?_take, if_pos (by omega),
    List.getElem?_reverse (by omega), hlength, List.getElem?_take, if_pos (by omega)]

theorem start_eq_elim (strategy : Lookback) (depth : Nat) (lines : List String)
    (declaration : Nat) :
    strategy.start depth lines declaration =
      (strategy.opener? (linesAbove lines declaration depth)).elim declaration
        fun steps => declaration - (steps + 1) := by
  rw [start]
  cases strategy.opener? (linesAbove lines declaration depth) <;> rfl

/-- A method starts at a line above its declaration exactly if the walk settles on that line. -/
theorem start_eq_iff_of_lt {strategy : Lookback} {depth declaration first : Nat}
    {lines : List String} (hlt : first < declaration) :
    strategy.start depth lines declaration = first ↔
      strategy.opener? (linesAbove lines declaration depth) = some (declaration - first - 1) := by
  unfold start
  cases hopener : strategy.opener? (linesAbove lines declaration depth) with
  | none => simp only [reduceCtorEq, iff_false]; omega
  | some steps =>
      have hreach := (reaches_of_opener? hopener).lt_length
      have habove := length_linesAbove_le lines declaration depth
      simp only [Option.some.injEq]
      omega

/-- A method never starts below its declaration. -/
theorem start_le (strategy : Lookback) (depth : Nat) (lines : List String) (declaration : Nat) :
    strategy.start depth lines declaration ≤ declaration := by
  unfold start
  split
  · exact Nat.sub_le _ _
  · exact Nat.le_refl _

end Excision.Lookback
