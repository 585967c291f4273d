import Excision.Proofs.Outline
import Excision.Proofs.Passes
import Mathlib.Order.Monotone.Basic

/-!
# Removal in two phases

Methods can be removed in two phases, the second one working on what the first one has retained.
A retained line moves up by the number of lines removed above it (`Plan.moved`), and what the second
plan retains of the retained lines is what one plan retains that removes the lines of both
(`Plan.keptFrom_keptFrom`).

Nothing of a method whose doc comment was found depends on lines outside of its extent, except that
no line above declares its name: the walk ends at the opener, and the braces balance at the last
line (`Search.find_of_own_lines`). So such a method is found again, moved up, after any lines
outside of its extent have gone (`Search.find_retained`), and two phases over methods with extents
apart are one (`Cutter.two_phases_eq_one`). Without a doc comment of its own a method may take over
one that the first phase has left behind.
-/

set_option autoImplicit false

namespace Excision

/-! ## Where retained lines stand -/

namespace Plan

variable (plan : Plan)

/-- How many lines go above the line at an index. -/
def removedAbove (index : Nat) : Nat := (List.range index).countP plan.removes

/-- Where the line at an index stands among the retained lines, if it is one of them. -/
def moved (index : Nat) : Nat := index - plan.removedAbove index

theorem removedAbove_succ (index : Nat) :
    plan.removedAbove (index + 1) =
      plan.removedAbove index + if plan.removes index then 1 else 0 := by
  rw [removedAbove, List.range_succ, List.countP_append, List.countP_singleton]
  rfl

theorem removedAbove_le (index : Nat) : plan.removedAbove index ≤ index := by
  have hle := List.countP_le_length (p := plan.removes) (l := List.range index)
  rwa [List.length_range] at hle

theorem moved_succ (index : Nat) :
    plan.moved (index + 1) = if plan.removes index then plan.moved index
      else plan.moved index + 1 := by
  have hle := plan.removedAbove_le index
  rw [moved, moved, removedAbove_succ]
  split <;> omega

theorem moved_mono : Monotone plan.moved := by
  refine monotone_nat_of_le_succ fun index => ?_
  rw [moved_succ]
  split
  · exact Nat.le_refl _
  · exact Nat.le_succ _

/-- A line that stays is passed by none below it. -/
theorem moved_lt {i j : Nat} (hstays : plan.removes i = false) (hij : i < j) :
    plan.moved i < plan.moved j := by
  have hsucc : plan.moved (i + 1) = plan.moved i + 1 := by
    rw [moved_succ, hstays, if_neg Bool.false_ne_true]
  have hle := plan.moved_mono (Nat.succ_le_of_lt hij)
  rw [Nat.succ_eq_add_one, hsucc] at hle
  exact hle

/-- Lines that all stay move together. -/
theorem removedAbove_add {first : Nat} :
    ∀ {k : Nat}, (∀ j < k, plan.removes (first + j) = false) →
      plan.removedAbove (first + k) = plan.removedAbove first
  | 0, _ => rfl
  | k + 1, h => by
      rw [← Nat.add_assoc, removedAbove_succ, h k (Nat.lt_succ_self k), if_neg Bool.false_ne_true,
        removedAbove_add fun j hj => h j (Nat.lt_succ_of_lt hj), Nat.add_zero]

/-- The line below some lines moves to below what is kept of them. -/
theorem length_keptFrom (lines : List String) :
    (plan.keptFrom lines 0).length = plan.moved lines.length := by
  induction lines using List.reverseRecOn with
  | nil => rfl
  | append_singleton lines line ih =>
      rw [keptFrom_append, List.length_append, ih, List.length_append, List.length_singleton,
        Nat.zero_add, keptFrom_cons, keptFrom_nil, moved_succ]
      split <;> rfl

/-- What a second plan keeps of the retained lines is what a plan keeps that removes the lines of
both. -/
theorem keptFrom_keptFrom (next both : Plan) {lines : List String} {index : Nat}
    (h : ∀ k < lines.length, both.removes (index + k) =
      (plan.removes (index + k) || next.removes (plan.moved (index + k)))) :
    next.keptFrom (plan.keptFrom lines index) (plan.moved index) = both.keptFrom lines index := by
  induction lines generalizing index with
  | nil => rfl
  | cons line lines ih =>
      have hfirst := h 0 (Nat.succ_pos _)
      have hrest : next.keptFrom (plan.keptFrom lines (index + 1)) (plan.moved (index + 1)) =
          both.keptFrom lines (index + 1) := by
        refine ih fun k hk => ?_
        rw [Nat.add_assoc, Nat.add_comm 1 k]
        exact h (k + 1) (Nat.succ_lt_succ hk)
      rw [Nat.add_zero] at hfirst
      rw [keptFrom_cons plan, keptFrom_cons both, hfirst, ← hrest, moved_succ]
      cases plan.removes index with
      | true => simp only [if_true, Bool.true_or]
      | false => simp only [Bool.false_eq_true, if_false, Bool.false_or, keptFrom_cons next]

end Plan

/-! ## Extents that move up -/

namespace Extent

/-- An extent that stands some lines further up. -/
def moveUp (e : Extent) (distance : Nat) : Extent :=
  ⟨e.first - distance, e.declaration - distance, e.last - distance⟩

/-- An extent cuts a document into the lines above it, its own lines, and the lines below it. -/
theorem exists_lines_eq_append {e : Extent} {lines : List String} (hle : e.first ≤ e.last)
    (hlast : e.last < lines.length) :
    ∃ above own below : List String, lines = above ++ own ++ below ∧
      above.length = e.first ∧ own.length = e.last + 1 - e.first := by
  refine ⟨lines.take e.first, (lines.drop e.first).take (e.last + 1 - e.first),
    (lines.drop e.first).drop (e.last + 1 - e.first), ?_, ?_, ?_⟩
  · rw [List.append_assoc, List.take_append_drop, List.take_append_drop]
  · rw [List.length_take]
    omega
  · rw [List.length_take, List.length_drop]
    omega

end Extent

namespace Plan

variable {plan : Plan} {e : Extent}

/-- The lines of an extent none of which goes all move by one distance. -/
theorem moved_of_covers (hstays : ∀ index, e.covers index = true → plan.removes index = false)
    {index : Nat} (hindex : e.covers index = true) :
    plan.moved index = index - plan.removedAbove e.first := by
  obtain ⟨hfirst, hlast⟩ := (e.covers_iff index).1 hindex
  obtain ⟨k, rfl⟩ := Nat.exists_eq_add_of_le hfirst
  rw [moved, plan.removedAbove_add fun j hj => hstays _ ((e.covers_iff _).2 ⟨by omega, by omega⟩)]

/-- Lines none of which goes stay together between what is kept above and below them. -/
theorem keptFrom_append_append {above own below : List String}
    (hstays : ∀ k < own.length, plan.removes (above.length + k) = false) :
    plan.keptFrom (above ++ own ++ below) 0 =
      plan.keptFrom above 0 ++ own ++ plan.keptFrom below (above.length + own.length) := by
  rw [keptFrom_append, keptFrom_append, Nat.zero_add, plan.keptFrom_eq_self hstays, Nat.zero_add,
    List.length_append]

/-- A line that stays belongs to such an extent exactly if it belongs to it afterwards. -/
theorem covers_moveUp_moved (hstays : ∀ index, e.covers index = true → plan.removes index = false)
    (hle : e.first ≤ e.last) {index : Nat} (hindex : plan.removes index = false) :
    (e.moveUp (plan.removedAbove e.first)).covers (plan.moved index) = e.covers index := by
  have hfirst := moved_of_covers hstays ((e.covers_iff _).2 ⟨Nat.le_refl _, hle⟩)
  have hcovers : e.covers e.last = true := (e.covers_iff _).2 ⟨hle, Nat.le_refl _⟩
  have hlast := moved_of_covers hstays hcovers
  rw [Bool.eq_iff_iff, Extent.covers_iff, Extent.covers_iff, Extent.moveUp, ← hfirst, ← hlast]
  constructor
  · rintro ⟨habove, hbelow⟩
    constructor
    · exact Nat.le_of_not_lt fun hlt => Nat.not_lt_of_le habove (plan.moved_lt hindex hlt)
    · refine Nat.le_of_not_lt fun hlt => Nat.not_lt_of_le hbelow ?_
      exact plan.moved_lt (hstays _ hcovers) hlt
  · rintro ⟨habove, hbelow⟩
    exact ⟨plan.moved_mono habove, plan.moved_mono hbelow⟩

end Plan

/-! ## Methods on their own lines -/

namespace Search

open Outline (upward)

variable {search : Search} {name : String}

/-- Above a declaration the walk to a doc comment sees the lines of the method first. -/
theorem start_of_own_lines {depth k : Nat} {above own below : List String}
    (hk : 0 < k) (hlt : k < own.length)
    (h : Lookback.docBlock.start depth (above ++ own ++ below) (above.length + k) = above.length)
    (above' below' : List String) :
    Lookback.docBlock.start depth (above' ++ own ++ below') (above'.length + k) =
      above'.length := by
  have hsees : ∀ above below : List String,
      Lookback.linesAbove (above ++ own ++ below) (above.length + k) depth =
        (upward (own.take k) ++ upward above).take depth := by
    intro above below
    rw [Outline.linesAbove_eq, List.append_assoc, List.take_length_add_append,
      List.take_append_of_le_length (Nat.le_of_lt hlt), Outline.upward_append]
  have hlength : (upward (own.take k)).length = k := by
    simp only [upward, List.length_map, List.length_reverse, List.length_take]
    omega
  have hsteps : ∀ above : List String, above.length + k - above.length - 1 = k - 1 := by omega
  rw [Lookback.start_eq_iff_of_lt (by omega), hsees, hsteps, Lookback.opener?,
    Lookback.nearestOpener_take_eq_some_iff] at h ⊢
  exact ⟨h.1, Lookback.nearestOpener_append_of_lt h.2 (by omega) _⟩

/-- A method with a doc comment is found wherever its lines stand, if no line above declares its
name. -/
theorem find_of_own_lines (hdoc : search.lookback = .docBlock) {k last : Nat}
    {above own below : List String} (hk : 0 < k) (hlast : last < own.length)
    (h : search.find (above ++ own ++ below) name =
      .ok ⟨above.length, above.length + k, above.length + last⟩)
    {above' : List String} (habove : search.declaration? above' name = none)
    (below' : List String) :
    search.find (above' ++ own ++ below') name =
      .ok ⟨above'.length, above'.length + k, above'.length + last⟩ := by
  obtain ⟨hdecl, hfirst, hend⟩ := (find_eq_ok_iff _).1 h
  obtain ⟨-, -, hle, -⟩ := bounds_of_find h
  have hklt : k < own.length := by
    simp only at hle
    omega
  refine (find_eq_ok_iff _).2 ⟨?_, ?_, ?_⟩
  · -- the declaration is the first one among the lines of the method
    have hnone : search.declaration? above name = none := by
      rw [List.append_assoc] at hdecl
      exact declaration?_eq_none_of_append hdecl (Nat.le_add_right _ _)
    rw [List.append_assoc, declaration?_append _ hnone, Option.map_eq_some_iff] at hdecl
    obtain ⟨index, hindex, hsum⟩ := hdecl
    obtain rfl : index = k := Nat.add_right_cancel (hsum.trans (Nat.add_comm _ _))
    rw [declaration?_append_eq_some_iff _ hklt] at hindex
    rw [List.append_assoc, declaration?_append _ habove,
      (declaration?_append_eq_some_iff below' hklt).2 hindex, Option.map_some, Nat.add_comm]
  · rw [Search.start, hdoc] at hfirst ⊢
    exact (start_of_own_lines hk hklt hfirst.symm above' below').symm
  · rw [List.append_assoc, bodyEnd_append, Option.map_eq_some_iff] at hend ⊢
    obtain ⟨index, hindex, hsum⟩ := hend
    obtain rfl : index = last := Nat.add_left_cancel hsum
    exact ⟨index, bodyEnd_append_of_lt hindex hlast below', rfl⟩

/-- A method with a doc comment of which no line goes is found again, moved up by the number of
lines that go above it. -/
theorem find_retained (hdoc : search.lookback = .docBlock) (plan : Plan) {source : Source}
    {e : Extent} (hfind : search.find source.lines name = .ok e)
    (hfirst : e.first < e.declaration)
    (hstays : ∀ index, e.covers index = true → plan.removes index = false) :
    search.find (plan.retained source) name = .ok (e.moveUp (plan.removedAbove e.first)) := by
  obtain ⟨-, -, hdecl, hlast⟩ := bounds_of_find hfind
  have hle : e.first ≤ e.last := Nat.le_trans (Nat.le_of_lt hfirst) hdecl
  obtain ⟨above, own, below, hlines, habove, hown⟩ := Extent.exists_lines_eq_append hle hlast
  obtain ⟨first, declaration, last⟩ := e
  simp only at hfirst hdecl hle habove hown
  subst habove
  obtain ⟨k, rfl⟩ : ∃ k, declaration = above.length + (k + 1) :=
    ⟨declaration - above.length - 1, by omega⟩
  obtain ⟨n, rfl⟩ : ∃ n, last = above.length + n := ⟨last - above.length, by omega⟩
  have hretained : plan.retained source = plan.keptFrom above 0 ++ own ++
      plan.keptFrom below (above.length + own.length) := by
    rw [Plan.retained_eq_keptFrom, hlines]
    refine Plan.keptFrom_append_append fun j hj => hstays _ ((Extent.covers_iff _ _).2 ?_)
    exact ⟨Nat.le_add_right _ _, by simp only; omega⟩
  -- what is kept above declares the name no more than what stood there
  have hnone : search.declaration? (plan.keptFrom above 0) name = none := by
    refine declaration?_eq_none_of_sublist (plan.keptFrom_sublist above 0) ?_
    obtain ⟨hdeclared, -, -⟩ := (find_eq_ok_iff _).1 hfind
    rw [hlines, List.append_assoc] at hdeclared
    exact declaration?_eq_none_of_append hdeclared (Nat.le_add_right _ _)
  rw [hlines] at hfind
  have hfound := find_of_own_lines hdoc (Nat.succ_pos k) (by omega) hfind hnone
    (plan.keptFrom below (above.length + own.length))
  have hmoves := plan.removedAbove_le above.length
  rw [hretained, hfound, plan.length_keptFrom, Plan.moved]
  simp only [Extent.moveUp, Except.ok.injEq, Extent.mk.injEq, true_and]
  omega

end Search

/-! ## Two phases -/

namespace Cutter

variable {cutter : Cutter} {source : Source}

theorem removes_plan_append (names more : List String) (index : Nat) :
    (cutter.plan source (names ++ more)).removes index =
      ((cutter.plan source names).removes index || (cutter.plan source more).removes index) := by
  rw [Plan.removes, plan, List.map_append, List.any_append]
  rfl

/-- Where each of some names is found again with its extent moved up, the next plan removes of the
retained lines what a plan for these names removes at their old places. -/
theorem removes_next_moved (htrims : cutter.trimsBlank = false) {plan : Plan}
    {more : List String}
    (hstays : ∀ name ∈ more, ∃ e, cutter.search.find source.lines name = .ok e ∧
      ∀ index, e.covers index = true → plan.removes index = false)
    (hagain : ∀ name ∈ more, ∀ e, cutter.search.find source.lines name = .ok e →
      cutter.search.find (plan.retained source) name =
        .ok (e.moveUp (plan.removedAbove e.first)))
    {index : Nat} (hindex : plan.removes index = false) :
    (cutter.plan ⟨plan.retained source⟩ more).removes (plan.moved index) =
      (cutter.plan source more).removes index := by
  rw [Bool.eq_iff_iff, removes_plan_iff_of_not_trims htrims, removes_plan_iff_of_not_trims htrims]
  refine exists_congr fun name => and_congr_right fun hname => ?_
  obtain ⟨e, hfind, hfree⟩ := hstays name hname
  obtain ⟨-, hfirst, hlast, -⟩ := Search.bounds_of_find hfind
  have hcovers := Plan.covers_moveUp_moved hfree (Nat.le_trans hfirst hlast) hindex
  rw [hagain name hname e hfind, hfind]
  simp only [Except.ok.injEq, exists_eq_left', hcovers]

/-- **Two phases are one.** Let a cutter that walks to the nearest opener and trims no blank lines
find each name of the second list with a doc comment, on lines that belong to no extent of the first
list. Then pruning for the first list and after that for the second gives the text that one plan for
both gives, and the second pass finds each of its methods where it stood, moved up by the number of
lines that the first pass has removed above it. -/
theorem two_phases_eq_one (cutter : Cutter) (text : String) (names more : List String)
    (hdoc : cutter.search.lookback = .docBlock) (htrims : cutter.trimsBlank = false)
    (hfound : ∀ name ∈ more, ∃ e,
      cutter.search.find (Source.ofText text).lines name = .ok e ∧ e.first < e.declaration)
    (hapart : ∀ name ∈ names, ∀ other ∈ more, ∀ d e,
      cutter.search.find (Source.ofText text).lines name = .ok d →
        cutter.search.find (Source.ofText text).lines other = .ok e →
          ∀ index, d.covers index = true → e.covers index = false) :
    cutter.pass more (cutter.pass names text) = cutter.pass (names ++ more) text ∧
      ∀ name ∈ more, ∀ e, cutter.search.find (Source.ofText text).lines name = .ok e →
        cutter.search.find (Source.ofText (cutter.pass names text)).lines name =
          .ok (e.moveUp
            ((cutter.plan (Source.ofText text) names).removedAbove e.first)) := by
  have hnext := ofText_pass cutter names text
  have hstays : ∀ name ∈ more, ∃ e, cutter.search.find (Source.ofText text).lines name = .ok e ∧
      ∀ index, e.covers index = true →
        (cutter.plan (Source.ofText text) names).removes index = false := by
    intro name hname
    obtain ⟨e, hfind, -⟩ := hfound name hname
    refine ⟨e, hfind, fun index hindex => Bool.eq_false_iff.2 fun hgoes => ?_⟩
    obtain ⟨other, hother, d, hd, hcovers⟩ := (removes_plan_iff_of_not_trims htrims _ _).1 hgoes
    rw [hapart other hother name hname d e hd hfind index hcovers] at hindex
    exact Bool.noConfusion hindex
  have hagain : ∀ name ∈ more, ∀ e, cutter.search.find (Source.ofText text).lines name = .ok e →
      cutter.search.find (Source.ofText (cutter.pass names text)).lines name =
        .ok (e.moveUp ((cutter.plan (Source.ofText text) names).removedAbove e.first)) := by
    intro name hname e hfind
    obtain ⟨e', hfind', hfirst⟩ := hfound name hname
    obtain rfl : e' = e := Except.ok.inj (hfind'.symm.trans hfind)
    obtain ⟨d, hd, hfree⟩ := hstays name hname
    obtain rfl : d = e' := Except.ok.inj (hd.symm.trans hfind)
    rw [hnext]
    exact Search.find_retained hdoc _ hfind hfirst hfree
  refine ⟨?_, hagain⟩
  rw [hnext] at hagain
  rw [pass, hnext, pass]
  refine congrArg String.join (Plan.keptFrom_keptFrom _ _ _ fun index _ => ?_)
  rw [removes_plan_append, Nat.zero_add]
  cases hgoes : (cutter.plan (Source.ofText text) names).removes index with
  | true => rw [Bool.true_or, Bool.true_or]
  | false => rw [Bool.false_or, Bool.false_or, removes_next_moved htrims hstays hagain hgoes]

/-- A documented method below the one that the first phase removes stands two lines further up in
the second phase. -/
theorem two_phases_eq_one_on_two_methods :
    let cutter : Cutter := ⟨⟨["private"], .docBlock, 20, .standard⟩, false⟩
    let text := "/** A */\nprivate a() \x7b\x7d\nkeep();\n/** B */\nprivate b() \x7b\n\x7d\n"
    (cutter.search.find (Source.ofText text).lines "a" = .ok ⟨0, 1, 1⟩ ∧
      cutter.search.find (Source.ofText text).lines "b" = .ok ⟨3, 4, 5⟩) ∧
      cutter.pass ["b"] (cutter.pass ["a"] text) = cutter.pass ["a", "b"] text ∧
      cutter.search.find (Source.ofText (cutter.pass ["a"] text)).lines "b" =
        .ok ⟨1, 2, 3⟩ := by
  intro cutter text
  have ha : cutter.search.find (Source.ofText text).lines "a" = .ok ⟨0, 1, 1⟩ := by decide +kernel
  have hb : cutter.search.find (Source.ofText text).lines "b" = .ok ⟨3, 4, 5⟩ := by decide +kernel
  have hfound : ∀ name ∈ ["b"], ∃ e,
      cutter.search.find (Source.ofText text).lines name = .ok e ∧ e.first < e.declaration := by
    intro name hname
    obtain rfl := List.mem_singleton.1 hname
    exact ⟨_, hb, by decide⟩
  have hapart : ∀ name ∈ ["a"], ∀ other ∈ ["b"], ∀ d e,
      cutter.search.find (Source.ofText text).lines name = .ok d →
        cutter.search.find (Source.ofText text).lines other = .ok e →
          ∀ index, d.covers index = true → e.covers index = false := by
    intro name hname other hother d e hd he index hindex
    obtain rfl := List.mem_singleton.1 hname
    obtain rfl := List.mem_singleton.1 hother
    obtain rfl := Except.ok.inj (ha.symm.trans hd)
    obtain rfl := Except.ok.inj (hb.symm.trans he)
    rw [Extent.covers_iff] at hindex
    rw [← Bool.not_eq_true, Extent.covers_iff]
    simp only at hindex ⊢
    omega
  obtain ⟨hpass, hagain⟩ := two_phases_eq_one cutter text ["a"] ["b"] rfl rfl hfound hapart
  have habove : (cutter.plan (Source.ofText text) ["a"]).removedAbove 3 = 2 := by decide +kernel
  have hmoved := hagain "b" (List.mem_singleton_self _) _ hb
  rw [Extent.moveUp, habove] at hmoved
  exact ⟨⟨ha, hb⟩, hpass, hmoved⟩

-- Without a doc comment of its own `b` takes over the one that `a` leaves behind.
example :
    let cutter : Cutter := ⟨⟨["private"], .docBlock, 20, .standard⟩, false⟩
    let text := "/** One */\n/** Two */\nprivate a() \x7b\x7d\nprivate b() \x7b\x7d\n"
    cutter.pass ["a", "b"] text = "/** One */\n" ∧
      cutter.pass ["b"] (cutter.pass ["a"] text) = "" := by
  decide +kernel

end Cutter

end Excision
