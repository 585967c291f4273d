import Excision.Proofs.Removal

/-!
# Documents that are cut off

What a search says of the first lines of a document follows from what it says of the whole. Each of
its parts stays within the lines that are left: the first declaring line is the same if it is left
(`declaration?_take_eq_some_iff`), the lines above it are (`start_take`), and the body ends where it
ended if that line is left (`bodyEnd_take_eq_some_iff`). So the first lines hold a method exactly if
the document holds it with the same extent and the whole extent is left (`find_take_eq_ok_iff`):
cutting a document off never cuts an extent off.

If more than the declaration but not the whole extent is left, then the method is missed as
unbalanced, and with no more than the lines above the declaration as undeclared. What follows the
extent does not matter at all (`Search.find_take`).
-/

set_option autoImplicit false

namespace Excision

/-- The first lines from a declaration on, of a document of which the first `k` lines are left. -/
theorem take_drop_take (lines : List String) (k declaration n : Nat) :
    ((lines.take k).drop declaration).take n =
      (lines.drop declaration).take (min n (k - declaration)) := by
  rw [List.drop_take, List.take_take]

/-- Among the first `k` lines a body ends where it ends, if it ends there. -/
theorem bodyEnd_take_eq_some_iff (lines : List String) (k declaration last : Nat) :
    bodyEnd (lines.take k) declaration = some last ↔
      bodyEnd lines declaration = some last ∧ last < k := by
  -- an end is told by the lines through it, and these are left if it is
  constructor
  · intro h
    have hlt : last < k := by
      have hlast := (bodyEnd_bounds h).2
      rw [List.length_take] at hlast
      omega
    have hbelow := (bodyEnd_bounds h).1
    rw [bodyEnd_eq_some_iff, take_drop_take, take_drop_take, Nat.min_eq_left (by omega),
      Nat.min_eq_left (by omega)] at h
    exact ⟨(bodyEnd_eq_some_iff _ _ _).2 h, hlt⟩
  · rintro ⟨h, hlt⟩
    have hbelow := (bodyEnd_bounds h).1
    rw [bodyEnd_eq_some_iff, take_drop_take, take_drop_take, Nat.min_eq_left (by omega),
      Nat.min_eq_left (by omega)]
    exact (bodyEnd_eq_some_iff _ _ _).1 h

namespace Search

variable {search : Search} {lines : List String} {name : String}

theorem declaresAt_take_iff (k index : Nat) :
    search.DeclaresAt (lines.take k) name index ↔
      search.DeclaresAt lines name index ∧ index < k := by
  rw [DeclaresAt, DeclaresAt, List.getElem?_take]
  split
  · next hlt => exact (and_iff_left hlt).symm
  · next hge => simp [hge]

/-- Among the first `k` lines the first declaring line is the one of the document, if it is one of
them. -/
theorem declaration?_take_eq_some_iff (k index : Nat) :
    search.declaration? (lines.take k) name = some index ↔
      search.declaration? lines name = some index ∧ index < k := by
  rw [declaration?_eq_some_iff, declaration?_eq_some_iff, declaresAt_take_iff]
  constructor
  · rintro ⟨⟨hat, hlt⟩, hbefore⟩
    refine ⟨⟨hat, fun j hj hat' => ?_⟩, hlt⟩
    exact hbefore j hj ((declaresAt_take_iff k j).2 ⟨hat', Nat.lt_trans hj hlt⟩)
  · rintro ⟨⟨hat, hbefore⟩, hlt⟩
    refine ⟨⟨hat, hlt⟩, fun j hj hat' => ?_⟩
    exact hbefore j hj ((declaresAt_take_iff k j).1 hat').1

/-- The walk to a doc comment reads lines above the declaration only. -/
theorem start_take {k declaration : Nat} (hle : declaration ≤ k) :
    search.start (lines.take k) declaration = search.start lines declaration := by
  rw [start, start, Lookback.start, Lookback.start, Lookback.linesAbove, Lookback.linesAbove,
    List.take_take, Nat.min_eq_left hle]

/-- The first lines of a document hold a method exactly if the document holds it and its whole
extent lies within them. -/
theorem find_take_eq_ok_iff (k : Nat) (e : Extent) :
    search.find (lines.take k) name = .ok e ↔ search.find lines name = .ok e ∧ e.last < k := by
  constructor
  · intro h
    obtain ⟨hdecl, hfirst, hend⟩ := (find_eq_ok_iff e).1 h
    obtain ⟨hdecl, hlt⟩ := (declaration?_take_eq_some_iff k _).1 hdecl
    obtain ⟨hend, hlast⟩ := (bodyEnd_take_eq_some_iff _ k _ _).1 hend
    rw [start_take (Nat.le_of_lt hlt)] at hfirst
    exact ⟨(find_eq_ok_iff e).2 ⟨hdecl, hfirst, hend⟩, hlast⟩
  · rintro ⟨h, hlast⟩
    obtain ⟨hdecl, hfirst, hend⟩ := (find_eq_ok_iff e).1 h
    have hlt : e.declaration < k := Nat.lt_of_le_of_lt (bodyEnd_bounds hend).1 hlast
    refine (find_eq_ok_iff e).2 ⟨?_, ?_, ?_⟩
    · exact (declaration?_take_eq_some_iff k _).2 ⟨hdecl, hlt⟩
    · rw [start_take (Nat.le_of_lt hlt)]
      exact hfirst
    · exact (bodyEnd_take_eq_some_iff _ k _ _).2 ⟨hend, hlast⟩

/-- **Cutting a document off never cuts an extent off.** Let a method be found. Of the first lines
of the document it is undeclared if its declaration is cut off, unbalanced on the line of its
declaration if that is left and the end of its body is cut off, and found with the same extent if
its body is left; and it is found with the same extent whatever stands below its body. -/
theorem find_take (search : Search) (lines : List String) (name : String) (e : Extent)
    (h : search.find lines name = .ok e) :
    (∀ k,
      (k ≤ e.declaration → search.find (lines.take k) name = .error (.undeclared name)) ∧
      (e.declaration < k → k ≤ e.last →
        search.find (lines.take k) name = .error (.unbalanced name (e.declaration + 1))) ∧
      (e.last < k → search.find (lines.take k) name = .ok e)) ∧
    ∀ other, search.find (lines.take (e.last + 1) ++ other) name = .ok e := by
  obtain ⟨hdecl, -, hend⟩ := (find_eq_ok_iff e).1 h
  refine ⟨fun k => ⟨fun hcut => ?_, fun hleft hcut => ?_, fun hleft => ?_⟩, fun other => ?_⟩
  · -- the pattern is built, since the document declares the name
    have habsence : search.absence name = .undeclared name := by
      rw [absence, refusal?_of_declaration? hdecl]
    rw [← habsence]
    refine find_of_undeclared ?_
    cases hdecl' : search.declaration? (lines.take k) name with
    | none => rfl
    | some index =>
        -- a declaration among the first lines would be that of the document
        obtain ⟨hsame, hlt⟩ := (declaration?_take_eq_some_iff k index).1 hdecl'
        rw [hdecl, Option.some.injEq] at hsame
        omega
  · refine find_of_open ((declaration?_take_eq_some_iff k _).2 ⟨hdecl, hleft⟩) ?_
    cases hend' : bodyEnd (lines.take k) e.declaration with
    | none => rfl
    | some last =>
        obtain ⟨hsame, hlt⟩ := (bodyEnd_take_eq_some_iff _ k _ _).1 hend'
        rw [hend, Option.some.injEq] at hsame
        omega
  · exact (find_take_eq_ok_iff k e).2 ⟨h, hleft⟩
  · have hlength : (lines.take (e.last + 1)).length = e.last + 1 := by
      rw [List.length_take, Nat.min_eq_left (bodyEnd_bounds hend).2]
    have hsame : (lines.take (e.last + 1) ++ other).take (e.last + 1) =
        lines.take (e.last + 1) := by
      rw [List.take_append_of_le_length (Nat.le_of_eq hlength.symm), List.take_take, Nat.min_self]
    have hcut := (find_take_eq_ok_iff (e.last + 1) e).2 ⟨h, Nat.lt_succ_self _⟩
    rw [← hsame] at hcut
    exact ((find_take_eq_ok_iff (e.last + 1) e).1 hcut).1

/-- A documented method cut off above its declaration, within its body and below it, and with an
opener and a second declaration of its name below. -/
theorem find_take_of_documented_method :
    let search : Search := ⟨["private"], .bounded, 18446744073709551615, .standard⟩
    let lines := ["/** A */\n", "private a(\n", "  x) \x7b\n", "\x7d keep();\n", "\x7d\n"]
    search.find lines "a" = .ok ⟨0, 1, 3⟩ ∧
      search.find (lines.take 1) "a" = .error (.undeclared "a") ∧
      search.find (lines.take 2) "a" = .error (.unbalanced "a" 2) ∧
      search.find (lines.take 3) "a" = .error (.unbalanced "a" 2) ∧
      search.find (lines.take 4) "a" = .ok ⟨0, 1, 3⟩ ∧
      search.find (lines.take 4 ++ ["/**\n", "private a() \x7b\n"]) "a" = .ok ⟨0, 1, 3⟩ := by
  intro search lines
  have hfind : search.find lines "a" = .ok ⟨0, 1, 3⟩ := (find_eq_ok_iff _).2 (by decide +kernel)
  obtain ⟨hcut, hother⟩ := find_take search lines "a" ⟨0, 1, 3⟩ hfind
  refine ⟨hfind, ?_, ?_, ?_, ?_, hother _⟩
  · exact (hcut 1).1 (by decide)
  · exact (hcut 2).2.1 (by decide) (by decide)
  · exact (hcut 3).2.1 (by decide) (by decide)
  · exact (hcut 4).2.2 (by decide)

end Search

end Excision
