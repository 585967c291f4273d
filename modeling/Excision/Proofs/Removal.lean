import Excision.Plan
import Excision.Proofs.Balance
import Excision.Proofs.Opener

/-!
# What a plan removes

A search finds a name exactly if some line declares it and the text from the first such line on
balances (`Search.find_eq_ok_iff`); the extent it finds lies in order within the document
(`Search.bounds_of_find`). A plan removes a line exactly if some requested name is found and its
extent, or the blank line cut with it, has that line (`Cutter.removes_plan_iff`), so it removes
nothing exactly if no requested name is found (`Cutter.removal_plan_eq_nil_iff`).

The retained lines are those of the document with the removed ones left out
(`Plan.retained_sublist`). `Plan.keptFrom` says which lines are retained from a given line on.
-/

set_option autoImplicit false

namespace Excision

namespace Search

variable {search : Search} {lines : List String} {name : String}

/-- A line declares a name for a search if the pattern of the name is built and the line satisfies
it. -/
theorem declares_iff (line : String) :
    search.declares name line = true ↔
      search.refusal? name = none ∧ Declaration.declares search.modifiers name line = true := by
  rw [declares, Bool.and_eq_true, Option.isNone_iff_eq_none]

/-- Whether the line at an index declares a name. -/
def DeclaresAt (search : Search) (lines : List String) (name : String) (index : Nat) : Prop :=
  lines[index]?.any (search.declares name) = true

instance (search : Search) (lines : List String) (name : String) (index : Nat) :
    Decidable (search.DeclaresAt lines name index) := inferInstanceAs (Decidable (_ = _))

theorem DeclaresAt.exists_line {index : Nat} (h : search.DeclaresAt lines name index) :
    ∃ line, lines[index]? = some line ∧ search.declares name line = true :=
  (Option.any_eq_true _ _).1 h

/-- Whether at most one line declares a name. -/
def DeclaredAtMostOnce (search : Search) (lines : List String) (name : String) : Prop :=
  ∀ i j, search.DeclaresAt lines name i → search.DeclaresAt lines name j → i = j

theorem DeclaresAt.lt_length {index : Nat} (h : search.DeclaresAt lines name index) :
    index < lines.length := by
  obtain ⟨line, hline, -⟩ := h.exists_line
  exact (List.getElem?_eq_some_iff.1 hline).1

instance (search : Search) (lines : List String) (name : String) :
    Decidable (search.DeclaredAtMostOnce lines name) :=
  decidable_of_iff (∀ i < lines.length, ∀ j < lines.length,
      search.DeclaresAt lines name i → search.DeclaresAt lines name j → i = j)
    ⟨fun h i j hi hj => h i hi.lt_length j hj.lt_length hi hj, fun h i _ j _ hi hj => h i j hi hj⟩

/-- The declaration is the first declaring line. -/
theorem declaration?_eq_some_iff (index : Nat) :
    search.declaration? lines name = some index ↔
      search.DeclaresAt lines name index ∧ ∀ j < index, ¬ search.DeclaresAt lines name j := by
  rw [declaration?, List.findIdx?_eq_some_iff_getElem]
  constructor
  · rintro ⟨hlt, hdecl, hbefore⟩
    refine ⟨by simpa [DeclaresAt, List.getElem?_eq_getElem hlt] using hdecl, fun j hj => ?_⟩
    have hjlt : j < lines.length := Nat.lt_trans hj hlt
    simpa [DeclaresAt, List.getElem?_eq_getElem hjlt] using hbefore j hj
  · rintro ⟨hdecl, hbefore⟩
    obtain ⟨line, hline, hdeclares⟩ := hdecl.exists_line
    obtain ⟨hlt, rfl⟩ := List.getElem?_eq_some_iff.1 hline
    refine ⟨hlt, hdeclares, fun j hj => ?_⟩
    have hjlt : j < lines.length := Nat.lt_trans hj hlt
    simpa [DeclaresAt, List.getElem?_eq_getElem hjlt] using hbefore j hj

/-- There is no declaration exactly if no line declares the name. -/
theorem declaration?_eq_none_iff :
    search.declaration? lines name = none ↔ ∀ index, ¬ search.DeclaresAt lines name index := by
  rw [declaration?, List.findIdx?_eq_none_iff]
  constructor
  · intro h index hdecl
    obtain ⟨line, hline, hdeclares⟩ := hdecl.exists_line
    rw [h line (List.mem_of_getElem? hline)] at hdeclares
    exact Bool.false_ne_true hdeclares
  · intro h line hline
    obtain ⟨index, hindex⟩ := List.getElem?_of_mem hline
    have hno := h index
    rw [DeclaresAt, hindex] at hno
    simpa using hno

theorem declaration?_eq_none_of_sublist {kept : List String} (hsub : kept.Sublist lines)
    (h : search.declaration? lines name = none) : search.declaration? kept name = none := by
  rw [declaration?, List.findIdx?_eq_none_iff] at h ⊢
  exact fun line hline => h line (hsub.subset hline)

/-- Lines that do not declare a name only shift its declaration. -/
theorem declaration?_append (more : List String) (h : search.declaration? lines name = none) :
    search.declaration? (lines ++ more) name =
      (search.declaration? more name).map (· + lines.length) := by
  rw [declaration?] at h ⊢
  rw [List.findIdx?_append, h]
  rfl

/-- A declaration within the first of the lines is found among them alone. -/
theorem declaration?_append_eq_some_iff {index : Nat} (more : List String)
    (hindex : index < lines.length) :
    search.declaration? (lines ++ more) name = some index ↔
      search.declaration? lines name = some index := by
  cases h : search.declaration? lines name with
  | none =>
      rw [declaration?_append more h, Option.map_eq_some_iff]
      simp only [reduceCtorEq, iff_false]
      rintro ⟨k, -, hk⟩
      omega
  | some first =>
      rw [declaration?] at h ⊢
      rw [List.findIdx?_append, h, Option.some_or]

/-- A name whose declaration stands below some lines is not declared by these. -/
theorem declaration?_eq_none_of_append {more : List String} {index : Nat}
    (h : search.declaration? (lines ++ more) name = some index) (hindex : lines.length ≤ index) :
    search.declaration? lines name = none := by
  refine declaration?_eq_none_iff.2 fun j hj => ?_
  refine ((declaration?_eq_some_iff index).1 h).2 j (Nat.lt_of_lt_of_le hj.lt_length hindex) ?_
  rwa [DeclaresAt, List.getElem?_append_left hj.lt_length]

/-- A name that is declared once is not declared above or below that line. -/
theorem DeclaredAtMostOnce.declaration?_elsewhere {d : Nat}
    (once : search.DeclaredAtMostOnce lines name) (h : search.declaration? lines name = some d) :
    search.declaration? (lines.take d) name = none ∧
      search.declaration? (lines.drop (d + 1)) name = none := by
  obtain ⟨hat, hbefore⟩ := (declaration?_eq_some_iff d).1 h
  -- above the line it would not be the first one, below it there would be two
  constructor
  · refine declaration?_eq_none_iff.2 fun j hj => ?_
    have hjd : j < d := by
      have hlt := hj.lt_length
      rw [List.length_take] at hlt
      omega
    rw [DeclaresAt, List.getElem?_take, if_pos hjd] at hj
    exact hbefore j hjd hj
  · refine declaration?_eq_none_iff.2 fun j hj => ?_
    rw [DeclaresAt, List.getElem?_drop] at hj
    have heq := once d (d + 1 + j) hat hj
    omega

/-! ### The results of a search -/

/-- How a name is missed that no line declares: as undeclared if the engine builds its pattern. -/
def absence (search : Search) (name : String) : Miss :=
  match search.refusal? name with
  | some complaint => .refused name complaint
  | none => .undeclared name

/-- A name that no line declares has no braces to balance. -/
theorem absence_ne_unbalanced (line : Nat) : search.absence name ≠ .unbalanced name line := by
  unfold absence
  cases search.refusal? name <;> exact nofun

/-- A name whose pattern is refused is not declared anywhere. -/
theorem declaration?_of_refusal? {complaint : String}
    (h : search.refusal? name = some complaint) : search.declaration? lines name = none := by
  refine declaration?_eq_none_iff.2 fun index hdecl => ?_
  obtain ⟨line, -, hdeclares⟩ := hdecl.exists_line
  rw [((declares_iff line).1 hdeclares).1] at h
  cases h

/-- The pattern of a declared name is built. -/
theorem refusal?_of_declaration? {declaration : Nat}
    (h : search.declaration? lines name = some declaration) : search.refusal? name = none := by
  cases hrefusal : search.refusal? name with
  | none => rfl
  | some complaint =>
      rw [declaration?_of_refusal? hrefusal] at h
      cases h

theorem find_of_undeclared (h : search.declaration? lines name = none) :
    search.find lines name = .error (search.absence name) := by
  unfold find absence
  cases search.refusal? name with
  | some complaint => rfl
  | none => simp only [h]

theorem find_of_open {declaration : Nat} (h : search.declaration? lines name = some declaration)
    (hopen : bodyEnd lines declaration = none) :
    search.find lines name = .error (.unbalanced name (declaration + 1)) := by
  simp only [find, refusal?_of_declaration? h, h, hopen]

theorem find_of_closed {declaration last : Nat}
    (h : search.declaration? lines name = some declaration)
    (hend : bodyEnd lines declaration = some last) :
    search.find lines name = .ok ⟨search.start lines declaration, declaration, last⟩ := by
  simp only [find, refusal?_of_declaration? h, h, hend]

/-- An extent is found exactly if it runs from the start above the first declaring line to the end
of the body there. -/
theorem find_eq_ok_iff (e : Extent) :
    search.find lines name = .ok e ↔
      search.declaration? lines name = some e.declaration ∧
        e.first = search.start lines e.declaration ∧
        bodyEnd lines e.declaration = some e.last := by
  constructor
  · intro h
    cases hdecl : search.declaration? lines name with
    | none => simp [find_of_undeclared hdecl] at h
    | some declaration =>
        cases hend : bodyEnd lines declaration with
        | none => simp [find_of_open hdecl hend] at h
        | some last =>
            rw [find_of_closed hdecl hend, Except.ok.injEq] at h
            subst h
            exact ⟨rfl, rfl, hend⟩
  · rintro ⟨hdecl, hfirst, hend⟩
    rw [find_of_closed hdecl hend, ← hfirst]

/-- A name is found somewhere exactly if it is declared and the text from its declaration on
balances. -/
theorem exists_find_iff :
    (∃ e, search.find lines name = .ok e) ↔
      ∃ declaration, search.declaration? lines name = some declaration ∧
        Balances (characters (lines.drop declaration)) := by
  constructor
  · rintro ⟨e, h⟩
    obtain ⟨hdecl, -, hend⟩ := (find_eq_ok_iff e).1 h
    refine ⟨e.declaration, hdecl, Decidable.not_not.1 fun hopen => ?_⟩
    rw [(bodyEnd_eq_none_iff _ _).2 hopen] at hend
    simp at hend
  · rintro ⟨declaration, hdecl, hbalances⟩
    cases hend : bodyEnd lines declaration with
    | none => exact absurd hbalances ((bodyEnd_eq_none_iff _ _).1 hend)
    | some last => exact ⟨_, find_of_closed hdecl hend⟩

/-- A name is unbalanced on a line exactly if that is the first line to declare it and the text
from there on never balances. -/
theorem find_eq_unbalanced_iff (declaration : Nat) :
    search.find lines name = .error (.unbalanced name (declaration + 1)) ↔
      search.declaration? lines name = some declaration ∧
        ¬ Balances (characters (lines.drop declaration)) := by
  constructor
  · intro h
    cases hdecl : search.declaration? lines name with
    | none =>
        rw [find_of_undeclared hdecl] at h
        exact absurd (Except.error.inj h) (absence_ne_unbalanced _)
    | some d =>
        cases hend : bodyEnd lines d with
        | none =>
            rw [find_of_open hdecl hend] at h
            simp only [Except.error.injEq, Miss.unbalanced.injEq, true_and,
              Nat.add_right_cancel_iff] at h
            subst h
            exact ⟨rfl, (bodyEnd_eq_none_iff _ _).1 hend⟩
        | some last => simp [find_of_closed hdecl hend] at h
  · rintro ⟨hdecl, hopen⟩
    exact find_of_open hdecl ((bodyEnd_eq_none_iff _ _).2 hopen)

/-- The extent of a found name is in order and within the document, and its declaration declares
the name. -/
theorem bounds_of_find {e : Extent} (h : search.find lines name = .ok e) :
    search.DeclaresAt lines name e.declaration ∧ e.first ≤ e.declaration ∧
      e.declaration ≤ e.last ∧ e.last < lines.length := by
  obtain ⟨hdecl, hfirst, hend⟩ := (find_eq_ok_iff e).1 h
  obtain ⟨hle, hlt⟩ := bodyEnd_bounds hend
  refine ⟨((declaration?_eq_some_iff _).1 hdecl).1, ?_, hle, hlt⟩
  rw [hfirst]
  exact Lookback.start_le _ _ _ _

/-- The declaration of a found name belongs to its extent. -/
theorem covers_declaration {e : Extent} (h : search.find lines name = .ok e) :
    e.covers e.declaration = true := by
  obtain ⟨-, hfirst, hlast, -⟩ := bounds_of_find h
  exact (Extent.covers_iff _ _).2 ⟨hfirst, hlast⟩

end Search

/-! ## Retained lines -/

namespace Plan

variable (plan : Plan)

/-- What is retained of some lines, the first of them at the given index. -/
def keptFrom (lines : List String) (index : Nat) : List String :=
  ((lines.zipIdx index).filter fun line => !plan.removes line.2).map Prod.fst

theorem retained_eq_keptFrom (source : Source) :
    plan.retained source = plan.keptFrom source.lines 0 := rfl

@[simp]
theorem keptFrom_nil (index : Nat) : plan.keptFrom [] index = [] := rfl

theorem keptFrom_cons (line : String) (lines : List String) (index : Nat) :
    plan.keptFrom (line :: lines) index =
      if plan.removes index then plan.keptFrom lines (index + 1)
      else line :: plan.keptFrom lines (index + 1) := by
  unfold keptFrom
  rw [List.zipIdx_cons, List.filter_cons]
  cases plan.removes index <;> simp

theorem keptFrom_append (lines more : List String) (index : Nat) :
    plan.keptFrom (lines ++ more) index =
      plan.keptFrom lines index ++ plan.keptFrom more (index + lines.length) := by
  simp [keptFrom, List.zipIdx_append]

theorem keptFrom_sublist (lines : List String) (index : Nat) :
    (plan.keptFrom lines index).Sublist lines := by
  have hsub : (plan.keptFrom lines index).Sublist ((lines.zipIdx index).map Prod.fst) :=
    List.filter_sublist.map _
  rwa [List.zipIdx_map_fst] at hsub

/-- The retained lines are lines of the document in their order. -/
theorem retained_sublist (source : Source) : (plan.retained source).Sublist source.lines :=
  plan.keptFrom_sublist source.lines 0

/-- The retained lines above a line, and those from it on. -/
theorem retained_eq_append {source : Source} {d : Nat} (h : d ≤ source.lines.length) :
    plan.retained source =
      plan.keptFrom (source.lines.take d) 0 ++ plan.keptFrom (source.lines.drop d) d := by
  have happend := plan.keptFrom_append (source.lines.take d) (source.lines.drop d) 0
  rwa [List.take_append_drop, List.length_take, Nat.min_eq_left h, Nat.zero_add] at happend

/-- Lines none of which goes are all retained. -/
theorem keptFrom_eq_self {lines : List String} {index : Nat}
    (h : ∀ k < lines.length, plan.removes (index + k) = false) :
    plan.keptFrom lines index = lines := by
  induction lines generalizing index with
  | nil => rfl
  | cons line lines ih =>
      have hfirst : plan.removes index = false := h 0 (by simp)
      rw [keptFrom_cons, hfirst, ih fun k hk => ?_]
      · simp
      · have hnext := h (k + 1) (by simpa using hk)
        rwa [← Nat.add_assoc, Nat.add_right_comm] at hnext

/-- Lines that all go leave nothing. -/
theorem keptFrom_eq_nil {lines : List String} {index : Nat}
    (h : ∀ k < lines.length, plan.removes (index + k) = true) :
    plan.keptFrom lines index = [] := by
  induction lines generalizing index with
  | nil => rfl
  | cons line lines ih =>
      have hfirst : plan.removes index = true := h 0 (by simp)
      rw [keptFrom_cons, hfirst, ih fun k hk => ?_]
      · simp
      · have hnext := h (k + 1) (by simpa using hk)
        rwa [← Nat.add_assoc, Nat.add_right_comm] at hnext

theorem mem_removal_iff (index : Nat) :
    index ∈ plan.removal ↔ index < plan.originalLines ∧ plan.removes index = true := by
  simp [removal]

end Plan

/-! ## The plan of a cutter -/

namespace Cutter

variable {cutter : Cutter} {source : Source} {names : List String}

/-- A trailing blank line is cut exactly if that is asked for and the line after the extent is
blank. -/
theorem trailingBlank?_eq_some_iff (e : Extent) (index : Nat) :
    cutter.trailingBlank? source e = some index ↔
      cutter.trimsBlank = true ∧ source.isBlankAt index = true ∧ index = e.last + 1 := by
  unfold trailingBlank?
  constructor
  · intro h
    split at h
    · next hcond =>
      simp only [Option.some.injEq] at h
      subst h
      exact ⟨(Bool.and_eq_true_iff.1 hcond).1, (Bool.and_eq_true_iff.1 hcond).2, rfl⟩
    · simp at h
  · rintro ⟨htrims, hblank, rfl⟩
    simp [htrims, hblank]

/-- The outcome for one name removes a line exactly if the name is found and its extent, or the
blank line cut with it, has that line. -/
theorem removes_outcome_iff (name : String) (index : Nat) :
    (cutter.outcome source name).removes index = true ↔
      ∃ e, cutter.search.find source.lines name = .ok e ∧
        (e.covers index = true ∨ cutter.trailingBlank? source e = some index) := by
  unfold outcome
  cases cutter.search.find source.lines name with
  | error miss => simp [Outcome.removes]
  | ok e => simp [Outcome.removes]

theorem removes_plan_iff (index : Nat) :
    (cutter.plan source names).removes index = true ↔
      ∃ name ∈ names, ∃ e, cutter.search.find source.lines name = .ok e ∧
        (e.covers index = true ∨ cutter.trailingBlank? source e = some index) := by
  simp [Plan.removes, plan, removes_outcome_iff]

/-- Without trimming a plan removes the extents of the found names only. -/
theorem removes_plan_iff_of_not_trims (htrims : cutter.trimsBlank = false) (names : List String)
    (index : Nat) :
    (cutter.plan source names).removes index = true ↔
      ∃ name ∈ names, ∃ e, cutter.search.find source.lines name = .ok e ∧
        e.covers index = true := by
  rw [removes_plan_iff]
  refine exists_congr fun name => and_congr_right fun _ => exists_congr fun e =>
    and_congr_right fun _ => or_iff_left ?_
  rw [trailingBlank?_eq_some_iff, htrims]
  exact fun h => Bool.false_ne_true h.1

/-- The declaration of a found name goes. -/
theorem removes_declaration {name : String} (hname : name ∈ names) {e : Extent}
    (h : cutter.search.find source.lines name = .ok e) :
    (cutter.plan source names).removes e.declaration = true :=
  (removes_plan_iff _).2 ⟨name, hname, e, h, Or.inl (Search.covers_declaration h)⟩

/-- Removed lines are lines of the document. -/
theorem lt_size_of_removes {index : Nat} (h : (cutter.plan source names).removes index = true) :
    index < source.size := by
  obtain ⟨name, -, e, hfind, hcovers | hblank⟩ := (removes_plan_iff _).1 h
  · obtain ⟨-, -, -, hlast⟩ := Search.bounds_of_find hfind
    exact Nat.lt_of_le_of_lt ((Extent.covers_iff _ _).1 hcovers).2 hlast
  · obtain ⟨-, hblank, -⟩ := (trailingBlank?_eq_some_iff _ _).1 hblank
    obtain ⟨line, hline, -⟩ := (Option.any_eq_true _ _).1 hblank
    exact (List.getElem?_eq_some_iff.1 hline).1

/-- The removal set is what the outcomes remove. -/
theorem mem_removal_plan_iff (index : Nat) :
    index ∈ (cutter.plan source names).removal ↔
      (cutter.plan source names).removes index = true := by
  rw [Plan.mem_removal_iff]
  exact ⟨fun h => h.2, fun h => ⟨lt_size_of_removes h, h⟩⟩

/-- Nothing goes exactly if no requested name is found. -/
theorem removal_plan_eq_nil_iff :
    (cutter.plan source names).removal = [] ↔
      ∀ name ∈ names, ∀ e, cutter.search.find source.lines name ≠ .ok e := by
  rw [List.eq_nil_iff_forall_not_mem]
  constructor
  · intro h name hname e hfind
    exact h e.declaration ((mem_removal_plan_iff _).2 (removes_declaration hname hfind))
  · intro h index hindex
    obtain ⟨name, hname, e, hfind, -⟩ := (removes_plan_iff _).1 ((mem_removal_plan_iff _).1 hindex)
    exact h name hname e hfind

/-- A plan that removes nothing retains every line. -/
theorem retained_eq_lines (h : (cutter.plan source names).removal = []) :
    (cutter.plan source names).retained source = source.lines := by
  rw [Plan.retained_eq_keptFrom]
  refine Plan.keptFrom_eq_self _ fun k _ => Bool.eq_false_iff.2 fun hk => ?_
  rw [Nat.zero_add] at hk
  exact List.eq_nil_iff_forall_not_mem.1 h k ((mem_removal_plan_iff k).2 hk)

end Cutter

end Excision
