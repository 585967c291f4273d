import Excision.Proofs.Outline
import Excision.Proofs.Passes

/-!
# Exact removal from outlines

A site is a method of an outline together with the extent that its item takes up and the blank line
that is cut along with it (`Outline.sites`). Sites are read off the outline by counting lines; no
declaration is looked for, no walk is made and no brace is counted.

`Outline.plan_exact` says that a plan for an outline is what its sites say, if every line that
declares a requested name is the declaration of a method and no name is declared twice. The
outcomes name the sites, the removal set is made of the sites of requested methods, the retained
lines are those of the other items (`Outline.remaining`), and a second pass misses every name.
-/

set_option autoImplicit false

namespace Excision.Outline

variable {depth : Nat}

/-! ## Sites -/

/-- A method of an outline, its extent, and the blank line that is cut along with it. -/
structure Site (depth : Nat) where
  method : Method depth
  extent : Extent
  trailingBlank : Option Nat

/-- Whether cutting a method at its site takes the line at an index. -/
def Site.removes (site : Site depth) (index : Nat) : Bool :=
  site.extent.covers index || site.trailingBlank == some index

/-- Whether the first line of an outline is blank. -/
def startsBlank (items : List (Item depth)) : Bool := (linesOf items).head?.any Text.isBlankText

/-- The site of a method that starts at line `first`, with the given items below it. -/
def Method.site (trims : Bool) (first : Nat) (below : List (Item depth)) (m : Method depth) :
    Site depth :=
  ⟨m, m.extent first, if trims && startsBlank below then some (first + m.lines.length) else none⟩

/-- The site of an item that starts at line `first`, if it is a method. -/
def Item.site? (trims : Bool) (first : Nat) (below : List (Item depth)) :
    Item depth → Option (Site depth)
  | .method m => some (m.site trims first below)
  | .code .. | .blank .. | .comment .. => none

/-- The sites of an outline that starts at line `first`. -/
def sites (trims : Bool) : Nat → List (Item depth) → List (Site depth)
  | _, [] => []
  | first, item :: below =>
      (item.site? trims first below).toList ++ sites trims (first + item.lines.length) below

/-- What a plan says of a name: it is found at the first site whose declaration declares it. -/
def outcomeAt (search : Search) (places : List (Site depth)) (name : String) : Outcome :=
  match places.find? fun site => search.declares name site.method.declaration with
  | some site => .found name site.extent site.trailingBlank
  | none => .missing (search.absence name)

/-! ## What remains -/

/-- Whether a method declares one of the requested names. -/
def Method.isRequested (search : Search) (names : List String) (m : Method depth) : Bool :=
  names.any fun name => search.declares name m.declaration

/-- Whether an item is a requested method. -/
def Item.isRequested (search : Search) (names : List String) : Item depth → Bool
  | .method m => m.isRequested search names
  | .code .. | .blank .. | .comment .. => false

/-- Some lines without the first one if that is blank. -/
def withoutBlank : List String → List String
  | [] => []
  | line :: more => if Text.isBlankText line then more else line :: more

/-- The lines of the items other than the requested methods. After a method that is cut, and at the
start if `cut` is set, a blank line goes as well. -/
def remaining (search : Search) (names : List String) (trims : Bool) :
    Bool → List (Item depth) → List String
  | _, [] => []
  | cut, item :: below =>
      if item.isRequested search names then remaining search names trims trims below
      else (if cut then withoutBlank item.lines else item.lines) ++
        remaining search names trims false below

/-! ## Sites in the document -/

/-- An item has a site exactly if it is a method. -/
theorem site?_eq_some_iff (trims : Bool) (first : Nat) (below : List (Item depth))
    (item : Item depth) (site : Site depth) :
    item.site? trims first below = some site ↔
      ∃ m, item = .method m ∧ site = m.site trims first below := by
  cases item with
  | code line _ => simp [Item.site?]
  | blank line _ => simp [Item.site?]
  | comment line _ => simp [Item.site?]
  | method m => simp [Item.site?, eq_comm]

/-- A requested item is a method that is requested. -/
theorem isRequested_iff (search : Search) (names : List String) (item : Item depth) :
    item.isRequested search names = true ↔
      ∃ m, item = .method m ∧ m.isRequested search names = true := by
  cases item with
  | code line _ => simp [Item.isRequested]
  | blank line _ => simp [Item.isRequested]
  | comment line _ => simp [Item.isRequested]
  | method m => simp [Item.isRequested]

theorem exists_of_mem_sites {trims : Bool} {first : Nat} {items : List (Item depth)}
    {site : Site depth} (h : site ∈ sites trims first items) :
    ∃ above m below, items = above ++ .method m :: below ∧
      site = m.site trims (first + (linesOf above).length) below := by
  induction items generalizing first with
  | nil => simp [sites] at h
  | cons item items ih =>
      rw [sites, List.mem_append] at h
      rcases h with h | h
      · obtain ⟨m, rfl, hsite⟩ := (site?_eq_some_iff _ _ _ _ _).1 (Option.mem_toList.1 h)
        exact ⟨[], m, items, rfl, hsite⟩
      · obtain ⟨above, m, below, rfl, hsite⟩ := ih h
        refine ⟨item :: above, m, below, rfl, ?_⟩
        rw [hsite, linesOf_cons, List.length_append, Nat.add_assoc]

/-- A site takes no line above the outline. -/
theorem le_of_removes {trims : Bool} {first index : Nat} {items : List (Item depth)}
    {site : Site depth} (h : site ∈ sites trims first items)
    (hremoves : site.removes index = true) : first ≤ index := by
  obtain ⟨above, m, below, -, rfl⟩ := exists_of_mem_sites h
  rw [Site.removes, Bool.or_eq_true, Extent.covers_iff] at hremoves
  simp only [Method.site, Method.extent] at hremoves
  rcases hremoves with ⟨hfirst, -⟩ | hblank
  · omega
  · rw [beq_iff_eq, Option.ite_none_right_eq_some] at hblank
    obtain ⟨-, hblank⟩ := hblank
    simp only [Option.some.injEq] at hblank
    omega

section Find

variable {search : Search} {items : List (Item search.depth)} {trims : Bool}
  {site : Site search.depth} {name : String}

/-- The line at the declaration of a site is the declaration of its method. -/
theorem getElem?_declaration (h : site ∈ sites trims 0 items) :
    (linesOf items)[site.extent.declaration]? = some site.method.declaration := by
  obtain ⟨above, m, below, rfl, rfl⟩ := exists_of_mem_sites h
  simp only [Method.site, Method.extent, Nat.zero_add, linesOf_append, linesOf_cons, Item.lines,
    Method.lines, List.append_assoc]
  rw [List.getElem?_append_right (Nat.le_add_right _ _), Nat.add_sub_cancel_left,
    List.getElem?_append_right (Nat.le_refl _), Nat.sub_self]
  rfl

theorem declaresAt_iff (h : site ∈ sites trims 0 items) :
    search.DeclaresAt (linesOf items) name site.extent.declaration ↔
      search.declares name site.method.declaration = true := by
  rw [Search.DeclaresAt, getElem?_declaration h, Option.any_some]

/-- A name declared once, at a site, is found with the extent of that site. -/
theorem find_of_mem_sites (once : search.DeclaredAtMostOnce (linesOf items) name)
    (h : site ∈ sites trims 0 items)
    (hdeclares : search.declares name site.method.declaration = true) :
    search.find (linesOf items) name = .ok site.extent := by
  have hat := (declaresAt_iff h).2 hdeclares
  obtain ⟨above, m, below, rfl, rfl⟩ := exists_of_mem_sites h
  have hlines : linesOf (above ++ .method m :: below) =
      linesOf above ++ m.lines ++ linesOf below := by
    rw [linesOf_append, linesOf_cons, Item.lines, List.append_assoc]
  rw [Search.find_eq_ok_iff, Search.declaration?_eq_some_iff, Search.start]
  refine ⟨⟨hat, fun j hj hearlier => ?_⟩, ?_, ?_⟩
  · -- an earlier declaring line would be a second one
    exact absurd (once _ _ hearlier hat) (Nat.ne_of_lt hj)
  · simp only [hlines, Method.site, Method.extent, Nat.zero_add]
    exact (start_eq _ _ _ _).symm
  · simp only [hlines, Method.site, Method.extent, Nat.zero_add]
    exact bodyEnd_eq _ _ _

end Find

section Plan

variable {cutter : Cutter} {items : List (Item cutter.search.depth)}
  {site : Site cutter.search.depth} {names : List String} {name : String}

/-- The blank line that is cut along with an extent is the one of its site. -/
theorem trailingBlank?_of_mem_sites (h : site ∈ sites cutter.trimsBlank 0 items) :
    cutter.trailingBlank? ⟨linesOf items⟩ site.extent = site.trailingBlank := by
  obtain ⟨above, m, below, rfl, rfl⟩ := exists_of_mem_sites h
  have hnext : (linesOf (above ++ .method m :: below))[
      (linesOf above).length + m.lines.length]? = (linesOf below).head? := by
    rw [linesOf_append, linesOf_cons, Item.lines, ← List.append_assoc, ← List.length_append,
      List.getElem?_append_right (Nat.le_refl _), Nat.sub_self, List.head?_eq_getElem?]
  have hlast : (linesOf above).length + m.doc.length + m.body.length + 1 =
      (linesOf above).length + m.lines.length := by
    rw [Method.length_lines]
    omega
  simp only [Cutter.trailingBlank?, Source.isBlankAt, Method.site, Method.extent, Nat.zero_add,
    hlast, hnext, startsBlank]

/-- Every declaration of a requested name belongs to a site. -/
theorem exists_site_of_declaresAt
    (methods : ∀ index, cutter.search.DeclaresAt (linesOf items) name index →
      ∃ site ∈ sites cutter.trimsBlank 0 items, site.extent.declaration = index)
    {index : Nat} (h : cutter.search.DeclaresAt (linesOf items) name index) :
    ∃ site ∈ sites cutter.trimsBlank 0 items, site.extent.declaration = index ∧
      cutter.search.declares name site.method.declaration = true := by
  obtain ⟨site, hsite, rfl⟩ := methods index h
  exact ⟨site, hsite, rfl, (declaresAt_iff hsite).1 h⟩

/-- The outcome for a name is what the sites say of it. -/
theorem outcome_eq_outcomeAt (once : cutter.search.DeclaredAtMostOnce (linesOf items) name)
    (methods : ∀ index, cutter.search.DeclaresAt (linesOf items) name index →
      ∃ site ∈ sites cutter.trimsBlank 0 items, site.extent.declaration = index) :
    cutter.outcome ⟨linesOf items⟩ name =
      outcomeAt cutter.search (sites cutter.trimsBlank 0 items) name := by
  unfold outcomeAt
  split
  · next site hfound =>
    have hsite := List.mem_of_find?_eq_some hfound
    have hdeclares := List.find?_some (p := fun site : Site cutter.search.depth =>
      cutter.search.declares name site.method.declaration) hfound
    have hfind := find_of_mem_sites once hsite hdeclares
    rw [Cutter.outcome, hfind]
    exact congrArg (Outcome.found name site.extent) (trailingBlank?_of_mem_sites hsite)
  · next hnone =>
    have hundeclared : cutter.search.declaration? (linesOf items) name = none := by
      refine Search.declaration?_eq_none_iff.2 fun index hdecl => ?_
      obtain ⟨site, hsite, -, hdeclares⟩ := exists_site_of_declaresAt methods hdecl
      exact List.find?_eq_none.1 hnone site hsite hdeclares
    rw [Cutter.outcome, Search.find_of_undeclared hundeclared]

/-- A plan removes the lines that the sites of requested methods take. -/
theorem removes_iff_exists_site
    (once : ∀ name ∈ names, cutter.search.DeclaredAtMostOnce (linesOf items) name)
    (methods : ∀ name ∈ names, ∀ index, cutter.search.DeclaresAt (linesOf items) name index →
      ∃ site ∈ sites cutter.trimsBlank 0 items, site.extent.declaration = index) (index : Nat) :
    (cutter.plan ⟨linesOf items⟩ names).removes index = true ↔
      ∃ site ∈ sites cutter.trimsBlank 0 items,
        site.method.isRequested cutter.search names = true ∧
          site.removes index = true := by
  rw [Cutter.removes_plan_iff]
  constructor
  · rintro ⟨name, hname, e, hfind, htakes⟩
    obtain ⟨hdecl, -⟩ := Search.bounds_of_find hfind
    obtain ⟨site, hsite, -, hdeclares⟩ := exists_site_of_declaresAt (methods name hname) hdecl
    rw [find_of_mem_sites (once name hname) hsite hdeclares, Except.ok.injEq] at hfind
    subst hfind
    rw [trailingBlank?_of_mem_sites hsite] at htakes
    refine ⟨site, hsite, List.any_eq_true.2 ⟨name, hname, hdeclares⟩, ?_⟩
    rwa [Site.removes, Bool.or_eq_true, beq_iff_eq]
  · rintro ⟨site, hsite, hrequested, htakes⟩
    obtain ⟨name, hname, hdeclares⟩ := List.any_eq_true.1 hrequested
    refine ⟨name, hname, site.extent, find_of_mem_sites (once name hname) hsite hdeclares, ?_⟩
    rw [trailingBlank?_of_mem_sites hsite]
    rwa [Site.removes, Bool.or_eq_true, beq_iff_eq] at htakes

end Plan

/-! ## The lines that remain -/

section Remaining

variable (search : Search) (names : List String) (trims : Bool)

/-- Whether the line at an index goes with a requested method of an outline that starts at line
`first`. -/
def Goes (first : Nat) (items : List (Item depth)) (index : Nat) : Prop :=
  ∃ site ∈ sites trims first items, site.method.isRequested search names = true ∧
    site.removes index = true

variable {search names trims}

theorem goes_cons_iff (first : Nat) (item : Item depth) (below : List (Item depth)) (index : Nat) :
    Goes search names trims first (item :: below) index ↔
      (∃ site, item.site? trims first below = some site ∧
        site.method.isRequested search names = true ∧ site.removes index = true) ∨
      Goes search names trims (first + item.lines.length) below index := by
  simp only [Goes, sites, List.mem_append, Option.mem_toList, or_and_right, exists_or]

theorem not_goes_of_lt {first index : Nat} (items : List (Item depth)) (h : index < first) :
    ¬ Goes search names trims first items index := by
  rintro ⟨site, hsite, -, hremoves⟩
  exact Nat.not_le_of_lt h (le_of_removes hsite hremoves)

/-- Below an item that is not requested everything is as without it. -/
theorem goes_cons_of_not_requested {item : Item depth}
    (h : item.isRequested search names = false) (first : Nat) (below : List (Item depth))
    (index : Nat) :
    Goes search names trims first (item :: below) index ↔
      Goes search names trims (first + item.lines.length) below index := by
  rw [goes_cons_iff, or_iff_right]
  rintro ⟨site, hsite, hrequested, -⟩
  obtain ⟨m, rfl, rfl⟩ := (site?_eq_some_iff _ _ _ _ _).1 hsite
  rw [Item.isRequested] at h
  exact Bool.false_ne_true (h.symm.trans hrequested)

/-- A requested method goes with all of its lines. -/
theorem goes_of_requested {item : Item depth} (h : item.isRequested search names = true)
    (first : Nat) (below : List (Item depth)) {k : Nat} (hk : k < item.lines.length) :
    Goes search names trims first (item :: below) (first + k) := by
  obtain ⟨m, rfl, hrequested⟩ := (isRequested_iff _ _ _).1 h
  refine (goes_cons_iff _ _ _ _).2 (Or.inl ⟨_, rfl, hrequested, ?_⟩)
  rw [Item.lines, Method.length_lines] at hk
  rw [Site.removes, Bool.or_eq_true, Extent.covers_iff]
  simp only [Method.site, Method.extent]
  exact Or.inl ⟨by omega, by omega⟩

/-- Below a requested method a blank line goes along if blank lines are to go. -/
theorem goes_cons_of_requested {item : Item depth} (h : item.isRequested search names = true)
    (first : Nat) (below : List (Item depth)) (k : Nat) :
    Goes search names trims first (item :: below) (first + item.lines.length + k) ↔
      trims = true ∧ k = 0 ∧ startsBlank below = true ∨
        Goes search names trims (first + item.lines.length) below
          (first + item.lines.length + k) := by
  obtain ⟨m, rfl, hrequested⟩ := (isRequested_iff _ _ _).1 h
  rw [goes_cons_iff]
  refine or_congr_left ?_
  have hbelow : ¬ (m.extent first).covers (first + m.lines.length + k) = true := by
    rw [Extent.covers_iff, Method.length_lines]
    simp only [Method.extent]
    omega
  have hblank : (m.site trims first below).removes (first + m.lines.length + k) = true ↔
      trims = true ∧ k = 0 ∧ startsBlank below = true := by
    rw [Site.removes, Bool.or_eq_true]
    simp only [Method.site]
    rw [or_iff_right hbelow, beq_iff_eq, Option.ite_none_right_eq_some, Bool.and_eq_true,
      Option.some.injEq, Nat.left_eq_add]
    tauto
  rw [← hblank]
  constructor
  · rintro ⟨site, hsite, -, hremoves⟩
    rw [Item.site?, Option.some.injEq] at hsite
    rwa [hsite]
  · exact fun hremoves => ⟨_, rfl, hrequested, hremoves⟩

/-- What a plan keeps of an outline, if it removes exactly the lines of requested methods and, where
`cut` is set, a blank first line. -/
theorem keptFrom_linesOf (plan : Plan) (items : List (Item depth)) (first : Nat) (cut : Bool)
    (h : ∀ k, plan.removes (first + k) = true ↔
      cut = true ∧ k = 0 ∧ startsBlank items = true ∨
        Goes search names trims first items (first + k)) :
    plan.keptFrom (linesOf items) first = remaining search names trims cut items := by
  induction items generalizing first cut with
  | nil => rfl
  | cons item below ih =>
      rw [linesOf_cons, Plan.keptFrom_append, remaining]
      cases hrequested : item.isRequested search names with
      | true =>
          have hnone : plan.keptFrom item.lines first = [] :=
            plan.keptFrom_eq_nil fun k hk =>
              (h k).2 (Or.inr (goes_of_requested hrequested first below hk))
          -- below the method a blank line goes if blank lines are trimmed
          rw [hnone, List.nil_append, if_pos rfl]
          refine ih _ _ fun k => ?_
          rw [← goes_cons_of_requested hrequested, Nat.add_assoc, h]
          refine or_iff_right fun hblank => ?_
          obtain ⟨line, more, hlines⟩ := item.exists_lines_eq_cons
          rw [hlines, List.length_cons] at hblank
          omega
      | false =>
          -- of an item that stays only the first line can go, and only as a blank one
          obtain ⟨line, more, hlines⟩ := item.exists_lines_eq_cons
          have hmore : ∀ k, plan.removes (first + (k + 1)) = true ↔
              Goes search names trims (first + item.lines.length) below (first + (k + 1)) := by
            intro k
            rw [h, goes_cons_of_not_requested hrequested]
            exact or_iff_right fun hblank => Nat.succ_ne_zero k hblank.2.1
          have hbelow : plan.keptFrom (linesOf below) (first + item.lines.length) =
              remaining search names trims false below := by
            refine ih _ _ fun k => ?_
            have hk := hmore (more.length + k)
            rw [hlines, List.length_cons] at hk ⊢
            rw [show first + (more.length + 1) + k = first + (more.length + k + 1) by omega, hk]
            simp
          have hkept : plan.keptFrom more (first + 1) = more := by
            refine plan.keptFrom_eq_self fun k hk => Bool.eq_false_iff.2 fun hgoes => ?_
            rw [Nat.add_assoc, Nat.add_comm 1 k, hmore] at hgoes
            refine not_goes_of_lt below ?_ hgoes
            rw [hlines, List.length_cons]
            omega
          have hfirst : plan.removes first = true ↔
              cut = true ∧ Text.isBlankText line = true := by
            have hzero := h 0
            have hnot : ¬ Goes search names trims (first + item.lines.length) below first := by
              refine not_goes_of_lt below ?_
              rw [hlines, List.length_cons]
              omega
            rw [Nat.add_zero, goes_cons_of_not_requested hrequested, or_iff_left hnot] at hzero
            rw [hzero, startsBlank, linesOf_cons, hlines]
            simp
          rw [hbelow, hlines, Plan.keptFrom_cons, hkept, if_neg Bool.false_ne_true]
          congr 1
          cases cut with
          | false => simp [hfirst]
          | true => simp [hfirst, withoutBlank]

end Remaining

/-! ## Plans for outlines -/

/-- **Removal from an outline is exact.** Let every line that declares a requested name be the
declaration of a method of the outline, and let no requested name be declared twice. Then the
outcomes are what the sites say, exactly the lines of the requested sites go, the lines of the
other items are retained, and a second pass finds no name and removes nothing. -/
theorem plan_exact (cutter : Cutter) (items : List (Item cutter.search.depth))
    (names : List String)
    (once : ∀ name ∈ names, cutter.search.DeclaredAtMostOnce (linesOf items) name)
    (methods : ∀ name ∈ names, ∀ index, cutter.search.DeclaresAt (linesOf items) name index →
      ∃ site ∈ sites cutter.trimsBlank 0 items, site.extent.declaration = index) :
    let source : Source := ⟨linesOf items⟩
    let plan := cutter.plan source names
    let kept := remaining cutter.search names cutter.trimsBlank false items
    plan.outcomes =
        names.map (outcomeAt cutter.search (sites cutter.trimsBlank 0 items)) ∧
      (∀ index, index ∈ plan.removal ↔
        Goes cutter.search names cutter.trimsBlank 0 items index) ∧
      plan.retained source = kept ∧
      (cutter.plan ⟨kept⟩ names).outcomes =
        names.map (fun name => .missing (cutter.search.absence name)) ∧
      (cutter.plan ⟨kept⟩ names).removal = [] ∧
      (∀ text, Source.ofText text = source →
        cutter.pass names text = String.join kept ∧
          Source.ofText (cutter.pass names text) = ⟨kept⟩ ∧
          cutter.pass names (cutter.pass names text) = cutter.pass names text) := by
  intro source plan kept
  have hremoves : ∀ index, plan.removes index = true ↔
      Goes cutter.search names cutter.trimsBlank 0 items index :=
    removes_iff_exists_site once methods
  have hretained : plan.retained source = kept := by
    rw [Plan.retained_eq_keptFrom]
    refine keptFrom_linesOf plan items 0 false fun k => ?_
    rw [hremoves]
    simp
  -- every declaring line is the declaration of a site, and goes with it
  have hdeclaring : ∀ name ∈ names, ∀ index,
      cutter.search.DeclaresAt source.lines name index → plan.removes index = true := by
    intro name hname index hdecl
    obtain ⟨site, hsite, -, hdeclares⟩ := exists_site_of_declaresAt (methods name hname) hdecl
    have hfind := find_of_mem_sites (once name hname) hsite hdeclares
    obtain rfl := once name hname _ _ (Search.bounds_of_find hfind).1 hdecl
    exact Cutter.removes_declaration hname hfind
  obtain ⟨hnext, hidle⟩ := Cutter.plan_retained_of_all_removed hdeclaring
  rw [hretained] at hnext hidle
  refine ⟨?_, fun index => ?_, hretained, hnext, hidle, fun text htext => ?_⟩
  · exact List.map_congr_left fun name hname =>
      outcome_eq_outcomeAt (once name hname) (methods name hname)
  · rw [Cutter.mem_removal_plan_iff, hremoves]
  · have hpass : Source.ofText (cutter.pass names text) = ⟨kept⟩ := by
      rw [Cutter.ofText_pass, htext, hretained]
    refine ⟨?_, hpass, Cutter.pass_eq_self (by rw [hpass, hidle])⟩
    rw [Cutter.pass, htext, hretained]

/-- A class with a documented method, a blank line, a comment and a second method. -/
def classOutline : List (Item 20) :=
  [.code "class S \x7b\n" (by decide +kernel),
    .method ⟨["  /**\n", "   * Runs.\n", "   */\n"], "  private run() \x7b\n",
      ["    go();\n", "  \x7d\n"], by decide +kernel, by decide +kernel, by decide +kernel,
      by decide +kernel, by decide +kernel⟩,
    .blank "\n" (by decide +kernel),
    .comment "  // At the end.\n" (by decide +kernel),
    .method ⟨[], "  public stop() \x7b\x7d\n", [], by decide +kernel, by decide +kernel,
      by decide +kernel, by decide +kernel, by decide +kernel⟩,
    .code "\x7d\n" (by decide +kernel)]

/-- The first method goes with its doc comment and the blank line, and a name that no line declares
is missed. -/
theorem plan_exact_on_classOutline :
    let cutter : Cutter := ⟨⟨["private", "public"], .bounded, 20, .standard⟩, true⟩
    let names := ["run", "gone"]
    (∀ name ∈ names, cutter.search.DeclaredAtMostOnce (linesOf classOutline) name) ∧
      (∀ name ∈ names, ∀ index, cutter.search.DeclaresAt (linesOf classOutline) name index →
        ∃ site ∈ sites cutter.trimsBlank 0 classOutline, site.extent.declaration = index) ∧
      (cutter.plan ⟨linesOf classOutline⟩ names).outcomes =
        [.found "run" ⟨1, 4, 6⟩ (some 7), .missing (.undeclared "gone")] ∧
      (cutter.plan ⟨linesOf classOutline⟩ names).retained ⟨linesOf classOutline⟩ =
        ["class S \x7b\n", "  // At the end.\n", "  public stop() \x7b\x7d\n", "\x7d\n"] := by
  intro cutter names
  have once : ∀ name ∈ names, cutter.search.DeclaredAtMostOnce (linesOf classOutline) name := by
    decide +kernel
  have methods : ∀ name ∈ names, ∀ index,
      cutter.search.DeclaresAt (linesOf classOutline) name index →
        ∃ site ∈ sites cutter.trimsBlank 0 classOutline, site.extent.declaration = index := by
    have hbelow : ∀ index < 11, ∀ name ∈ names,
        cutter.search.DeclaresAt (linesOf classOutline) name index →
          ∃ site ∈ sites cutter.trimsBlank 0 classOutline, site.extent.declaration = index := by
      decide +kernel
    exact fun name hname index hdecl => hbelow index hdecl.lt_length name hname hdecl
  obtain ⟨houtcomes, -, hretained, -⟩ := plan_exact cutter classOutline names once methods
  refine ⟨once, methods, ?_, ?_⟩
  · rw [houtcomes]
    decide +kernel
  · rw [hretained]
    decide +kernel

end Excision.Outline
