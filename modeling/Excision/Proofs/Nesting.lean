import Excision.Proofs.Accounts
import Excision.Proofs.Commentary
import Excision.Proofs.Declarations
import Mathlib.Data.List.Sort

/-!
# Methods inside of methods

A declaration may stand inside of the body of another method, or of its parameters. If no closing
brace comes before the first opening one (`OpensFirst`), neither behind the outer declaration nor
behind the inner one, then the inner body ends inside of the outer one (`bodyEnd_of_inside`). For as
long as the outer body is open it has at least as many opening as closing braces
(`count_close_le_count_open`). So where the outer body ends, the inner one has at most as many
opening as closing braces left over, and must have ended before or right there
(`balances_of_balancesAfter`).

No walk steps over a declaration, whatever it declares, if the modifiers are keywords
(`Search.lt_first_of_declaresAt`). So the extent of the inner method starts below the outer
declaration, and it lies inside of the outer extent (`Settings.find_nested`).
-/

set_option autoImplicit false

namespace Excision

/-! ## Texts that open first -/

/-- Whether no closing brace of a text stands before its first opening one. -/
def OpensFirst (cs : List Char) : Prop := '\x7d' ∉ cs.takeWhile (· ≠ '\x7b')

instance (cs : List Char) : Decidable (OpensFirst cs) := inferInstanceAs (Decidable (¬ _))

/-- A text opens first exactly if there is an opening brace before each closing one. -/
theorem opensFirst_iff (cs : List Char) :
    OpensFirst cs ↔ ∀ u rest, cs = u ++ '\x7d' :: rest → '\x7b' ∈ u := by
  constructor
  · rintro h u rest rfl
    by_contra hno
    refine h ?_
    have hall : ∀ c ∈ u, decide (c ≠ '\x7b') = true := by
      intro c hc
      exact decide_eq_true fun heq => hno (heq ▸ hc)
    rw [List.takeWhile_append_of_pos hall]
    simp
  · intro h hmem
    obtain ⟨u, rest, hsplit⟩ := List.append_of_mem hmem
    have hopen : '\x7b' ∈ u := by
      refine h u (rest ++ cs.dropWhile (· ≠ '\x7b')) ?_
      rw [← List.cons_append, ← List.append_assoc, ← hsplit, List.takeWhile_append_dropWhile]
    have htaken : '\x7b' ∈ cs.takeWhile (· ≠ '\x7b') := by
      rw [hsplit]
      exact List.mem_append_left _ hopen
    simpa using List.mem_takeWhile_imp htaken

theorem OpensFirst.of_append {cs ds : List Char} (h : OpensFirst (cs ++ ds)) : OpensFirst cs := by
  rw [opensFirst_iff] at h ⊢
  rintro u rest rfl
  exact h u (rest ++ ds) (by simp)

/-- Without an opening brace such a text has no closing one. -/
theorem OpensFirst.close_notMem {cs : List Char} (h : OpensFirst cs) (hopen : '\x7b' ∉ cs) :
    '\x7d' ∉ cs := by
  intro hclose
  obtain ⟨u, rest, rfl⟩ := List.append_of_mem hclose
  exact hopen (List.mem_append_left _ ((opensFirst_iff _).1 h u rest rfl))

/-- Until it balances, a text that opens first has more opening than closing braces once one is
opened. -/
theorem count_close_lt_count_open {w : List Char} (hfirst : OpensFirst w) (hopen : ¬ Balances w)
    (hmem : '\x7b' ∈ w) : w.count '\x7d' < w.count '\x7b' := by
  induction w using List.reverseRecOn with
  | nil => simp at hmem
  | append_singleton w c ih =>
      rw [Balances, balancesAfter_append_iff, not_or, List.nil_append, balancesAfter_cons_iff,
        not_or] at hopen
      obtain ⟨hbefore, hcloses, -⟩ := hopen
      by_cases hw : '\x7b' ∈ w
      · have hlt := ih hfirst.of_append hbefore hw
        by_cases hc : c = '\x7d'
        · -- the last of the braces would close the body if only one was open
          subst hc
          have hne : w.count '\x7b' ≠ w.count '\x7d' + 1 := fun heq => hcloses ⟨rfl, hw, heq⟩
          simp
          omega
        · have hsame : (w ++ [c]).count '\x7d' = w.count '\x7d' := by simp [hc]
          rw [hsame, List.count_append]
          omega
      · -- the first opening brace is the last character
        have hc : c = '\x7b' := by simpa [hw, eq_comm] using hmem
        subst hc
        have hnone := List.count_eq_zero.2 (hfirst.of_append.close_notMem hw)
        simp [hnone]

/-- Until it balances, a text that opens first has at least as many opening as closing braces. -/
theorem count_close_le_count_open {w : List Char} (hfirst : OpensFirst w) (hopen : ¬ Balances w) :
    w.count '\x7d' ≤ w.count '\x7b' := by
  by_cases hmem : '\x7b' ∈ w
  · exact Nat.le_of_lt (count_close_lt_count_open hfirst hopen hmem)
  · rw [List.count_eq_zero.2 (hfirst.close_notMem hmem)]
    exact Nat.zero_le _

/-- Where a body that began in `v` ends, the text behind `v` has balanced as well. -/
theorem balances_of_balancesAfter {v cs : List Char} (hv : OpensFirst v) (hopen : ¬ Balances v)
    (hcs : OpensFirst cs) (h : BalancesAfter v cs) : Balances cs := by
  obtain ⟨u, rest, rfl, -, hcount⟩ := h
  have hmem : '\x7b' ∈ u := (opensFirst_iff _).1 hcs u rest rfl
  have hsplit : u ++ '\x7d' :: rest = (u ++ ['\x7d']) ++ rest := by simp
  rw [hsplit] at hcs ⊢
  by_contra hno
  have hnot : ¬ Balances (u ++ ['\x7d']) :=
    fun hends => hno ((balancesAfter_append_iff _ _ _).2 (Or.inl hends))
  -- behind `v` a brace would be left open, so the outer body would not have ended yet
  have hlt := count_close_lt_count_open hcs.of_append hnot (List.mem_append_left _ hmem)
  have hle := count_close_le_count_open hv hopen
  simp only [List.count_append, List.count_singleton] at hlt hcount
  simp at hlt
  omega

/-! ## Bodies -/

/-- A body that begins inside of another one ends inside of it. -/
theorem bodyEnd_of_inside {lines : List String} {outer inner last : Nat}
    (h : bodyEnd lines outer = some last)
    (houter : OpensFirst (characters (lines.drop outer)))
    (hinner : OpensFirst (characters (lines.drop inner)))
    (hbelow : outer < inner) (hinside : inner ≤ last) :
    ∃ last', bodyEnd lines inner = some last' ∧ last' ≤ last := by
  obtain ⟨-, hopen, hcloses⟩ := (bodyEnd_eq_some_iff _ _ _).1 h
  -- the lines of the outer body up to the inner declaration, and those from it on
  have hlines : (lines.drop outer).take (last - outer + 1) =
      (lines.drop outer).take (inner - outer) ++ (lines.drop inner).take (last - inner + 1) := by
    rw [show last - outer + 1 = inner - outer + (last - inner + 1) by omega, List.take_add,
      List.drop_drop, Nat.add_sub_of_le (Nat.le_of_lt hbelow)]
  have hbefore : ¬ Balances (characters ((lines.drop outer).take (inner - outer))) :=
    fun hends => hopen (balances_take_mono (Nat.sub_le_sub_right hinside outer) hends)
  have hfirst : ∀ {more : List String} {n : Nat}, OpensFirst (characters more) →
      OpensFirst (characters (more.take n)) := by
    intro more n hmore
    rw [← List.take_append_drop n more, characters_append] at hmore
    exact hmore.of_append
  rw [hlines, characters_append, Balances, balancesAfter_append_iff, List.nil_append] at hcloses
  have hends : Balances (characters ((lines.drop inner).take (last - inner + 1))) :=
    balances_of_balancesAfter (hfirst houter) hbefore (hfirst hinner)
      (hcloses.resolve_left hbefore)
  obtain ⟨last', hlast', hlt⟩ := exists_bodyEnd_lt hends
  exact ⟨last', hlast', by omega⟩

/-! ## Walks and declarations -/

namespace Search

open Lookback

variable {search : Search} {lines : List String} {name : String} {e : Extent}

/-- With keywords as modifiers a line that declares some name opens no doc comment, and no strategy
steps over it. -/
theorem not_walked_of_declares {modifiers : List String} {line : String} (hne : modifiers ≠ [])
    (hkeywords : ∀ modifier ∈ modifiers, isKeyword modifier = true)
    (h : Declaration.declares modifiers name line = true) (strategy : Lookback) :
    ¬ isOpener (Text.trim line.toList) = true ∧
      ¬ isTransparent strategy (Text.trim line.toList) = true := by
  obtain ⟨c, cs, htext, hc⟩ :=
    ((Declaration.declares_iff_trim hne hkeywords).1 h).exists_cons hkeywords
  rw [htext]
  -- none of the marks starts with a character that can start a keyword
  have hopener : ¬ isOpener (c :: cs) = true := by
    rw [Commentary.isOpener_iff]
    rintro ⟨rest, heq⟩
    obtain ⟨rfl, -⟩ := List.cons.inj heq
    revert hc
    decide
  refine ⟨hopener, fun htransparent => ?_⟩
  rcases Commentary.transparent_cases htransparent with
    hnil | hstar | hcomment | hopens | ⟨-, hmark⟩
  · exact List.cons_ne_nil _ _ hnil
  · obtain ⟨rest, heq⟩ := (Commentary.startsWithStar_iff _).1 hstar
    obtain ⟨rfl, -⟩ := List.cons.inj heq
    revert hc
    decide
  · obtain ⟨rest, heq⟩ := (Commentary.isLineComment_iff _).1 hcomment
    obtain ⟨rfl, -⟩ := List.cons.inj heq
    revert hc
    decide
  · exact hopener hopens
  · have hat : c = '@' := by
      simp [annotations, isAnnotation] at hmark
      exact hmark.1.symm
    subst hat
    revert hc
    decide

/-- The extent of a method starts below every declaration above its own. -/
theorem lt_first_of_declaresAt (hne : search.modifiers ≠ [])
    (hkeywords : ∀ modifier ∈ search.modifiers, isKeyword modifier = true)
    (h : search.find lines name = .ok e) {other : String} {index : Nat}
    (hat : search.DeclaresAt lines other index) (habove : index < e.declaration) :
    index < e.first := by
  refine Nat.lt_of_not_le fun hfirst => ?_
  obtain ⟨line, hline, hdeclares⟩ := hat.exists_line
  obtain ⟨hopener, htransparent⟩ :=
    not_walked_of_declares hne hkeywords ((declares_iff _).1 hdeclares).2 search.lookback
  rcases (shape_of_taken h hfirst habove hline).2 with hopens | hclear
  · exact hopener hopens
  · exact htransparent hclear

end Search

/-! ## Nested extents -/

/-- A plan that removes the lines of one extent has its indices as removal set. -/
theorem Plan.removal_eq_indices {plan : Plan} {e : Extent} (hlast : e.last < plan.originalLines)
    (h : ∀ index, plan.removes index = true ↔ e.covers index = true) :
    plan.removal = e.indices := by
  refine List.Pairwise.eq_of_mem_iff plan.removal_pairwise_lt List.pairwise_lt_range' ?_
  intro index
  rw [plan.mem_removal_iff, h, Extent.mem_indices_iff, and_iff_right_iff_imp, Extent.covers_iff]
  rintro ⟨-, hle⟩
  exact Nat.lt_of_le_of_lt hle hlast

namespace Settings

/-- **Methods inside of methods.** Let a method be found, and let another name be declared first on
a line of its body below its declaration. If behind neither of the two declarations a closing brace
comes before the first opening one, then the other name is found too. Its extent starts below the
outer declaration and ends no later than the outer extent, so it lies inside of it; and without
trimming of blank lines a request for both removes the lines of the outer extent and no others. -/
theorem find_nested (settings : Settings) (hcheck : settings.check = .ok ()) (source : Source)
    (outer inner : String) (e : Extent) (declaration : Nat)
    (houter : settings.cutter.search.find source.lines outer = .ok e)
    (hfirst : OpensFirst (characters (source.lines.drop e.declaration)))
    (hinner : settings.cutter.search.declaration? source.lines inner = some declaration)
    (hfirst' : OpensFirst (characters (source.lines.drop declaration)))
    (hbelow : e.declaration < declaration) (hinside : declaration ≤ e.last) :
    ∃ e', settings.cutter.search.find source.lines inner = .ok e' ∧
      e'.declaration = declaration ∧ e.declaration < e'.first ∧ e'.last ≤ e.last ∧
      (∀ index, e'.covers index = true → e.covers index = true) ∧
      (settings.trimsBlank = false → ∀ names, outer ∈ names →
        (∀ name ∈ names, name = outer ∨ name = inner) →
          (settings.cutter.plan source names).removal = e.indices) := by
  obtain ⟨hne, hkeywords⟩ := (check_eq_ok_iff settings).1 hcheck
  obtain ⟨hdeclared, -, hend⟩ := (Search.find_eq_ok_iff e).1 houter
  obtain ⟨last', hend', hlast⟩ := bodyEnd_of_inside hend hfirst hfirst' hbelow hinside
  have hfind := Search.find_of_closed hinner hend'
  have hstart : e.declaration < settings.cutter.search.start source.lines declaration :=
    Search.lt_first_of_declaresAt hne hkeywords hfind
      ((Search.declaration?_eq_some_iff _).1 hdeclared).1 hbelow
  obtain ⟨-, hle, -, hsize⟩ := Search.bounds_of_find houter
  have hcovers : ∀ index,
      Extent.covers ⟨settings.cutter.search.start source.lines declaration, declaration, last'⟩
        index = true → e.covers index = true := by
    intro index hindex
    obtain ⟨hge, hto⟩ : settings.cutter.search.start source.lines declaration ≤ index ∧
        index ≤ last' := (Extent.covers_iff _ _).1 hindex
    exact (Extent.covers_iff _ _).2 ⟨by omega, Nat.le_trans hto hlast⟩
  refine ⟨_, hfind, rfl, hstart, hlast, hcovers, fun htrims names hmem hnames => ?_⟩
  refine Plan.removal_eq_indices hsize fun index => ?_
  rw [Cutter.removes_plan_iff_of_not_trims htrims]
  constructor
  · rintro ⟨name, hname, e', hfind', hindex⟩
    rcases hnames name hname with rfl | rfl
    · rwa [Except.ok.inj (houter.symm.trans hfind')]
    · rw [← Except.ok.inj (hfind.symm.trans hfind')] at hindex
      exact hcovers index hindex
  · exact fun hindex => ⟨outer, hmem, e, houter, hindex⟩

/-- The inner method stands among the parameters of the outer one, so both bodies open and close
with the same braces. -/
theorem find_nested_among_parameters :
    let source : Source := ⟨["/** A */\n", "private a(\n", "/** B */\n", "private b() \x7b\n",
      "if (x) \x7b \x7d \x7d\n", "\x7d\n"]⟩
    let search := builtin.cutter.search
    search.find source.lines "a" = .ok ⟨0, 1, 4⟩ ∧
      OpensFirst (characters (source.lines.drop 1)) ∧
      search.declaration? source.lines "b" = some 3 ∧
      OpensFirst (characters (source.lines.drop 3)) ∧
      search.find source.lines "b" = .ok ⟨2, 3, 4⟩ ∧
      (builtin.cutter.plan source ["b", "a"]).removal = [0, 1, 2, 3, 4] := by
  intro source search
  have houter : search.find source.lines "a" = .ok ⟨0, 1, 4⟩ := by decide +kernel
  have hfirst : OpensFirst (characters (source.lines.drop 1)) := by decide +kernel
  have hinner : search.declaration? source.lines "b" = some 3 := by decide +kernel
  have hfirst' : OpensFirst (characters (source.lines.drop 3)) := by decide +kernel
  obtain ⟨_, -, -, -, -, -, hremoval⟩ := find_nested builtin rfl source "a" "b" ⟨0, 1, 4⟩ 3
    houter hfirst hinner hfirst' (by decide) (by decide)
  refine ⟨houter, hfirst, hinner, hfirst', by decide +kernel, ?_⟩
  exact hremoval rfl ["b", "a"] (by simp) (by simp)

end Settings

end Excision
