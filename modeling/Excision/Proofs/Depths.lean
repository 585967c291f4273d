import Excision.Proofs.Removal
import Mathlib.Data.List.Forall2

/-!
# More depth

The depth of a search bounds the walk to a doc comment and nothing else, so two searches that differ
in their depths find and miss the same names, on the same declarations and with the same ends of
bodies (`Search.find_withDepth`). The shallower walk reads the first of the lines that the deeper
one reads (`Lookback.take_linesAbove`), and an opener that it settles on is still reachable for the
deeper one. The bounded walk may settle on an opener further up, while the doc block walk settles on
the same one (`Lookback.exists_opener?_of_take`).

How an extent may grow with the depth is the relation `Extent.Extends`, and `Outcome.Extends` is
that of outcomes. Outcome by outcome the plan of the deeper search extends that of the shallower
one, so it misses the same names and removes at least the same lines (`Cutter.plan_withDepth`).
-/

set_option autoImplicit false

namespace Excision

/-- The same search with another depth. -/
def Search.withDepth (search : Search) (depth : Nat) : Search := { search with depth := depth }

/-- The same cutter with another depth of its search. -/
def Cutter.withDepth (cutter : Cutter) (depth : Nat) : Cutter :=
  { cutter with search := cutter.search.withDepth depth }

/-- Whether an extent is another one extended upwards, as a strategy may extend it. The doc block
strategy extends an extent only if that starts at its declaration. -/
structure Extent.Extends (strategy : Lookback) (e e' : Extent) : Prop where
  declaration : e'.declaration = e.declaration
  last : e'.last = e.last
  first_le : e'.first ≤ e.first
  docBlock : strategy = .docBlock → e.first = e.declaration ∨ e.first = e'.first

/-- Whether an outcome is another one with its extent extended upwards: found for the same name and
with the same trailing blank line, or missed for the same reason. -/
inductive Outcome.Extends (strategy : Lookback) : Outcome → Outcome → Prop where
  | found {e e' : Extent} (h : e.Extends strategy e') (name : String) (trailingBlank : Option Nat) :
      Extends strategy (.found name e trailingBlank) (.found name e' trailingBlank)
  | missing (miss : Miss) : Extends strategy (.missing miss) (.missing miss)

/-! ## The walks -/

namespace Lookback

/-- The shallower of two walks reads the first of the lines that the deeper one reads. -/
theorem take_linesAbove (lines : List String) (declaration : Nat) {shallow deep : Nat}
    (hle : shallow ≤ deep) :
    (linesAbove lines declaration deep).take shallow = linesAbove lines declaration shallow := by
  rw [linesAbove, ← List.map_take, List.take_take, Nat.min_eq_left hle, linesAbove]

/-- Where a strategy settles on an opener of the first lines, it settles on one of all lines that is
no nearer, and with the doc block strategy on the same one. -/
theorem exists_opener?_of_take {strategy : Lookback} {above : List (List Char)} {depth k : Nat}
    (h : strategy.opener? (above.take depth) = some k) :
    ∃ k', strategy.opener? above = some k' ∧ k ≤ k' ∧ (strategy = .docBlock → k = k') := by
  cases strategy with
  | bounded =>
      have hreach := (reaches_of_opener? h).of_take
      cases hopener : Lookback.bounded.opener? above with
      | none => exact absurd hreach ((opener?_eq_none_iff _ _).1 hopener k)
      | some k' =>
          have hfurthest := ((furthestOpener_eq_some_iff _ k').1 hopener).2 k hreach
          exact ⟨k', rfl, hfurthest, fun hstrategy => by contradiction⟩
  | docBlock =>
      obtain ⟨-, hopener⟩ := (nearestOpener_take_eq_some_iff above depth k).1 h
      exact ⟨k, hopener, Nat.le_refl k, fun _ => rfl⟩

variable (strategy : Lookback) (lines : List String) (declaration : Nat) {shallow deep : Nat}

/-- With more depth a method starts at the same line or further up. With the doc block strategy it
starts further up only if it started at its declaration. -/
theorem start_of_le (hle : shallow ≤ deep) :
    strategy.start deep lines declaration ≤ strategy.start shallow lines declaration ∧
      (strategy = .docBlock →
        strategy.start shallow lines declaration = declaration ∨
          strategy.start shallow lines declaration = strategy.start deep lines declaration) := by
  cases hopener : strategy.opener? (linesAbove lines declaration shallow) with
  | none =>
      have hstart : strategy.start shallow lines declaration = declaration := by
        rw [start_eq_elim, hopener]
        rfl
      rw [hstart]
      exact ⟨start_le _ _ _ _, fun _ => Or.inl rfl⟩
  | some k =>
      have htake := hopener
      rw [← take_linesAbove lines declaration hle] at htake
      obtain ⟨k', hopener', hk, hsame⟩ := exists_opener?_of_take htake
      rw [start_eq_elim strategy deep, start_eq_elim strategy shallow, hopener, hopener']
      refine ⟨Nat.sub_le_sub_left (Nat.succ_le_succ hk) declaration, fun hstrategy => ?_⟩
      rw [hsame hstrategy]
      exact Or.inr rfl

end Lookback

/-! ## The search -/

/-- The extent with the start that a strategy finds for its declaration with another depth. -/
def Extent.withDepth (strategy : Lookback) (lines : List String) (depth : Nat) (e : Extent) :
    Extent :=
  { e with first := strategy.start depth lines e.declaration }

theorem Extent.extends_withDepth (strategy : Lookback) (lines : List String) (e : Extent)
    {shallow deep : Nat} (hle : shallow ≤ deep) :
    (e.withDepth strategy lines shallow).Extends strategy (e.withDepth strategy lines deep) := by
  obtain ⟨hfirst, hsettled⟩ := strategy.start_of_le lines e.declaration hle
  exact ⟨rfl, rfl, hfirst, hsettled⟩

namespace Search

/-- With another depth a search misses the same names for the same reasons and finds the others with
the start for that depth. -/
theorem find_withDepth (search : Search) (lines : List String) (name : String) (depth : Nat) :
    (search.withDepth depth).find lines name =
      (search.find lines name).map (Extent.withDepth search.lookback lines depth) := by
  have hsame : (search.withDepth depth).declaration? lines name =
      search.declaration? lines name := rfl
  have hrefusal : (search.withDepth depth).refusal? name = search.refusal? name := rfl
  unfold find
  rw [hrefusal, hsame]
  cases search.refusal? name with
  | some complaint => rfl
  | none =>
      dsimp only
      cases search.declaration? lines name with
      | none => rfl
      | some declaration =>
          dsimp only
          cases bodyEnd lines declaration <;> rfl

end Search

/-! ## Outcomes -/

namespace Outcome

variable {strategy : Lookback} {outcomes outcomes' : List Outcome}

/-- An extended outcome removes what the other one removes. -/
theorem Extends.removes {o o' : Outcome} (h : o.Extends strategy o') {index : Nat}
    (hgoes : o.removes index = true) : o'.removes index = true := by
  cases h with
  | missing miss => exact hgoes
  | @found e e' hextends name trailingBlank =>
      rcases Bool.or_eq_true_iff.1 hgoes with hcovers | hblank
      · obtain ⟨hfirst, hlast⟩ := (Extent.covers_iff e index).1 hcovers
        refine Bool.or_eq_true_iff.2 (Or.inl ((Extent.covers_iff e' index).2 ⟨?_, ?_⟩))
        · exact Nat.le_trans hextends.first_le hfirst
        · rw [hextends.last]
          exact hlast
      · exact Bool.or_eq_true_iff.2 (Or.inr hblank)

theorem any_removes_of_extends (h : List.Forall₂ (Extends strategy) outcomes outcomes')
    {index : Nat} (hgoes : outcomes.any (·.removes index) = true) :
    outcomes'.any (·.removes index) = true := by
  induction h with
  | nil => exact hgoes
  | cons hhead _ ih =>
      rw [List.any_cons, Bool.or_eq_true] at hgoes ⊢
      exact hgoes.imp hhead.removes ih

/-- Extended outcomes miss the same names. -/
theorem missing_eq_of_extends (h : List.Forall₂ (Extends strategy) outcomes outcomes') :
    (outcomes.filter (!·.isFound)).map name = (outcomes'.filter (!·.isFound)).map name := by
  induction h with
  | nil => rfl
  | cons hhead _ ih =>
      cases hhead with
      | found _ name trailingBlank => exact ih
      | missing miss => exact congrArg (miss.name :: ·) ih

end Outcome

/-! ## The plan -/

namespace Cutter

/-- With more depth one requested name has its outcome extended. The blank line that is cut with an
extent is a matter of its end. -/
theorem outcome_withDepth (cutter : Cutter) (source : Source) (name : String) {shallow deep : Nat}
    (hle : shallow ≤ deep) :
    ((cutter.withDepth shallow).outcome source name).Extends cutter.search.lookback
      ((cutter.withDepth deep).outcome source name) := by
  have hfind (depth : Nat) : (cutter.withDepth depth).search.find source.lines name =
      (cutter.search.find source.lines name).map
        (Extent.withDepth cutter.search.lookback source.lines depth) :=
    cutter.search.find_withDepth source.lines name depth
  unfold outcome
  rw [hfind, hfind]
  cases cutter.search.find source.lines name with
  | error miss => exact .missing miss
  | ok e => exact .found (e.extends_withDepth _ _ hle) name (cutter.trailingBlank? source e)

/-- **More depth only extends upwards.** With more depth a plan has for every requested name the
same outcome with its extent extended upwards: the name is missed for the same reason, or found on
the same declaration with the same end and trailing blank line and starts at the same line or
further up. With the doc block strategy a start that moves was at the declaration. So the same names
are missed, and no line that goes with less depth stays. -/
theorem plan_withDepth (cutter : Cutter) (source : Source) (names : List String)
    {shallow deep : Nat} (hle : shallow ≤ deep) :
    let before := (cutter.withDepth shallow).plan source names
    let after := (cutter.withDepth deep).plan source names
    List.Forall₂ (Outcome.Extends cutter.search.lookback) before.outcomes after.outcomes ∧
      before.missing = after.missing ∧ before.removal ⊆ after.removal := by
  intro before after
  have hextends : List.Forall₂ (Outcome.Extends cutter.search.lookback) before.outcomes
      after.outcomes := by
    apply List.forall₂_map_left_iff.2
    apply List.forall₂_map_right_iff.2
    exact List.forall₂_same.2 fun name _ => cutter.outcome_withDepth source name hle
  refine ⟨hextends, Outcome.missing_eq_of_extends hextends, fun index hindex => ?_⟩
  obtain ⟨hlt, hgoes⟩ := (before.mem_removal_iff index).1 hindex
  exact (after.mem_removal_iff index).2 ⟨hlt, Outcome.any_removes_of_extends hextends hgoes⟩

/-- Two doc comments above a declaration: with a depth of one the nearer of them goes, with a depth
of two the other one goes as well. -/
theorem plan_withDepth_on_two_openers :
    let cutter : Cutter := ⟨⟨["private"], .bounded, 3, .standard⟩, true⟩
    let source : Source := ⟨["/** One */\n", "/** Two */\n", "private a() \x7b\x7d\n", "\n", "k\n"]⟩
    let before := (cutter.withDepth 1).plan source ["a", "b"]
    let after := (cutter.withDepth 2).plan source ["a", "b"]
    1 ≤ 2 ∧ before.removal = [1, 2, 3] ∧ after.removal = [0, 1, 2, 3] ∧
      List.Forall₂ (Outcome.Extends .bounded) before.outcomes after.outcomes ∧
      before.missing = ["b"] ∧ after.missing = ["b"] ∧ before.removal ⊆ after.removal := by
  intro cutter source before after
  have hle : 1 ≤ 2 := by decide
  obtain ⟨hextends, hmissing, hsubset⟩ := plan_withDepth cutter source ["a", "b"] hle
  have hmissed : before.missing = ["b"] := by decide +kernel
  exact ⟨hle, by decide +kernel, by decide +kernel, hextends, hmissed,
    hmissing.symm.trans hmissed, hsubset⟩

end Cutter

end Excision
