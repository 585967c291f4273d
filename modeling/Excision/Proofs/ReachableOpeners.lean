import Excision.Proofs.Commentary
import Excision.Proofs.WordWalks
import Mathlib.Order.Bounds.Defs

/-!
# Where doc comments open

The start of a method is told here by line numbers alone. A line is a reachable opener of a
declaration if it stands above it, no further up than the depth, starts with `/**`, and every line
between the two is one that the strategy steps over (`ReachableOpener`, `StepsOver`). These are the
openers that a walk reaches on its list of trimmed lines, nearest first
(`reaches_iff_reachableOpener`), with distances in place of line numbers.

So the bounded strategy starts a method at its smallest reachable opener and the doc block strategy
at its largest one, either at the declaration exactly if there is none, and with depths and line
numbers that are machine words neither walk leaves the words or the lines (`start_exact`).
-/

set_option autoImplicit false

namespace Excision.Lookback

/-- The trimmed lines that a strategy steps over, by what they start with. -/
def StepsOver : Lookback → List Char → Prop
  | .bounded, text =>
    text = [] ∨ "@deprecated".toList <+: text ∨ "/**".toList <+: text ∨ text = "*/".toList ∨
      "*".toList <+: text ∧ ¬ "*/".toList <+: text
  | .docBlock, text => text = [] ∨ "*".toList <+: text ∨ "//".toList <+: text

/-- Whether line `first` opens a doc comment that a walk of a given depth reaches from a
declaration. -/
structure ReachableOpener (strategy : Lookback) (lines : List String)
    (declaration depth first : Nat) : Prop where
  above : first < declaration
  inDepth : declaration - first ≤ depth
  opener : ∃ line, lines[first]? = some line ∧ "/**".toList <+: Text.trim line.toList
  between : ∀ index line, first < index → index < declaration → lines[index]? = some line →
    StepsOver strategy (Text.trim line.toList)

/-! ## Lines by what they start with -/

theorem isOpener_iff_isPrefix (text : List Char) :
    isOpener text = true ↔ "/**".toList <+: text := by
  rw [Commentary.isOpener_iff]
  exact exists_congr fun _ => eq_comm

theorem startsWithStar_iff_isPrefix (text : List Char) :
    startsWithStar text = true ↔ "*".toList <+: text := by
  rw [Commentary.startsWithStar_iff]
  exact exists_congr fun _ => eq_comm

theorem isLineComment_iff_isPrefix (text : List Char) :
    isLineComment text = true ↔ "//".toList <+: text := by
  rw [Commentary.isLineComment_iff]
  exact exists_congr fun _ => eq_comm

theorem startsWithCloser_iff_isPrefix (text : List Char) :
    startsWithCloser text = true ↔ "*/".toList <+: text := by
  unfold startsWithCloser
  split
  · next rest => exact ⟨fun _ => ⟨rest, rfl⟩, fun _ => rfl⟩
  · next h =>
    simp only [Bool.false_eq_true, false_iff]
    rintro ⟨rest, heq⟩
    exact h rest heq.symm

theorem isAnnotation_iff_isPrefix (text : List Char) :
    isAnnotation text = true ↔ "@deprecated".toList <+: text := by
  simp [annotations, isAnnotation]

theorem isTransparent_iff (strategy : Lookback) (text : List Char) :
    isTransparent strategy text = true ↔ StepsOver strategy text := by
  cases strategy with
  | bounded =>
      simp only [isTransparent, isDocLine, StepsOver, Bool.or_eq_true, Bool.and_eq_true,
        List.isEmpty_iff, beq_iff_eq, Bool.not_eq_true', ← Bool.not_eq_true, isOpener_iff_isPrefix,
        isAnnotation_iff_isPrefix, startsWithStar_iff_isPrefix, startsWithCloser_iff_isPrefix,
        or_assoc]
      rfl
  | docBlock =>
      simp only [isTransparent, StepsOver, Bool.or_eq_true, List.isEmpty_iff,
        startsWithStar_iff_isPrefix, isLineComment_iff_isPrefix, or_assoc]

instance (strategy : Lookback) (text : List Char) : Decidable (StepsOver strategy text) :=
  decidable_of_iff _ (isTransparent_iff strategy text)

instance (strategy : Lookback) (lines : List String) (declaration depth first : Nat) :
    Decidable (ReachableOpener strategy lines declaration depth first) :=
  decidable_of_iff (first < declaration ∧ declaration - first ≤ depth ∧
      lines[first]?.any (fun line => isOpener (Text.trim line.toList)) = true ∧
      ∀ index < declaration, first < index →
        lines[index]?.all (fun line => isTransparent strategy (Text.trim line.toList)) = true) <| by
    simp only [Option.any_eq_true, Option.all_eq_true, isOpener_iff_isPrefix, isTransparent_iff]
    constructor
    · rintro ⟨habove, hdepth, hopener, hbetween⟩
      exact ⟨habove, hdepth, hopener, fun index line hlow hhigh => hbetween index hhigh hlow line⟩
    · rintro ⟨habove, hdepth, hopener, hbetween⟩
      exact ⟨habove, hdepth, hopener, fun index hhigh hlow line => hbetween index line hlow hhigh⟩

/-! ## Line numbers and distances -/

section Walk

variable {strategy : Lookback} {lines : List String} {declaration depth : Nat}

theorem length_linesAbove (h : declaration ≤ lines.length) :
    (linesAbove lines declaration depth).length = min depth declaration := by
  rw [linesAbove, List.length_map, List.length_take, List.length_reverse, List.length_take,
    Nat.min_eq_left h]

/-- The line at a distance above the declaration, as long as the walk gets there. -/
theorem getElem?_linesAbove_eq_some_iff (h : declaration ≤ lines.length) (k : Nat)
    (text : List Char) :
    (linesAbove lines declaration depth)[k]? = some text ↔
      k < min depth declaration ∧
        ∃ line, lines[declaration - (k + 1)]? = some line ∧ Text.trim line.toList = text := by
  rcases Nat.lt_or_ge k (min depth declaration) with hlt | hge
  · rw [getElem?_linesAbove (by rwa [length_linesAbove h]) h, Option.map_eq_some_iff,
      Nat.sub_sub, Nat.add_comm 1 k]
    exact (and_iff_right hlt).symm
  · rw [List.getElem?_eq_none (by rwa [length_linesAbove h])]
    simp only [reduceCtorEq, false_iff]
    rintro ⟨hlt, -⟩
    omega

/-- A walk reaches an opener at some distance exactly if the line that far above the declaration is
a reachable opener. -/
theorem reaches_iff_reachableOpener (h : declaration ≤ lines.length) (k : Nat) :
    Reaches (isTransparent strategy) (linesAbove lines declaration depth) k ↔
      k < declaration ∧
        ReachableOpener strategy lines declaration depth (declaration - (k + 1)) := by
  rw [Reaches, Option.any_eq_true]
  constructor
  · rintro ⟨⟨text, htext, hopener⟩, hclear⟩
    obtain ⟨hlt, line, hline, rfl⟩ := (getElem?_linesAbove_eq_some_iff h k text).1 htext
    refine ⟨by omega, by omega, by omega, ⟨line, hline, (isOpener_iff_isPrefix _).1 hopener⟩, ?_⟩
    intro index other hlow hhigh hother
    refine (isTransparent_iff _ _).1 (hclear _ ?_)
    -- a line between the two stands at a smaller distance
    have hdistance : declaration - (declaration - index - 1 + 1) = index := by omega
    refine List.mem_iff_getElem?.2 ⟨declaration - index - 1, ?_⟩
    rw [List.getElem?_take, if_pos (by omega)]
    exact (getElem?_linesAbove_eq_some_iff h _ _).2
      ⟨by omega, other, by rw [hdistance]; exact hother, rfl⟩
  · rintro ⟨hk, habove, hdepth, ⟨line, hline, hopener⟩, hbetween⟩
    constructor
    · refine ⟨_, (getElem?_linesAbove_eq_some_iff h k _).2 ⟨by omega, line, hline, rfl⟩, ?_⟩
      exact (isOpener_iff_isPrefix _).2 hopener
    · intro text htext
      obtain ⟨j, hj⟩ := List.mem_iff_getElem?.1 htext
      rw [List.getElem?_take] at hj
      split at hj
      · next hlt =>
        obtain ⟨-, other, hother, rfl⟩ := (getElem?_linesAbove_eq_some_iff h j text).1 hj
        exact (isTransparent_iff _ _).2 (hbetween _ other (by omega) (by omega) hother)
      · exact absurd hj (by simp)

theorem ReachableOpener.reaches {first : Nat} (h : declaration ≤ lines.length)
    (hfirst : ReachableOpener strategy lines declaration depth first) :
    Reaches (isTransparent strategy) (linesAbove lines declaration depth)
      (declaration - first - 1) := by
  have habove := hfirst.above
  refine (reaches_iff_reachableOpener h _).2 ⟨by omega, ?_⟩
  rwa [show declaration - (declaration - first - 1 + 1) = first by omega]

/-- A method starts at its declaration exactly if no opener is reachable. -/
theorem start_eq_declaration_iff (h : declaration ≤ lines.length) :
    strategy.start depth lines declaration = declaration ↔
      ¬ ∃ first, ReachableOpener strategy lines declaration depth first := by
  rw [start_eq_elim]
  cases hopener : strategy.opener? (linesAbove lines declaration depth) with
  | none =>
      refine iff_of_true rfl ?_
      rintro ⟨first, hfirst⟩
      exact (opener?_eq_none_iff _ _).1 hopener _ (hfirst.reaches h)
  | some k =>
      obtain ⟨hk, hfirst⟩ := (reaches_iff_reachableOpener h k).1 (reaches_of_opener? hopener)
      refine iff_of_false ?_ (not_not_intro ⟨_, hfirst⟩)
      show ¬ declaration - (k + 1) = declaration
      omega

/-- The line that a strategy settles on, if an opener is reachable. -/
theorem exists_opener? (h : declaration ≤ lines.length)
    (hex : ∃ first, ReachableOpener strategy lines declaration depth first) :
    ∃ k, strategy.opener? (linesAbove lines declaration depth) = some k ∧
      strategy.start depth lines declaration = declaration - (k + 1) ∧
      ReachableOpener strategy lines declaration depth (declaration - (k + 1)) := by
  cases hopener : strategy.opener? (linesAbove lines declaration depth) with
  | none =>
      obtain ⟨first, hfirst⟩ := hex
      exact absurd (hfirst.reaches h) ((opener?_eq_none_iff _ _).1 hopener _)
  | some k =>
      obtain ⟨-, hfirst⟩ := (reaches_iff_reachableOpener h k).1 (reaches_of_opener? hopener)
      exact ⟨k, rfl, by rw [start_eq_elim, hopener]; rfl, hfirst⟩

/-- The bounded strategy starts a method at its smallest reachable opener. -/
theorem isLeast_start (h : declaration ≤ lines.length)
    (hex : ∃ first, ReachableOpener .bounded lines declaration depth first) :
    IsLeast {first | ReachableOpener .bounded lines declaration depth first}
      (Lookback.bounded.start depth lines declaration) := by
  obtain ⟨k, hopener, hstart, hfirst⟩ := exists_opener? h hex
  rw [hstart]
  refine ⟨hfirst, fun first hother => ?_⟩
  have hmax := ((furthestOpener_eq_some_iff _ k).1 hopener).2 _ (hother.reaches h)
  have habove := hother.above
  omega

/-- The doc block strategy starts a method at its largest reachable opener. -/
theorem isGreatest_start (h : declaration ≤ lines.length)
    (hex : ∃ first, ReachableOpener .docBlock lines declaration depth first) :
    IsGreatest {first | ReachableOpener .docBlock lines declaration depth first}
      (Lookback.docBlock.start depth lines declaration) := by
  obtain ⟨k, hopener, hstart, hfirst⟩ := exists_opener? h hex
  rw [hstart]
  refine ⟨hfirst, fun first hother => ?_⟩
  have hmin := ((nearestOpener_eq_some_iff _ k).1 hopener).2 _ (hother.reaches h)
  have habove := hother.above
  omega

end Walk

/-! ## The start of a method -/

/-- **A method starts at a reachable opener.** For a declaration within a document the bounded
strategy starts the method at the smallest reachable opener and the doc block strategy at the
largest one, if there is any, and either starts it at the declaration exactly if there is none. For
every depth that is a machine word, the largest one included, the walks compute this line in machine
words without leaving the words or the lines. -/
theorem start_exact (lines : List String) (declaration depth : Nat)
    (h : declaration ≤ lines.length) :
    ((∃ first, ReachableOpener .bounded lines declaration depth first) →
        IsLeast {first | ReachableOpener .bounded lines declaration depth first}
          (Lookback.bounded.start depth lines declaration)) ∧
      ((∃ first, ReachableOpener .docBlock lines declaration depth first) →
        IsGreatest {first | ReachableOpener .docBlock lines declaration depth first}
          (Lookback.docBlock.start depth lines declaration)) ∧
      (∀ strategy : Lookback, strategy.start depth lines declaration = declaration ↔
        ¬ ∃ first, ReachableOpener strategy lines declaration depth first) ∧
      ∀ (strategy : Lookback) (index limit : UInt64), index.toNat = declaration →
        limit.toNat = depth → ∃ first, strategy.walk lines index limit = .ok first ∧
          first.toNat = strategy.start depth lines declaration := by
  refine ⟨isLeast_start h, isGreatest_start h, fun strategy => start_eq_declaration_iff h, ?_⟩
  rintro strategy index limit rfl rfl
  exact exists_walk strategy h limit

/-- Two doc comments above a declaration: with the largest depth the bounded strategy takes both and
the doc block strategy the nearer one; with a depth of two no opener is reachable. -/
theorem start_exact_on_two_openers :
    let lines := ["/** One */\n", "/**\n", " * Two\n", " */\n", "\n", "private a() \x7b\x7d\n"]
    5 ≤ lines.length ∧
      IsLeast {first | ReachableOpener .bounded lines 5 18446744073709551615 first} 0 ∧
      IsGreatest {first | ReachableOpener .docBlock lines 5 18446744073709551615 first} 1 ∧
      (¬ ∃ first, ReachableOpener .bounded lines 5 2 first) ∧
      ∃ first, Lookback.bounded.walk lines 5 18446744073709551615 = .ok first ∧
        first.toNat = 0 := by
  intro lines
  have h : 5 ≤ lines.length := by decide
  have hfurthest : Lookback.bounded.start 18446744073709551615 lines 5 = 0 := by decide +kernel
  have hnearest : Lookback.docBlock.start 18446744073709551615 lines 5 = 1 := by decide +kernel
  obtain ⟨hleast, hgreatest, -, hwalk⟩ := start_exact lines 5 18446744073709551615 h
  rw [hfurthest] at hleast
  rw [hnearest] at hgreatest
  refine ⟨h, hleast ⟨0, by decide +kernel⟩, hgreatest ⟨1, by decide +kernel⟩, ?_, ?_⟩
  · exact ((start_exact lines 5 2 h).2.2.1 .bounded).1 (by decide +kernel)
  · obtain ⟨first, hfirst, heq⟩ := hwalk .bounded 5 18446744073709551615 rfl rfl
    exact ⟨first, hfirst, heq.trans hfurthest⟩

end Excision.Lookback
