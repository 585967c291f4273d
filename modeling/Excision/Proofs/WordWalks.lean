import Excision.Proofs.Opener

/-!
# Walks in machine words

The walks to a doc comment are defined on lists of trimmed lines. Here they count in words of 64
bits and read one line at a time by its number. A number outside of the words and a number without a
line are faults of their own (`LineFault`), so a walk that gives a line has met neither.

The bounded walk counts how far up it is and takes this distance off the declaration
(`boundedFrom`); it stops counting at the depth, so the largest depth is no exception. The doc block
walk counts line numbers down to a floor (`docBlockFrom`). One step of either reads the line above
and treats it as the recursion on lists does (`boundedFrom_of_line`, `docBlockFrom_of_line`), and by
induction on the lines left to read the walks settle on the same line (`exists_boundedFrom`,
`exists_docBlockFrom`). So for any depth that is a word a walk meets no fault, and ends where the
method starts (`exists_walk`).
-/

set_option autoImplicit false

namespace Excision.Lookback

/-! ## Line numbers as words -/

/-- What can go wrong with a line number. -/
inductive LineFault where
  /-- The number is below zero or past the largest word. -/
  | overflow
  /-- No line has the number. -/
  | outside
deriving DecidableEq, Repr

/-- The word after a word. -/
def plusOne (n : UInt64) : Except LineFault UInt64 :=
  if n.toNat + 1 < UInt64.size then .ok (n + 1) else .error .overflow

/-- The difference of two words. -/
def minus (m n : UInt64) : Except LineFault UInt64 :=
  if n ≤ m then .ok (m - n) else .error .overflow

/-- The trimmed line with a number. -/
def lineAt (lines : List String) (n : UInt64) : Except LineFault (List Char) :=
  match lines[n.toNat]? with
  | some line => .ok (Text.trim line.toList)
  | none => .error .outside

theorem exists_plusOne (n : UInt64) (h : n.toNat + 1 < UInt64.size) :
    ∃ m, plusOne n = .ok m ∧ m.toNat = n.toNat + 1 := by
  refine ⟨n + 1, if_pos h, ?_⟩
  rw [UInt64.toNat_add]
  exact Nat.mod_eq_of_lt h

theorem exists_minus (m n : UInt64) (h : n.toNat ≤ m.toNat) :
    ∃ k, minus m n = .ok k ∧ k.toNat = m.toNat - n.toNat := by
  have hle : n ≤ m := UInt64.le_iff_toNat_le.2 h
  exact ⟨m - n, if_pos hle, UInt64.toNat_sub_of_le _ _ hle⟩

theorem lineAt_eq_ok {lines : List String} {n : UInt64} {line : String}
    (h : lines[n.toNat]? = some line) : lineAt lines n = .ok (Text.trim line.toList) := by
  rw [lineAt, h]

/-! ## The two walks -/

/-- What the bounded walk has settled on after the line with number `index`, if it goes on. -/
def boundedVisit (text : List Char) (index first : UInt64) : Option UInt64 :=
  if isDocLine text then some (if isOpener text then index else first)
  else if text.isEmpty || isAnnotation text then some first
  else none

/-- The bounded walk over the lines that are `distance` and more above the declaration, `left` lines
of them at most. It has settled on line `first` so far. -/
def boundedFrom (lines : List String) (declaration : UInt64) :
    Nat → UInt64 → UInt64 → Except LineFault UInt64
  | 0, _, first => .ok first
  | left + 1, distance, first =>
    if declaration < distance then .ok first
    else do
      let index ← minus declaration distance
      let text ← lineAt lines index
      match boundedVisit text index first with
      | none => .ok first
      | some first =>
        if left = 0 then .ok first
        else do
          let distance ← plusOne distance
          boundedFrom lines declaration left distance first

/-- The doc block walk over the lines above line `below`, `left` lines of them at most. -/
def docBlockFrom (lines : List String) (declaration : UInt64) :
    Nat → UInt64 → Except LineFault UInt64
  | 0, _ => .ok declaration
  | left + 1, below => do
    let index ← minus below 1
    let text ← lineAt lines index
    if isOpener text then .ok index
    else if text.isEmpty || startsWithStar text || isLineComment text then
      docBlockFrom lines declaration left index
    else .ok declaration

/-- The highest line that a walk of a given depth reads, for which zero is the least. -/
def floorOf (declaration depth : UInt64) : UInt64 :=
  if depth ≤ declaration then declaration - depth else 0

/-- The line on which a method starts, counted in words. -/
def walk (strategy : Lookback) (lines : List String) (declaration depth : UInt64) :
    Except LineFault UInt64 :=
  match strategy with
  | .bounded => boundedFrom lines declaration depth.toNat 1 declaration
  | .docBlock => do
    let left ← minus declaration (floorOf declaration depth)
    docBlockFrom lines declaration left.toNat declaration

/-! ## The lines above, one by one -/

theorem linesAbove_zero (lines : List String) (depth : Nat) : linesAbove lines 0 depth = [] := by
  simp [linesAbove]

theorem linesAbove_of_depth_zero (lines : List String) (declaration : Nat) :
    linesAbove lines declaration 0 = [] := by
  simp [linesAbove]

/-- The nearest line above, and the lines above that one. -/
theorem linesAbove_succ {lines : List String} {index : Nat} {line : String}
    (h : lines[index]? = some line) (depth : Nat) :
    linesAbove lines (index + 1) (depth + 1) =
      Text.trim line.toList :: linesAbove lines index depth := by
  have hlast : lines.take (index + 1) = lines.take index ++ [line] := by
    rw [List.take_add_one, h, Option.toList_some]
  rw [linesAbove, hlast, List.reverse_append, List.reverse_singleton, List.singleton_append,
    List.take_succ_cons, List.map_cons, linesAbove]

/-! ## The bounded walk -/

theorem boundedVisit_eq (text : List Char) (index first : UInt64) :
    boundedVisit text index first =
      if isTransparent .bounded text then some (if isOpener text then index else first)
      else none := by
  unfold boundedVisit isTransparent
  cases hdoc : isDocLine text with
  | true => simp [hdoc]
  | false =>
      -- an opener would be a doc line
      have hopener : isOpener text = false := by
        simp only [isDocLine, Bool.or_eq_false_iff] at hdoc
        exact hdoc.1.1
      simp [hdoc, hopener]

/-- One step of the bounded walk. -/
theorem boundedFrom_of_line {lines : List String} {declaration distance index : UInt64}
    {line : String} (left : Nat) (first : UInt64) (hle : distance.toNat ≤ declaration.toNat)
    (hindex : minus declaration distance = .ok index)
    (hline : lines[index.toNat]? = some line) :
    boundedFrom lines declaration (left + 1) distance first =
      match boundedVisit (Text.trim line.toList) index first with
      | none => .ok first
      | some first =>
        if left = 0 then .ok first
        else plusOne distance >>= fun distance =>
          boundedFrom lines declaration left distance first := by
  have hnot : ¬ declaration < distance := by
    rw [UInt64.lt_iff_toNat_lt]
    omega
  rw [boundedFrom, if_neg hnot, hindex]
  show (lineAt lines index >>= _) = _
  rw [lineAt_eq_ok hline]
  rfl

/-- Past a transparent line the bounded walk goes on with that line instead of the one settled on so
far if it is an opener. -/
theorem elim_furthestOpener_cons {text : List Char} (h : isTransparent .bounded text = true)
    (above : List (List Char)) (first below : Nat) :
    (furthestOpener (isTransparent .bounded) (text :: above)).elim first
        (fun steps => below + 1 - (steps + 1)) =
      (furthestOpener (isTransparent .bounded) above).elim
        (if isOpener text then below else first) fun steps => below - (steps + 1) := by
  rw [furthestOpener, if_pos h]
  cases furthestOpener (isTransparent .bounded) above with
  | none => cases isOpener text <;> simp
  | some steps => simp

/-- Any other line ends the bounded walk. -/
theorem furthestOpener_cons_of_not_transparent {text : List Char}
    (h : isTransparent .bounded text = false) (above : List (List Char)) :
    furthestOpener (isTransparent .bounded) (text :: above) = none := by
  have hopener : isOpener text = false := by
    simp only [isTransparent, isDocLine, Bool.or_eq_false_iff] at h
    exact h.2.1.1
  rw [furthestOpener, h, hopener]
  rfl

/-- Wherever it stands the bounded walk settles on the furthest opener that it reaches, and stays
with the line settled on if it reaches none. -/
theorem exists_boundedFrom {lines : List String} {declaration : UInt64} {left : Nat} :
    ∀ (below : Nat) (distance first : UInt64), below ≤ lines.length →
      distance.toNat + below = declaration.toNat + 1 → distance.toNat + left ≤ UInt64.size →
      ∃ reached, boundedFrom lines declaration left distance first = .ok reached ∧
        reached.toNat = (furthestOpener (isTransparent .bounded)
          (linesAbove lines below left)).elim first.toNat fun steps => below - (steps + 1) := by
  -- the distance and the lines above it make up the declaration all along, and the distance can
  -- still be counted up to the last line within the depth
  induction left with
  | zero =>
      intro below distance first _ _ _
      refine ⟨first, rfl, ?_⟩
      rw [linesAbove_of_depth_zero]
      rfl
  | succ left ih =>
      intro below distance first hbelow hdistance hroom
      cases below with
      | zero =>
          -- no line is left above
          have hlt : declaration < distance := by
            rw [UInt64.lt_iff_toNat_lt]
            omega
          refine ⟨first, by rw [boundedFrom, if_pos hlt], ?_⟩
          rw [linesAbove_zero]
          rfl
      | succ below =>
          obtain ⟨index, hindex, hnat⟩ := exists_minus declaration distance (by omega)
          obtain ⟨line, hline⟩ : ∃ line, lines[below]? = some line :=
            ⟨_, List.getElem?_eq_getElem hbelow⟩
          have hat : index.toNat = below := by omega
          have hstep := boundedFrom_of_line left first (by omega) hindex (hat ▸ hline)
          rw [boundedVisit_eq] at hstep
          rw [linesAbove_succ hline, hstep]
          cases ht : isTransparent .bounded (Text.trim line.toList) with
          | false =>
              refine ⟨first, by simp, ?_⟩
              rw [furthestOpener_cons_of_not_transparent ht]
              rfl
          | true =>
              obtain ⟨settled, hsettled⟩ : ∃ settled, settled =
                  if isOpener (Text.trim line.toList) then index else first := ⟨_, rfl⟩
              have hnat' : settled.toNat =
                  if isOpener (Text.trim line.toList) then below else first.toNat := by
                rw [hsettled, ← hat]
                split <;> rfl
              rw [elim_furthestOpener_cons ht, ← hsettled, ← hnat']
              cases left with
              | zero =>
                  refine ⟨settled, by simp, ?_⟩
                  rw [linesAbove_of_depth_zero]
                  rfl
              | succ left =>
                  obtain ⟨further, hfurther, hone⟩ := exists_plusOne distance (by omega)
                  obtain ⟨reached, hreached, heq⟩ :=
                    ih below further settled (by omega) (by omega) (by omega)
                  refine ⟨reached, ?_, heq⟩
                  rw [hfurther]
                  exact hreached

/-! ## The doc block walk -/

/-- One step of the doc block walk. -/
theorem docBlockFrom_of_line {lines : List String} {declaration below index : UInt64} {left : Nat}
    {line : String} (hindex : minus below 1 = .ok index) (hline : lines[index.toNat]? = some line) :
    docBlockFrom lines declaration (left + 1) below =
      if isOpener (Text.trim line.toList) then .ok index
      else if isTransparent .docBlock (Text.trim line.toList) then
        docBlockFrom lines declaration left index
      else .ok declaration := by
  rw [docBlockFrom, hindex]
  show (lineAt lines index >>= _) = _
  rw [lineAt_eq_ok hline]
  rfl

/-- Wherever it stands the doc block walk settles on the nearest opener that it reaches, and gives
the declaration if it reaches none. -/
theorem exists_docBlockFrom {lines : List String} {declaration : UInt64} {left : Nat} :
    ∀ below : UInt64, below.toNat ≤ lines.length → left ≤ below.toNat →
      ∃ reached, docBlockFrom lines declaration left below = .ok reached ∧
        reached.toNat = (nearestOpener (isTransparent .docBlock)
          (linesAbove lines below.toNat left)).elim declaration.toNat
            fun steps => below.toNat - (steps + 1) := by
  induction left with
  | zero =>
      intro below _ _
      refine ⟨declaration, rfl, ?_⟩
      rw [linesAbove_of_depth_zero]
      rfl
  | succ left ih =>
      intro below hbelow hleft
      obtain ⟨index, hindex, hnat⟩ := exists_minus below 1
        (Nat.le_trans (Nat.succ_le_succ (Nat.zero_le left)) hleft)
      have hat : below.toNat = index.toNat + 1 := by
        have hone : (1 : UInt64).toNat = 1 := rfl
        omega
      obtain ⟨line, hline⟩ : ∃ line, lines[index.toNat]? = some line :=
        ⟨_, List.getElem?_eq_getElem (by omega)⟩
      rw [docBlockFrom_of_line hindex hline, hat, linesAbove_succ hline, nearestOpener]
      cases isOpener (Text.trim line.toList) with
      | true => exact ⟨index, rfl, by simp⟩
      | false =>
          cases isTransparent .docBlock (Text.trim line.toList) with
          | false => exact ⟨declaration, rfl, rfl⟩
          | true =>
              obtain ⟨reached, hreached, heq⟩ := ih index (by omega) (by omega)
              refine ⟨reached, hreached, ?_⟩
              rw [heq]
              cases nearestOpener (isTransparent .docBlock) (linesAbove lines index.toNat left) <;>
                simp

/-! ## The start of a method -/

/-- Lines further up than a document goes add nothing to a walk. -/
theorem linesAbove_min (lines : List String) (declaration depth : Nat) :
    linesAbove lines declaration (min depth declaration) = linesAbove lines declaration depth := by
  have hlength : (lines.take declaration).reverse.length ≤ declaration := by
    rw [List.length_reverse, List.length_take]
    exact Nat.min_le_left _ _
  rw [linesAbove, linesAbove, ← List.take_take, List.take_of_length_le hlength]

/-- Down to its floor the doc block walk reads as many lines as the depth allows. -/
theorem exists_minus_floorOf (declaration depth : UInt64) :
    ∃ left, minus declaration (floorOf declaration depth) = .ok left ∧
      left.toNat = min depth.toNat declaration.toNat := by
  by_cases hle : depth ≤ declaration
  · have hfloor : (floorOf declaration depth).toNat = declaration.toNat - depth.toNat := by
      rw [floorOf, if_pos hle, UInt64.toNat_sub_of_le _ _ hle]
    obtain ⟨left, hleft, hnat⟩ := exists_minus declaration (floorOf declaration depth)
      (by rw [hfloor]; exact Nat.sub_le _ _)
    rw [UInt64.le_iff_toNat_le] at hle
    exact ⟨left, hleft, by omega⟩
  · have hfloor : floorOf declaration depth = 0 := if_neg hle
    obtain ⟨left, hleft, hnat⟩ := exists_minus declaration 0 (Nat.zero_le _)
    rw [UInt64.le_iff_toNat_le] at hle
    rw [hfloor]
    refine ⟨left, hleft, ?_⟩
    rw [hnat, Nat.min_eq_right (by omega)]
    rfl

/-- A walk in machine words meets no fault, and ends where the method starts. -/
theorem exists_walk (strategy : Lookback) {lines : List String} {declaration : UInt64}
    (h : declaration.toNat ≤ lines.length) (depth : UInt64) :
    ∃ first, strategy.walk lines declaration depth = .ok first ∧
      first.toNat = strategy.start depth.toNat lines declaration.toNat := by
  rw [start_eq_elim]
  cases strategy with
  | bounded =>
      have hroom : (1 : UInt64).toNat + depth.toNat ≤ UInt64.size := by
        have hdepth := depth.toNat_lt_size
        have hone : (1 : UInt64).toNat = 1 := rfl
        omega
      exact exists_boundedFrom _ _ _ h (Nat.add_comm _ _) hroom
  | docBlock =>
      obtain ⟨left, hleft, hnat⟩ := exists_minus_floorOf declaration depth
      rw [walk, hleft, ← linesAbove_min, ← hnat]
      exact exists_docBlockFrom _ h (hnat ▸ Nat.min_le_right _ _)

end Excision.Lookback
