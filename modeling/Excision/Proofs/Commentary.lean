import Excision.Proofs.Blanks
import Excision.Proofs.Outline
import Excision.Proofs.Removal
import Excision.Settings

/-!
# Comments above a declaration

The lines from the start of a method down to its declaration go with the method, so they should
hold no code. Here a line is read for comments: a block comment runs from `/*` through the next
`*/`, over lines if need be, and a line comment from `//` to the end of its line. What stands
outside of both is the code of the line (`Commentary.code`). Lines are commentary if their code is
blank, save for annotations that the strategy steps over (`Commentary.IsCommentary`).

The walks look at the beginnings of trimmed lines only. So a walk never takes a line that begins
like code, but it may take code that stands behind a comment. `Search.isCommentary_iff` says exactly
when the lines above a found declaration are commentary: every line that begins with an asterisk
stands inside of a block comment, and nothing but comments follows on a line on which a block
comment ends. `Search.not_isCommentary_behind_closer` is a method for which they are not.
-/

set_option autoImplicit false

namespace Excision

namespace Commentary

open Lookback

/-! ## Reading a line for comments -/

/-- The characters of a line outside of comments, and whether a block comment is open after the
line, for a line before which one is open (`inside`) or not. -/
def strip : Bool → List Char → List Char × Bool
  | inside, [] => ([], inside)
  | true, '*' :: '/' :: cs => strip false cs
  | true, _ :: cs => strip true cs
  | false, '/' :: '/' :: _ => ([], false)
  | false, '/' :: '*' :: cs => strip true cs
  | false, c :: cs => (c :: (strip false cs).1, (strip false cs).2)

/-- The characters of a line outside of comments. -/
def code (inside : Bool) (cs : List Char) : List Char := (strip inside cs).1

/-- Whether a block comment is open after a line. -/
def isOpenAfter (inside : Bool) (cs : List Char) : Bool := (strip inside cs).2

/-- Whether a block comment that opens on line `first` or below is open where line `index`
begins. -/
def isOpenAt (lines : List String) (first index : Nat) : Bool :=
  ((lines.take index).drop first).foldl (fun inside line => isOpenAfter inside line.toList) false

/-- Whether a strategy takes a line for an annotation. -/
def isAnnotationLine (strategy : Lookback) (line : String) : Bool :=
  strategy == .bounded && isAnnotation (Text.trim line.toList)

/-- Whether the lines from `first` up to, but not including, `last` hold nothing but blank
characters, comments and annotation lines. -/
def IsCommentary (strategy : Lookback) (lines : List String) (first last : Nat) : Prop :=
  ∀ index line, first ≤ index → index < last → lines[index]? = some line →
    isAnnotationLine strategy line = true ∨
      ∀ c ∈ code (isOpenAt lines first index) line.toList, Text.isBlank c = true

instance (strategy : Lookback) (lines : List String) (first last : Nat) :
    Decidable (IsCommentary strategy lines first last) :=
  decidable_of_iff ((List.range last).all (fun index => index < first ||
      lines[index]?.all fun line => isAnnotationLine strategy line ||
        (code (isOpenAt lines first index) line.toList).all Text.isBlank) = true) <| by
    simp only [IsCommentary, List.all_eq_true, List.mem_range, Bool.or_eq_true, decide_eq_true_eq,
      Option.all_eq_true]
    constructor
    · intro h index line hfirst hlast hline
      exact (h index hlast).resolve_left (Nat.not_lt_of_le hfirst) line hline
    · intro h index hlast
      rcases Nat.lt_or_ge index first with habove | hfirst
      · exact Or.inl habove
      · exact Or.inr fun line hline => h index line hfirst hlast hline

/-! ## Laws of reading -/

/-- A closing mark of an open block comment cuts the reading of a line in two. -/
theorem strip_append_closer {inside : Bool} {u : List Char} (h : isOpenAfter inside u = true)
    (v : List Char) :
    strip inside (u ++ '*' :: '/' :: v) = (code inside u ++ code false v, isOpenAfter false v) := by
  unfold isOpenAfter code at *
  induction inside, u using strip.induct with
  | case1 inside =>
      obtain rfl : inside = true := h
      exact strip.eq_2 v
  | case2 cs ih =>
      rw [strip.eq_2] at h
      rw [strip.eq_2, List.cons_append, List.cons_append, strip.eq_2, ih h]
  | case3 c cs hcloser ih =>
      rw [strip.eq_3 c cs hcloser] at h
      rw [strip.eq_3 c cs hcloser, List.cons_append, strip.eq_3, ih h]
      -- a closing mark cannot begin with `c`, as `cs` would have to begin with its slash
      intro rest hc hrest
      cases cs with
      | nil => simp at hrest
      | cons d cs => exact hcloser cs hc (by rw [(List.cons.inj hrest).1])
  | case4 cs =>
      rw [strip.eq_4] at h
      exact Bool.noConfusion h
  | case5 cs ih =>
      rw [strip.eq_5] at h
      rw [strip.eq_5, List.cons_append, List.cons_append, strip.eq_5, ih h]
  | case6 c cs hline hblock ih =>
      rw [strip.eq_6 c cs hline hblock] at h
      rw [strip.eq_6 c cs hline hblock, List.cons_append, strip.eq_6, ih h, List.cons_append]
      · intro rest hc hrest
        cases cs with
        | nil => simp at hrest
        | cons d cs => exact hline cs hc (by rw [(List.cons.inj hrest).1])
      · -- with no further character no block comment would be open
        intro rest hc hrest
        cases cs with
        | nil => exact Bool.noConfusion h
        | cons d cs => exact hblock cs hc (by rw [(List.cons.inj hrest).1])

/-- In an open block comment there is no code, or all of it stands behind the next closing mark. -/
theorem code_true_cases (cs : List Char) :
    code true cs = [] ∨ ∃ u v, cs = u ++ '*' :: '/' :: v ∧ isOpenAfter true u = true ∧
      code true cs = code false v := by
  induction cs with
  | nil => exact Or.inl rfl
  | cons c cs ih =>
      by_cases hcloser : ∃ rest, c = '*' ∧ cs = '/' :: rest
      · obtain ⟨rest, rfl, rfl⟩ := hcloser
        exact Or.inr ⟨[], rest, rfl, rfl, by rw [code, strip.eq_2, code]⟩
      · have hskip : ∀ rest, c = '*' → cs = '/' :: rest → False :=
          fun rest hc hrest => hcloser ⟨rest, hc, hrest⟩
        have hcode : code true (c :: cs) = code true cs := by rw [code, strip.eq_3 c cs hskip, code]
        rw [hcode]
        refine ih.imp id ?_
        rintro ⟨u, v, rfl, hopen, hv⟩
        refine ⟨c :: u, v, rfl, ?_, hv⟩
        rw [isOpenAfter, strip.eq_3]
        · exact hopen
        · rintro rest hc rfl
          exact hskip _ hc rfl

/-- Blank characters are read as they are. -/
theorem strip_false_append {before : List Char} (h : ∀ c ∈ before, Text.isBlank c = true)
    (cs : List Char) :
    strip false (before ++ cs) = (before ++ code false cs, isOpenAfter false cs) := by
  induction before with
  | nil => rfl
  | cons c before ih =>
      rw [List.forall_mem_cons] at h
      have hc : c ≠ '/' := by
        rintro rfl
        exact absurd h.1 (by decide)
      rw [List.cons_append, strip.eq_6 _ _ (fun _ hslash => absurd hslash hc)
        (fun _ hslash => absurd hslash hc), ih h.2, List.cons_append]

/-! ## Lines of a walk -/

/-- Whether comments only follow wherever a block comment ends on a line. -/
def ClosersAreLast (inside : Bool) (line : List Char) : Prop :=
  ∀ u v, line = u ++ '*' :: '/' :: v → isOpenAfter inside u = true →
    ∀ c ∈ code false v, Text.isBlank c = true

/-- A line on which block comments end has blank code in front of the ends and behind them. -/
theorem closersAreLast_of_blank {inside : Bool} {line : List Char}
    (h : ∀ c ∈ code inside line, Text.isBlank c = true) : ClosersAreLast inside line := by
  rintro u v rfl hopen c hc
  refine h c ?_
  rw [code, strip_append_closer hopen]
  exact List.mem_append_right _ hc

/-- Where a block comment is open the code of a line stands behind the ends of comments. -/
theorem blank_of_open {line : List Char} (h : ClosersAreLast true line) :
    ∀ c ∈ code true line, Text.isBlank c = true := by
  rcases code_true_cases line with hnone | ⟨u, v, hline, hopen, hcode⟩
  · rw [hnone]
    exact List.forall_mem_nil _
  · rw [hcode]
    exact h u v hline hopen

theorem isOpener_iff (text : List Char) :
    isOpener text = true ↔ ∃ rest, text = '/' :: '*' :: '*' :: rest := by
  unfold isOpener
  split
  · simp
  · next h => simp only [Bool.false_eq_true, false_iff, not_exists]; exact h

theorem startsWithStar_iff (text : List Char) :
    startsWithStar text = true ↔ ∃ rest, text = '*' :: rest := by
  unfold startsWithStar
  split
  · simp
  · next h => simp only [Bool.false_eq_true, false_iff, not_exists]; exact h

theorem isLineComment_iff (text : List Char) :
    isLineComment text = true ↔ ∃ rest, text = '/' :: '/' :: rest := by
  unfold isLineComment
  split
  · simp
  · next h => simp only [Bool.false_eq_true, false_iff, not_exists]; exact h

/-- What the walks step over. -/
theorem transparent_cases {strategy : Lookback} {text : List Char}
    (h : isTransparent strategy text = true) :
    text = [] ∨ startsWithStar text = true ∨ isLineComment text = true ∨ isOpener text = true ∨
      strategy = .bounded ∧ isAnnotation text = true := by
  cases strategy with
  | bounded =>
      simp only [isTransparent, isDocLine, Bool.or_eq_true, List.isEmpty_iff, beq_iff_eq,
        Bool.and_eq_true] at h
      rcases h with (hempty | hmark) | (hopener | rfl) | ⟨hstar, -⟩
      · exact Or.inl hempty
      · exact Or.inr (Or.inr (Or.inr (Or.inr ⟨rfl, hmark⟩)))
      · exact Or.inr (Or.inr (Or.inr (Or.inl hopener)))
      · exact Or.inr (Or.inl rfl)
      · exact Or.inr (Or.inl hstar)
  | docBlock =>
      simp only [isTransparent, Bool.or_eq_true, List.isEmpty_iff] at h
      rcases h with (hempty | hstar) | hcomment
      · exact Or.inl hempty
      · exact Or.inr (Or.inl hstar)
      · exact Or.inr (Or.inr (Or.inl hcomment))

/-- A line that begins with an asterisk holds code if no block comment is open. -/
theorem open_of_blank {inside : Bool} {line : List Char}
    (hstar : startsWithStar (Text.trim line) = true)
    (h : ∀ c ∈ code inside line, Text.isBlank c = true) : inside = true := by
  cases inside with
  | true => rfl
  | false =>
      obtain ⟨before, after, hline, hbefore, -⟩ := Text.exists_eq_append_trim line
      obtain ⟨rest, hrest⟩ := (startsWithStar_iff _).1 hstar
      have hmem : '*' ∈ code false line := by
        rw [hline, hrest, List.append_assoc, code, strip_false_append hbefore, List.cons_append,
          code, strip.eq_6 _ _ (by simp) (by simp)]
        exact List.mem_append_right _ List.mem_cons_self
      exact absurd (h _ hmem) (by decide)

/-- Where no block comment is open, a line of a walk that does not begin with an asterisk holds code
only behind the ends of comments. -/
theorem blank_of_not_open {strategy : Lookback} {line : List Char}
    (hshape : isOpener (Text.trim line) = true ∨ isTransparent strategy (Text.trim line) = true)
    (hplain : ¬ (strategy = .bounded ∧ isAnnotation (Text.trim line) = true))
    (hstar : ¬ startsWithStar (Text.trim line) = true) (hlast : ClosersAreLast false line) :
    ∀ c ∈ code false line, Text.isBlank c = true := by
  obtain ⟨before, after, hline, hbefore, hafter⟩ := Text.exists_eq_append_trim line
  rw [List.append_assoc] at hline
  have hcode : code false line = before ++ code false (Text.trim line ++ after) := by
    rw [hline, code, strip_false_append hbefore, ← hline]
  have hcases : Text.trim line = [] ∨ isLineComment (Text.trim line) = true ∨
      isOpener (Text.trim line) = true := by
    rcases hshape with hopener | htransparent
    · exact Or.inr (Or.inr hopener)
    · rcases transparent_cases htransparent with hempty | hs | hcomment | hopener | hmark
      · exact Or.inl hempty
      · exact absurd hs hstar
      · exact Or.inr (Or.inl hcomment)
      · exact Or.inr (Or.inr hopener)
      · exact absurd hmark hplain
  rw [hcode, List.forall_mem_append]
  refine ⟨hbefore, ?_⟩
  rcases hcases with hempty | hcomment | hopener
  · -- a blank line
    have hread := strip_false_append hafter []
    rw [List.append_nil] at hread
    rw [hempty, List.nil_append, code, hread]
    exact List.forall_mem_append.2 ⟨hafter, List.forall_mem_nil _⟩
  · -- a line comment
    obtain ⟨rest, hrest⟩ := (isLineComment_iff _).1 hcomment
    rw [hrest, List.cons_append, List.cons_append, code, strip.eq_4]
    exact List.forall_mem_nil _
  · -- an opener: what follows on the line is read in an open comment
    obtain ⟨rest, hrest⟩ := (isOpener_iff _).1 hopener
    rw [hrest] at hline ⊢
    have hopened : code false ('/' :: '*' :: '*' :: rest ++ after) =
        code true ('*' :: rest ++ after) := congrArg Prod.fst (strip.eq_5 _)
    rw [hopened]
    refine blank_of_open fun u v huv hopen => hlast (before ++ '/' :: '*' :: u) v ?_ ?_
    · rw [hline, List.append_assoc]
      exact congrArg (fun cs => before ++ '/' :: '*' :: cs) huv
    · rw [isOpenAfter, strip_false_append hbefore, isOpenAfter, strip.eq_5]
      exact hopen

/-- The code of a line of a walk is blank exactly if the line does not begin with an asterisk
outside of block comments and comments only follow where a block comment ends. -/
theorem blank_code_iff {strategy : Lookback} {inside : Bool} {line : List Char}
    (hshape : isOpener (Text.trim line) = true ∨ isTransparent strategy (Text.trim line) = true)
    (hplain : ¬ (strategy = .bounded ∧ isAnnotation (Text.trim line) = true)) :
    (∀ c ∈ code inside line, Text.isBlank c = true) ↔
      (startsWithStar (Text.trim line) = true → inside = true) ∧ ClosersAreLast inside line := by
  constructor
  · exact fun h => ⟨fun hstar => open_of_blank hstar h, closersAreLast_of_blank h⟩
  · rintro ⟨hstar, hlast⟩
    cases inside with
    | true => exact blank_of_open hlast
    | false => exact blank_of_not_open hshape hplain (fun h => Bool.noConfusion (hstar h)) hlast

end Commentary

/-! ## Extents -/

namespace Search

open Lookback Commentary

variable {search : Search} {lines : List String} {name : String} {e : Extent}

/-- The lines taken above a declaration begin like comments, blank lines or annotations, and the
topmost of them opens a doc comment. -/
theorem shape_of_taken (h : search.find lines name = .ok e) {index : Nat} {line : String}
    (hfirst : e.first ≤ index) (hindex : index < e.declaration)
    (hline : lines[index]? = some line) :
    (index = e.first → isOpener (Text.trim line.toList) = true) ∧
      (isOpener (Text.trim line.toList) = true ∨
        isTransparent search.lookback (Text.trim line.toList) = true) := by
  obtain ⟨-, hstart, -⟩ := (find_eq_ok_iff e).1 h
  obtain ⟨hdeclares, -, -, -⟩ := bounds_of_find h
  have hlt : e.first < e.declaration := Nat.lt_of_le_of_lt hfirst hindex
  have hopener := (start_eq_iff_of_lt hlt).1 hstart.symm
  have hreach := reaches_of_opener? hopener
  have htext : (linesAbove lines e.declaration search.depth)[e.declaration - 1 - index]? =
      some (Text.trim line.toList) := by
    have hk := hreach.lt_length
    rw [getElem?_linesAbove (by omega) (Nat.le_of_lt hdeclares.lt_length),
      show e.declaration - 1 - (e.declaration - 1 - index) = index by omega, hline, Option.map_some]
  obtain ⟨hat, hclear⟩ := hreach
  rcases Nat.eq_or_lt_of_le hfirst with rfl | habove
  · -- the topmost line is the one that the walk settles on
    rw [show e.declaration - e.first - 1 = e.declaration - 1 - e.first by omega, htext,
      Option.any_some] at hat
    exact ⟨fun _ => hat, Or.inl hat⟩
  · refine ⟨fun heq => absurd heq (Nat.ne_of_gt habove), Or.inr (hclear _ ?_)⟩
    refine List.mem_of_getElem? (i := e.declaration - 1 - index) ?_
    rw [List.getElem?_take, if_pos (by omega), htext]

/-- **When the lines above a declaration are commentary.** The lines that a found method takes above
its declaration begin like comments, blank lines or annotations, the topmost one like a doc comment.
They hold no code exactly if, annotations apart, each line that begins with an asterisk stands
inside of a block comment, and comments only follow on a line on which a block comment ends. -/
theorem isCommentary_iff (search : Search) (lines : List String) (name : String) (e : Extent)
    (h : search.find lines name = .ok e) :
    (∀ index line, e.first ≤ index → index < e.declaration → lines[index]? = some line →
        (index = e.first → isOpener (Text.trim line.toList) = true) ∧
          (isOpener (Text.trim line.toList) = true ∨
            isTransparent search.lookback (Text.trim line.toList) = true)) ∧
      (IsCommentary search.lookback lines e.first e.declaration ↔
        ∀ index line, e.first ≤ index → index < e.declaration → lines[index]? = some line →
          isAnnotationLine search.lookback line = false →
            (startsWithStar (Text.trim line.toList) = true → isOpenAt lines e.first index = true) ∧
              ClosersAreLast (isOpenAt lines e.first index) line.toList) := by
  refine ⟨fun index line hfirst hindex hline => shape_of_taken h hfirst hindex hline, ?_⟩
  refine forall₂_congr fun index line => forall₃_congr fun hfirst hindex hline => ?_
  have hshape := (shape_of_taken h hfirst hindex hline).2
  cases hmark : isAnnotationLine search.lookback line with
  | true => simp only [true_or, Bool.true_eq_false, false_imp_iff]
  | false =>
      have hplain : ¬ (search.lookback = .bounded ∧
          isAnnotation (Text.trim line.toList) = true) := by
        rintro ⟨hbounded, hannotation⟩
        rw [isAnnotationLine, hbounded, hannotation] at hmark
        exact Bool.noConfusion hmark
      rw [blank_code_iff hshape hplain]
      simp only [Bool.false_eq_true, false_or, true_imp_iff]

/-- Of a doc comment on one line with a line comment behind it nothing is code. -/
theorem isCommentary_iff_on_doc_line :
    let search : Search := ⟨["private"], .bounded, 3, .standard⟩
    let lines :=
      ["total();\n", "/** Adds up. */ // sums\n", "@deprecated\n", "private f() \x7b\x7d\n"]
    search.find lines "f" = .ok ⟨1, 3, 3⟩ ∧ IsCommentary .bounded lines 1 3 ∧
      ClosersAreLast (isOpenAt lines 1 1) "/** Adds up. */ // sums\n".toList := by
  intro search lines
  have hfind : search.find lines "f" = .ok ⟨1, 3, 3⟩ := by decide +kernel
  have hcommentary : IsCommentary .bounded lines 1 3 := by decide +kernel
  obtain ⟨-, hiff⟩ := isCommentary_iff search lines "f" _ hfind
  refine ⟨hfind, hcommentary, ?_⟩
  exact (hiff.1 hcommentary 1 _ (by decide) (by decide) rfl (by decide +kernel)).2

/-- A document in which a call stands behind the end of the doc comment of `f`. -/
def callBehindDoc : List String :=
  ["  /** Adds up.\n", "   */ total();\n", "  private f() \x7b\n", "  \x7d\n"]

/-- The call goes with the method. -/
theorem not_isCommentary_behind_closer :
    ¬ ∀ (settings : Settings) (lines : List String) (name : String) (e : Extent),
      settings.check = .ok () → settings.cutter.search.find lines name = .ok e →
        IsCommentary settings.lookback lines e.first e.declaration := by
  intro h
  have hfind : Settings.builtin.cutter.search.find callBehindDoc "f" = .ok ⟨0, 2, 3⟩ := by
    decide +kernel
  have hcommentary := h .builtin callBehindDoc "f" _ rfl hfind
  revert hcommentary
  decide +kernel

end Search

end Excision
