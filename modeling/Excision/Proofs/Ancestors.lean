import Excision.ProjectFile.Lookup
import Mathlib.Data.List.DropRight
import Mathlib.Data.List.Infix

/-!
# Paths and the paths above them

The path above a path is its text without the last piece that counts, so it is a shorter text
(`Path.exists_text_eq_append`). A walk upwards therefore ends by itself, and the bound on its steps
says nothing (`Path.ancestors_eq`).

Of a path from the root without `.` and `..`, the names tell what stands above it. Each step upwards
takes off the last name, and the walk ends at the root: the names of the paths above are all
beginnings of its names, the longest first (`Path.IsStraight.map_names_ancestors`). Slashes that
stand twice, or at the end, make no difference to the names.
-/

set_option autoImplicit false

namespace Excision

namespace Text

variable {separator : Char}

/-- The pieces before and after a separator are those of the texts on its two sides. -/
theorem cutAt_append_cons (piece text rest : List Char) :
    cutAt separator piece (text ++ separator :: rest) =
      cutAt separator piece text ++ cutAt separator [] rest := by
  induction text generalizing piece with
  | nil => simp [cutAt]
  | cons c text ih =>
      rw [List.cons_append, cutAt, cutAt]
      split
      · rw [ih, List.cons_append]
      · exact ih _

theorem cutAt_of_not_mem {text : List Char} (piece : List Char) (h : separator ∉ text) :
    cutAt separator piece text = [piece.reverse ++ text] := by
  induction text generalizing piece with
  | nil => simp [cutAt]
  | cons c text ih =>
      rw [List.mem_cons, not_or] at h
      obtain ⟨hc, htext⟩ := h
      rw [cutAt, if_neg (Ne.symm hc), ih _ htext]
      simp

theorem not_mem_of_mem_cutAt {piece text found : List Char} (hpiece : separator ∉ piece)
    (h : found ∈ cutAt separator piece text) : separator ∉ found := by
  induction text generalizing piece with
  | nil =>
      obtain rfl := List.mem_singleton.1 h
      rwa [List.mem_reverse]
  | cons c text ih =>
      rw [cutAt] at h
      split at h
      · rcases List.mem_cons.1 h with rfl | h
        · rwa [List.mem_reverse]
        · exact ih List.not_mem_nil h
      · next hc =>
        refine ih ?_ h
        rw [List.mem_cons, not_or]
        exact ⟨Ne.symm hc, hpiece⟩

end Text

namespace Path

/-! ## Texts and pieces of paths -/

theorem pieces_append_slash (text rest : String) :
    pieces ⟨text ++ "/" ++ rest⟩ = pieces ⟨text⟩ ++ pieces ⟨rest⟩ := by
  have hslash : "/".toList = ['/'] := rfl
  simp only [pieces, Text.pieces, String.toList_append, hslash, List.append_assoc,
    List.singleton_append, Text.cutAt_append_cons, List.map_append]

/-- No piece of a path has a slash. -/
theorem slash_not_mem {p : Path} {piece : String} (h : piece ∈ p.pieces) :
    '/' ∉ piece.toList := by
  obtain ⟨found, hfound, rfl⟩ := List.mem_map.1 h
  rw [String.toList_ofList]
  exact Text.not_mem_of_mem_cutAt List.not_mem_nil hfound

theorem pieces_of_slash_not_mem {text : String} (h : '/' ∉ text.toList) :
    pieces ⟨text⟩ = [text] := by
  rw [pieces, Text.pieces, Text.cutAt_of_not_mem [] h]
  simp

/-- Pieces joined by slashes are cut apart again. -/
theorem pieces_intercalate {pieces' : List String} (hne : pieces' ≠ [])
    (h : ∀ piece ∈ pieces', '/' ∉ piece.toList) : pieces ⟨"/".intercalate pieces'⟩ = pieces' := by
  induction pieces' with
  | nil => exact absurd rfl hne
  | cons piece others ih =>
      obtain ⟨hpiece, hothers⟩ := List.forall_mem_cons.1 h
      cases others with
      | nil => rw [String.intercalate_singleton, pieces_of_slash_not_mem hpiece]
      | cons next others =>
          rw [String.intercalate_cons_of_ne_nil (List.cons_ne_nil _ _), pieces_append_slash,
            pieces_of_slash_not_mem hpiece, ih (List.cons_ne_nil _ _) hothers,
            List.singleton_append]

theorem pieces_ne_nil (p : Path) : p.pieces ≠ [] :=
  mt List.map_eq_nil_iff.1 (Text.cutAt_ne_nil _ _ _)

/-- The pieces of a path joined by slashes are its text. -/
theorem intercalate_pieces (p : Path) : "/".intercalate p.pieces = p.text := by
  have hslash : "/".toList = ['/'] := rfl
  rw [← String.toList_inj, String.toList_intercalate, hslash, pieces, Text.pieces, List.map_map]
  have hid : String.toList ∘ String.ofList = id := funext fun _ => String.toList_ofList
  rw [hid, List.map_id, Text.intercalate_cutAt, List.reverse_nil, List.nil_append]

/-- An absolute path has an empty piece before its first slash. -/
theorem pieces_of_isAbsolute {p : Path} (h : p.isAbsolute = true) :
    ∃ others, others ≠ [] ∧ p.pieces = "" :: others := by
  obtain ⟨rest, hrest⟩ : ∃ rest, p.text.toList = '/' :: rest := by
    rw [isAbsolute, beq_iff_eq] at h
    exact List.head?_eq_some_iff.1 h
  have htext : p = ⟨"" ++ "/" ++ String.ofList rest⟩ := by
    refine congrArg Path.mk (String.toList_inj.1 ?_)
    rw [hrest]
    simp
  refine ⟨pieces ⟨String.ofList rest⟩, pieces_ne_nil _, ?_⟩
  rw [htext, pieces_append_slash]
  rfl

/-- Without an empty piece a path does not start at the root. -/
theorem isAbsolute_of_not_mem {p : Path} (h : "" ∉ p.pieces) : p.isAbsolute = false := by
  by_contra habsolute
  obtain ⟨others, -, hpieces⟩ := pieces_of_isAbsolute (Bool.not_eq_false _ ▸ habsolute)
  rw [hpieces] at h
  exact h List.mem_cons_self

/-- Without an empty piece a path does not end with a slash. -/
theorem hasTrailingSlash_of_not_mem {p : Path} (h : "" ∉ p.pieces) :
    p.hasTrailingSlash = false := by
  by_contra hslash
  rw [Bool.not_eq_false, hasTrailingSlash, beq_iff_eq] at hslash
  obtain ⟨front, hfront⟩ := List.getLast?_eq_some_iff.1 hslash
  have htext : p = ⟨String.ofList front ++ "/" ++ ""⟩ := by
    refine congrArg Path.mk (String.toList_inj.1 ?_)
    rw [hfront]
    simp
  rw [htext, pieces_append_slash] at h
  exact h (List.mem_append_right _ (List.mem_singleton.2 rfl))

theorem names_of_not_mem {p : Path} (h : "" ∉ p.pieces) : p.names = p.pieces :=
  List.filter_eq_self.2 fun _ hpiece => decide_eq_true fun hempty => h (hempty ▸ hpiece)

/-- A walk along a path without an empty piece goes from piece to piece. -/
theorem steps_of_not_mem {p : Path} (h : "" ∉ p.pieces) : p.steps = p.pieces := by
  rw [steps, hasTrailingSlash_of_not_mem h, if_neg Bool.false_ne_true, names_of_not_mem h]

/-- A path is its root with its body behind. -/
theorem text_eq_root_append (p : Path) : p.text = p.root ++ "/".intercalate p.body := by
  by_cases habsolute : p.isAbsolute = true
  · obtain ⟨others, hne, hpieces⟩ := pieces_of_isAbsolute habsolute
    have hroot : p.root = "/" := if_pos habsolute
    have hbody : p.body = others := by
      rw [body, if_pos habsolute, hpieces, List.drop_one, List.tail_cons]
    rw [hroot, hbody, ← intercalate_pieces, hpieces, String.intercalate_cons_of_ne_nil hne,
      String.empty_append]
  · by_cases hdot : p.pieces.head? = some "."
    · obtain ⟨others, hpieces⟩ := List.head?_eq_some_iff.1 hdot
      have hroot : p.root = "." := by
        rw [root, if_neg habsolute, hdot]
        rfl
      have hbody : p.body = "" :: others := by
        rw [body, if_neg habsolute, if_pos hroot, hpieces, List.drop_one, List.tail_cons]
      rw [hroot, hbody, ← intercalate_pieces, hpieces]
      cases others with
      | nil => rfl
      | cons next others =>
          rw [String.intercalate_cons_of_ne_nil (List.cons_ne_nil _ _),
            String.intercalate_cons_of_ne_nil (List.cons_ne_nil _ _), String.empty_append,
            String.append_assoc]
    · have hroot : p.root = "" := by
        rw [root, if_neg habsolute, if_neg (by simpa using hdot)]
      have hbody : p.body = p.pieces := by
        rw [body, if_neg habsolute, hroot, if_neg (by decide)]
      rw [hroot, hbody, intercalate_pieces, String.empty_append]

/-! ## The path above -/

/-- Above a path stands the empty path if it is made of `.` only, and otherwise what is left of it
before its last piece that counts. -/
theorem parent?_eq_some_cases {p q : Path} (h : p.parent? = some q) :
    p.root = "." ∧ q = ⟨""⟩ ∨
      ∃ before last, dropIdleEnd p.body = before ++ [last] ∧ isIdle last = false ∧
        q = ⟨p.root ++ "/".intercalate (dropIdleEnd before)⟩ := by
  unfold parent? at h
  split at h
  · split at h
    · next hroot => exact Or.inl ⟨hroot, (Option.some.inj h).symm⟩
    · cases h
  · next piece others hbody =>
    have hne : dropIdleEnd p.body ≠ [] := by simp [hbody]
    refine Or.inr ⟨(dropIdleEnd p.body).dropLast, (dropIdleEnd p.body).getLast hne,
      (List.dropLast_append_getLast hne).symm, ?_, ?_⟩
    · exact Bool.eq_false_iff.2 (List.rdropWhile_last_not isIdle p.body hne)
    · rw [hbody]
      exact (Option.some.inj h).symm

/-- Joining more pieces makes the text longer at its end. -/
theorem exists_intercalate_append (pieces more : List String) :
    ∃ rest, "/".intercalate (pieces ++ more) = "/".intercalate pieces ++ rest := by
  by_cases hpieces : pieces = []
  · exact ⟨"/".intercalate more, by simp [hpieces]⟩
  · by_cases hmore : more = []
    · exact ⟨"", by simp [hmore]⟩
    · refine ⟨"/" ++ "/".intercalate more, ?_⟩
      rw [String.intercalate_append_of_ne_nil hpieces hmore, String.append_assoc]

/-- A piece that is not empty makes it longer indeed. -/
theorem exists_intercalate_concat (pieces : List String) {last : String} (h : last ≠ "") :
    ∃ rest, rest ≠ "" ∧ "/".intercalate (pieces ++ [last]) = "/".intercalate pieces ++ rest := by
  by_cases hpieces : pieces = []
  · exact ⟨last, h, by simp [hpieces]⟩
  · refine ⟨"/" ++ last, by simp, ?_⟩
    rw [String.intercalate_append_of_ne_nil hpieces (List.cons_ne_nil _ _),
      String.intercalate_singleton, String.append_assoc]

theorem dropIdleEnd_isPrefix (pieces : List String) : dropIdleEnd pieces <+: pieces :=
  List.rdropWhile_prefix isIdle pieces

/-- The text of a path above another one is that of the other one without something at its end. -/
theorem exists_text_eq_append {p q : Path} (h : p.parent? = some q) :
    ∃ rest, rest ≠ "" ∧ p.text = q.text ++ rest := by
  rcases parent?_eq_some_cases h with ⟨hroot, rfl⟩ | ⟨before, last, hbody, hlast, rfl⟩
  · refine ⟨p.text, ?_, (String.empty_append ..).symm⟩
    rw [text_eq_root_append, hroot]
    simp
  · -- cut off are idle pieces, the last piece that counts, and idle pieces before it
    obtain ⟨ending, hending⟩ := dropIdleEnd_isPrefix p.body
    obtain ⟨middle, hmiddle⟩ := dropIdleEnd_isPrefix before
    have hne : last ≠ "" := by
      rintro rfl
      cases hlast
    obtain ⟨idle, hidle⟩ := exists_intercalate_append (before ++ [last]) ending
    obtain ⟨counted, hcounted, hlonger⟩ := exists_intercalate_concat before hne
    obtain ⟨inner, hinner⟩ := exists_intercalate_append (dropIdleEnd before) middle
    rw [hbody] at hending
    rw [hmiddle] at hinner
    refine ⟨inner ++ (counted ++ idle), by simp [hcounted], ?_⟩
    rw [text_eq_root_append, ← hending, hidle, hlonger, hinner]
    simp only [String.append_assoc]

theorem length_lt_of_parent? {p q : Path} (h : p.parent? = some q) :
    q.text.length < p.text.length := by
  obtain ⟨rest, hne, htext⟩ := exists_text_eq_append h
  have hrest : 0 < rest.length := Nat.pos_of_ne_zero (mt String.length_eq_zero_iff.1 hne)
  rw [htext, String.length_append]
  omega

/-! ## All paths above -/

/-- A bound on the number of paths above makes no difference from the length of the text on. -/
theorem ancestorsUpTo_eq {p : Path} {bound more : Nat} (h : p.text.length ≤ bound)
    (h' : p.text.length ≤ more) : ancestorsUpTo bound p = ancestorsUpTo more p := by
  induction bound generalizing p more with
  | zero =>
      cases more with
      | zero => rfl
      | succ more =>
          cases hparent : p.parent? with
          | none => rw [ancestorsUpTo, ancestorsUpTo, hparent]
          | some q =>
              have hlt := length_lt_of_parent? hparent
              omega
  | succ bound ih =>
      cases more with
      | zero =>
          cases hparent : p.parent? with
          | none => rw [ancestorsUpTo, ancestorsUpTo, hparent]
          | some q =>
              have hlt := length_lt_of_parent? hparent
              omega
      | succ more =>
          rw [ancestorsUpTo, ancestorsUpTo]
          cases hparent : p.parent? with
          | none => rfl
          | some q =>
              have hlt := length_lt_of_parent? hparent
              exact congrArg (p :: ·) (ih (by omega) (by omega))

/-- The paths above a path are the one above it and the paths above that one. -/
theorem ancestors_eq (p : Path) :
    p.ancestors = p ::
      match p.parent? with
      | some parent => parent.ancestors
      | none => [] := by
  have hbound : p.ancestors = ancestorsUpTo (p.text.length + 1) p :=
    ancestorsUpTo_eq (Nat.le_refl _) (Nat.le_succ _)
  rw [hbound, ancestorsUpTo]
  cases hparent : p.parent? with
  | none => rfl
  | some q =>
      have hlt := length_lt_of_parent? hparent
      exact congrArg (p :: ·) (ancestorsUpTo_eq (Nat.le_of_lt hlt) (Nat.le_refl _))

/-- What holds of a path, and of the path above any path of which it holds, holds of all above. -/
theorem forall_mem_ancestors {P : Path → Prop}
    (hstep : ∀ q r : Path, P q → q.parent? = some r → P r) {p : Path} (hp : P p) :
    ∀ q ∈ p.ancestors, P q := by
  induction hlength : p.text.length using Nat.strong_induction_on generalizing p with
  | _ length ih =>
      rw [ancestors_eq]
      refine List.forall_mem_cons.2 ⟨hp, ?_⟩
      cases hparent : p.parent? with
      | none => exact List.forall_mem_nil _
      | some q =>
          have hlt := length_lt_of_parent? hparent
          exact ih q.text.length (by omega) (hstep p q hp hparent) rfl

/-! ## Names of the paths above -/

/-- A path from the root in which each piece is a name or empty. -/
structure IsStraight (p : Path) : Prop where
  absolute : p.isAbsolute = true
  dot_not_mem : "." ∉ p.pieces
  up_not_mem : ".." ∉ p.pieces

namespace IsStraight

variable {p q : Path}

theorem root_eq (h : p.IsStraight) : p.root = "/" := if_pos h.absolute

theorem pieces_eq (h : p.IsStraight) : p.pieces = "" :: p.body := by
  obtain ⟨others, -, hpieces⟩ := pieces_of_isAbsolute h.absolute
  rw [body, if_pos h.absolute, hpieces]
  rfl

/-- Idle pieces are empty ones. -/
theorem eq_empty_of_isIdle (h : p.IsStraight) {piece : String} (hmem : piece ∈ p.body)
    (hidle : isIdle piece = true) : piece = "" := by
  rw [isIdle, Bool.or_eq_true, decide_eq_true_eq, decide_eq_true_eq] at hidle
  refine hidle.resolve_right ?_
  rintro rfl
  exact h.dot_not_mem (h.pieces_eq ▸ List.mem_cons_of_mem _ hmem)

theorem names_eq (h : p.IsStraight) : p.names = p.body.filter (· ≠ "") := by
  rw [names, h.pieces_eq, List.filter_cons_of_neg (by simp)]

/-- Idle pieces at the end have no names among them. -/
theorem filter_dropIdleEnd (hp : p.IsStraight) {pieces : List String} (h : pieces <+: p.body) :
    (dropIdleEnd pieces).filter (· ≠ "") = pieces.filter (· ≠ "") := by
  have hsplit : dropIdleEnd pieces ++ pieces.rtakeWhile isIdle = pieces :=
    List.rdropWhile_append_rtakeWhile
  have hnone : (pieces.rtakeWhile isIdle).filter (· ≠ "") = [] := by
    rw [List.filter_eq_nil_iff]
    intro piece hpiece
    have hmem : piece ∈ pieces := by
      rw [← hsplit]
      exact List.mem_append_right _ hpiece
    simpa using hp.eq_empty_of_isIdle (h.subset hmem) (List.mem_rtakeWhile_imp hpiece)
  conv_rhs => rw [← hsplit, List.filter_append, hnone, List.append_nil]

theorem parent?_eq_none_iff (h : p.IsStraight) : p.parent? = none ↔ p.names = [] := by
  have hroot : ¬ p.root = "." := by
    rw [h.root_eq]
    decide
  have hnames : p.names = [] ↔ dropIdleEnd p.body = [] := by
    rw [h.names_eq, List.filter_eq_nil_iff]
    refine Iff.trans ?_ List.rdropWhile_eq_nil_iff.symm
    refine forall₂_congr fun piece hmem => ?_
    constructor
    · intro hempty
      simp only [ne_eq, decide_not, Bool.not_eq_true, Bool.not_eq_false', decide_eq_true_eq]
        at hempty
      rw [hempty]
      rfl
    · intro hidle
      simpa using h.eq_empty_of_isIdle hmem hidle
  rw [hnames]
  unfold parent?
  cases dropIdleEnd p.body with
  | nil => simp [hroot]
  | cons piece pieces => simp

/-- The path above a straight one is straight, and its names are the same without the last. -/
theorem of_parent? (h : p.IsStraight) (hparent : p.parent? = some q) :
    q.IsStraight ∧ q.names = p.names.dropLast := by
  rcases parent?_eq_some_cases hparent with ⟨hroot, -⟩ | ⟨before, last, hbody, hlast, hq⟩
  · rw [h.root_eq] at hroot
    exact absurd hroot (by decide)
  · let kept := dropIdleEnd before
    have hend : before ++ [last] <+: p.body := hbody ▸ dropIdleEnd_isPrefix p.body
    have hbefore : before <+: p.body := (List.prefix_append _ _).trans hend
    have hmem : ∀ piece ∈ kept, piece ∈ p.pieces := fun piece hpiece =>
      h.pieces_eq ▸ List.mem_cons_of_mem _
        (((dropIdleEnd_isPrefix before).trans hbefore).subset hpiece)
    have hq' : q = ⟨"" ++ "/" ++ "/".intercalate kept⟩ := by
      rw [hq, h.root_eq, String.empty_append]
    have hpieces : q.pieces = "" :: kept ∨ kept = [] ∧ q.pieces = ["", ""] := by
      rw [hq', pieces_append_slash]
      by_cases hkept : kept = []
      · exact Or.inr ⟨hkept, by rw [hkept]; rfl⟩
      · rw [pieces_intercalate hkept fun piece hpiece => slash_not_mem (hmem piece hpiece)]
        exact Or.inl rfl
    -- a piece of the path above is empty or a piece of the path
    have hall : ∀ piece ∈ q.pieces, piece = "" ∨ piece ∈ p.pieces := by
      intro piece hpiece
      rcases hpieces with heq | ⟨-, heq⟩
      · rw [heq, List.mem_cons] at hpiece
        exact hpiece.imp_right (hmem piece)
      · rw [heq] at hpiece
        exact Or.inl (by simpa using hpiece)
    have hnames : q.names = kept.filter (· ≠ "") := by
      rw [names]
      rcases hpieces with heq | ⟨hkept, heq⟩
      · rw [heq, List.filter_cons_of_neg (by simp)]
      · rw [heq, hkept]
        rfl
    refine ⟨⟨?_, fun hdot => ?_, fun hup => ?_⟩, ?_⟩
    · rw [hq', isAbsolute]
      simp
    · exact (hall "." hdot).elim (by decide) h.dot_not_mem
    · exact (hall ".." hup).elim (by decide) h.up_not_mem
    · have hlast' : last ≠ "" := by
        rintro rfl
        cases hlast
      rw [hnames, h.filter_dropIdleEnd hbefore, h.names_eq,
        ← h.filter_dropIdleEnd (List.prefix_refl p.body), hbody, List.filter_append,
        List.filter_cons_of_pos (by simpa using hlast'), List.filter_nil, List.dropLast_concat]

/-- The names of a straight path and of the paths above it are all beginnings of its names, the
longest first. -/
theorem map_names_ancestors (h : p.IsStraight) :
    p.ancestors.map names = p.names.inits.reverse := by
  induction hnames : p.names using List.reverseRecOn generalizing p with
  | nil =>
      rw [ancestors_eq, h.parent?_eq_none_iff.2 hnames]
      simp [hnames]
  | append_singleton start name ih =>
      cases hparent : p.parent? with
      | none =>
          rw [h.parent?_eq_none_iff.1 hparent] at hnames
          simp at hnames
      | some q =>
          obtain ⟨hq, hqnames⟩ := h.of_parent? hparent
          rw [hnames, List.dropLast_concat] at hqnames
          rw [ancestors_eq, hparent, List.map_cons, hnames]
          simp only
          rw [ih hq hqnames, List.inits_append]
          simp

/-- The paths above a straight path are straight, and their texts are beginnings of its text. -/
theorem of_mem_ancestors (h : p.IsStraight) :
    ∀ q ∈ p.ancestors, q.IsStraight ∧ ∃ rest, p.text = q.text ++ rest := by
  refine forall_mem_ancestors ?_ ⟨h, "", (String.append_empty ..).symm⟩
  rintro q r ⟨hq, rest, htext⟩ hparent
  obtain ⟨more, -, hmore⟩ := exists_text_eq_append hparent
  refine ⟨(hq.of_parent? hparent).1, more ++ rest, ?_⟩
  rw [htext, hmore, String.append_assoc]

end IsStraight

end Path

end Excision
