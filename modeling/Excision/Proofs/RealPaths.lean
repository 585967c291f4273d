import Excision.Proofs.Saving

/-!
# Real paths

A path that leads somewhere has the path of that place as its real path, provided that the paths of
all locations on the walk are short enough to be asked for; otherwise it has none
(`FileTree.canonical?_of_resolve`).

How much of the bound a location takes is told by the sizes of its names
(`FileTree.utf8ByteSize_absolute`). In a tree without long locations (`FileTree.IsShallow`) every
walk that succeeds can be spelled, so real paths are known of all places.
-/

set_option autoImplicit false

namespace Excision.FileTree

/-! ## Spelling a walk -/

section Spelling

variable {tree : FileTree} {links mode : Nat} {here there : Location} {name : String}
  {names : List String}

/-- What is known at a link of the paths beyond it. -/
def spellsBeyondLink (tree : FileTree) : Nat → Location → List String → Bool
  | 0 => fun _ _ => false
  | links + 1 => tree.spells links

theorem spells_eq_spellsWith (tree : FileTree) (links : Nat) :
    tree.spells links = tree.spellsWith (tree.spellsBeyondLink links) := by
  cases links <;> rfl

theorem spells_nil : tree.spells links here [] = true := by
  rw [spells_eq_spellsWith, spellsWith]

theorem spells_stay : tree.spells links here ("." :: names) = tree.spells links here names := by
  rw [spells_eq_spellsWith, spellsWith, if_pos rfl]

theorem spells_up :
    tree.spells links here (".." :: names) = tree.spells links here.dropLast names := by
  rw [spells_eq_spellsWith, spellsWith, if_neg (by decide), if_pos rfl]

theorem spells_down {entry : Entry} (hdot : name ≠ ".") (hup : name ≠ "..")
    (hentry : tree.entry? (here ++ [name]) = some entry) (hno : ∀ target, entry ≠ .link target) :
    tree.spells links here (name :: names) =
      (isSpellable (here ++ [name]) names && tree.spells links (here ++ [name]) names) := by
  rw [spells_eq_spellsWith, spellsWith, if_neg hdot, if_neg hup, hentry]
  cases entry with
  | link target => exact absurd rfl (hno target)
  | directory _ | file _ _ => rfl

theorem spells_follow {target : Path} (hdot : name ≠ ".") (hup : name ≠ "..")
    (hentry : tree.entry? (here ++ [name]) = some (.link target)) :
    tree.spells (links + 1) here (name :: names) =
      (isSpellable (here ++ [name]) [] &&
        tree.spells links (origin here target) (target.steps ++ names)) := by
  rw [spells, spellsWith, if_neg hdot, if_neg hup, hentry]

/-- Whether all locations in a tree have paths that are short enough to be asked for, with a slash
behind them, too. -/
def IsShallow (tree : FileTree) : Prop :=
  ∀ held ∈ tree.entries, spelledSize held.1 + 1 < pathSizeBound

instance (tree : FileTree) : Decidable tree.IsShallow :=
  inferInstanceAs (Decidable (∀ held ∈ tree.entries, _))

theorem IsShallow.isSpellable (h : tree.IsShallow) {entry : Entry}
    (hentry : tree.entry? (here ++ [name]) = some entry) (names : List String) :
    isSpellable (here ++ [name]) names = true := by
  have hheld : (here ++ [name], entry) ∈ tree.entries := by
    rw [entry?_of_ne_nil _ (by simp), List.lookup_eq_some_iff] at hentry
    obtain ⟨before, after, hentries, -⟩ := hentry
    rw [hentries]
    simp
  have hsize : spelledSize (here ++ [name]) + 1 < pathSizeBound := h _ hheld
  rw [FileTree.isSpellable, decide_eq_true_eq]
  split <;> omega

/-- A walk that succeeds can be spelled if there are no long locations. -/
theorem Leads.spells_eq_true (hshallow : tree.IsShallow) (h : Leads tree links here names there) :
    tree.spells links here names = true := by
  induction h with
  | arrive => exact spells_nil
  | stay _ _ ih => rwa [spells_stay]
  | up _ _ ih => rwa [spells_up]
  | down _ hdot hup _ hentry hno _ ih =>
      rw [spells_down hdot hup hentry hno, ih, Bool.and_true]
      exact hshallow.isSpellable hentry _
  | follow _ hdot hup _ hentry _ ih =>
      rw [spells_follow hdot hup hentry, ih, Bool.and_true]
      exact hshallow.isSpellable hentry _

end Spelling

/-! ## Sizes -/

/-- A location other than the root is spelled by its names, each behind a slash. -/
theorem utf8ByteSize_absolute {location : Location} (h : location ≠ []) :
    (absolute location).text.utf8ByteSize = spelledSize location := by
  have hbehind : ∀ name names, ("/".intercalate (name :: names)).utf8ByteSize + 1 =
      spelledSize (name :: names) := by
    intro name names
    induction names generalizing name with
    | nil => simp [spelledSize]
    | cons next names ih =>
        rw [String.intercalate_cons_cons, String.utf8ByteSize_append, String.utf8ByteSize_append]
        have hrest := ih next
        have hslash : "/".utf8ByteSize = 1 := rfl
        rw [spelledSize, ← hrest, hslash]
        omega
  cases location with
  | nil => exact absurd rfl h
  | cons name names =>
      rw [absolute, String.utf8ByteSize_append, ← hbehind name names, Nat.add_comm]
      rfl

/-! ## Real paths -/

section Real

variable {tree : FileTree} {directory : Location} {path : Path} {location : Location}

/-- A path that is handed to the system is one. -/
theorem isPath_of_checkPath (h : checkPath path = .ok ()) : isPath path = true := by
  unfold checkPath at h
  split at h
  · cases h
  · next hnul =>
    split at h
    · cases h
    · next hempty =>
      rw [isPath, Bool.eq_false_iff.2 hnul]
      exact decide_eq_true hempty

/-- The real path of a path that leads somewhere is the path of that place, if all paths on the way
are short enough to be asked for. -/
theorem canonical?_of_resolve (h : tree.resolve directory path = .ok location) :
    tree.canonical? directory path =
      if tree.spells maxLinks (origin directory path) path.steps then some (absolute location)
      else none := by
  obtain ⟨hcheck, hleads⟩ := resolve_eq_ok_iff.1 h
  rw [canonical?, hleads.walk_eq, isPath_of_checkPath hcheck, Bool.true_and]

/-- Without long locations the real path of every place is known. -/
theorem IsShallow.canonical?_of_resolve (hshallow : tree.IsShallow)
    (h : tree.resolve directory path = .ok location) :
    tree.canonical? directory path = some (absolute location) := by
  obtain ⟨-, hleads⟩ := resolve_eq_ok_iff.1 h
  rw [FileTree.canonical?_of_resolve h, hleads.spells_eq_true hshallow, if_pos rfl]

end Real

end Excision.FileTree
