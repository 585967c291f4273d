import Excision.Proofs.Sequence
import Excision.Proofs.Walks

/-!
# What saving does to a file tree

A path that names a place leads to what stands there, if that is a regular file
(`FileTree.resolve_of_place`). So whoever compares where two paths lead also compares which entries
a save to one and a read from the other would meet.

The name of the temporary file is longer than every name in the tree, so no entry stands at its
location before the save, and the same tree is left when the save fails
(`FileTree.tree_of_save_error`). A save that succeeds puts a regular file with the text at the place
of the path and changes no other entry (`FileTree.save_ok`).
-/

set_option autoImplicit false

namespace Excision.FileTree

section Place

variable {tree : FileTree} {directory : Location} {path : Path} {location : Location}

theorem resolve_eq_ok_iff :
    tree.resolve directory path = .ok location ↔
      checkPath path = .ok () ∧
        Leads tree maxLinks (origin directory path) path.steps location := by
  rw [← walk_eq_ok_iff]
  unfold resolve
  cases checkPath path with
  | error fault => simp [bind, Except.bind]
  | ok _ => simp [bind, Except.bind]

/-- A path names a place exactly if it ends with a proper name and the names before it lead to a
directory. -/
theorem place_eq_ok_iff :
    tree.place directory path = .ok location ↔
      checkPath path = .ok () ∧ path.hasTrailingSlash = false ∧
        ∃ start name parent, path.names = start ++ [name] ∧ name ≠ "." ∧ name ≠ ".." ∧
          name.utf8ByteSize ≤ maxNameSize ∧
          Leads tree maxLinks (origin directory path) (start ++ ["."]) parent ∧
          location = parent ++ [name] := by
  unfold place
  cases checkPath path with
  | error fault => simp [bind, Except.bind]
  | ok _ =>
      rcases List.eq_nil_or_concat path.names with hnames | ⟨start, name, hnames⟩
      · simp [hnames, bind, Except.bind]
      · rw [List.concat_eq_append] at hnames
        simp only [bind, Except.bind, hnames, List.getLast?_concat, List.dropLast_concat, true_and]
        constructor
        · intro h
          split at h
          · cases h
          · next parent hparent =>
            split at h
            · cases h
            · next hproper =>
              split at h
              · cases h
              · next hshort =>
                split at h
                · cases h
                · next hslash =>
                  obtain ⟨hdot, hup⟩ := not_or.1 hproper
                  exact ⟨Bool.eq_false_iff.2 hslash, start, name, parent, rfl, hdot, hup,
                    Nat.le_of_not_lt hshort, leads_of_walk hparent, (Except.ok.inj h).symm⟩
        · rintro ⟨hslash, start', name', parent, heq, hdot, hup, hshort, hleads, rfl⟩
          obtain ⟨rfl, hlast⟩ := List.append_inj' heq rfl
          obtain rfl : name = name' := List.singleton_inj.1 hlast
          rw [hleads.walk_eq]
          simp only
          rw [if_neg (not_or.2 ⟨hdot, hup⟩), if_neg (Nat.not_lt_of_le hshort), hslash,
            if_neg Bool.false_ne_true]

theorem ne_nil_of_place (h : tree.place directory path = .ok location) : location ≠ [] := by
  obtain ⟨-, -, start, name, parent, -, -, -, -, -, rfl⟩ := place_eq_ok_iff.1 h
  simp

/-- A text is read exactly from a path that leads to a regular file with that text. -/
theorem readText_eq_ok_iff (text : String) :
    tree.readText directory path = .ok text ↔
      ∃ location mode, tree.resolve directory path = .ok location ∧
        tree.entry? location = some (.file mode (.text text)) := by
  unfold readText
  cases tree.resolve directory path with
  | error fault => simp [bind, Except.bind]
  | ok location =>
      simp only [bind, Except.bind, Except.ok.injEq]
      cases hentry : tree.entry? location with
      | none => simp [hentry]
      | some entry =>
          cases entry with
          | directory mode => simp [hentry]
          | link target => simp [hentry]
          | file mode content => cases content <;> simp [hentry]

theorem steps_eq_names (h : path.hasTrailingSlash = false) : path.steps = path.names := by
  rw [Path.steps, h, if_neg Bool.false_ne_true]

/-- A path that names the place of a regular file leads to that file. -/
theorem resolve_of_place {mode : Nat} {content : Content}
    (h : tree.place directory path = .ok location)
    (hfile : tree.entry? location = some (.file mode content)) :
    tree.resolve directory path = .ok location := by
  obtain ⟨hcheck, hslash, start, name, parent, hnames, hdot, hup, hshort, hleads, rfl⟩ :=
    place_eq_ok_iff.1 h
  obtain ⟨-, hinstead⟩ := hleads.step_instead
  rw [resolve_eq_ok_iff, steps_eq_names hslash, hnames]
  exact ⟨hcheck, hinstead name _ hdot hup hshort hfile (fun target => by simp)⟩

/-- Where one regular file is added, a path still names the place that it named. -/
theorem place_of_extra_file {more : FileTree} {extra : Location} {mode : Nat} {content : Content}
    (hfile : more.entry? extra = some (.file mode content))
    (others : ∀ location, location ≠ extra → more.entry? location = tree.entry? location)
    (h : more.place directory path = .ok location) : tree.place directory path = .ok location := by
  obtain ⟨hcheck, hslash, start, name, parent, hnames, hdot, hup, hshort, hleads, rfl⟩ :=
    place_eq_ok_iff.1 h
  obtain ⟨⟨_, hparent⟩, -⟩ := hleads.step_instead
  have hne : parent ≠ extra := by
    rintro rfl
    simp [hfile] at hparent
  exact place_eq_ok_iff.2 ⟨hcheck, hslash, start, name, parent, hnames, hdot, hup, hshort,
    hleads.of_extra_file hfile others hne, rfl⟩

/-- A path names the place that it named before if the entries before are still there. -/
theorem place_of_entries_kept {more : FileTree}
    (kept : ∀ location entry, tree.entry? location = some entry →
      more.entry? location = some entry)
    (h : tree.place directory path = .ok location) : more.place directory path = .ok location := by
  obtain ⟨hcheck, hslash, start, name, parent, hnames, hdot, hup, hshort, hleads, rfl⟩ :=
    place_eq_ok_iff.1 h
  exact place_eq_ok_iff.2 ⟨hcheck, hslash, start, name, parent, hnames, hdot, hup, hshort,
    hleads.of_entries_kept kept, rfl⟩

end Place

/-! ## The temporary file -/

theorem le_foldl_max {numbers : List Nat} {n start : Nat} (h : n ≤ start ∨ n ∈ numbers) :
    n ≤ numbers.foldl max start := by
  induction numbers generalizing start with
  | nil => simpa using h
  | cons head numbers ih =>
      rw [List.foldl_cons]
      refine ih ?_
      rcases h with h | h
      · exact Or.inl (Nat.le_trans h (Nat.le_max_left _ _))
      · rcases List.mem_cons.1 h with rfl | h
        · exact Or.inl (Nat.le_max_right _ _)
        · exact Or.inr h

/-- The fresh name is longer than every name in the tree. -/
theorem length_lt_freshName (tree : FileTree) {held : Location × Entry}
    (hheld : held ∈ tree.entries) {name : String} (hname : name ∈ held.1) :
    name.length < tree.freshName.length := by
  have hle : name.length ≤
      (tree.entries.flatMap fun entry => entry.1.map String.length).foldl max 0 :=
    le_foldl_max (Or.inr (List.mem_flatMap.2 ⟨held, hheld, List.mem_map_of_mem hname⟩))
  have hprefix : 0 < ".tmpXXXXXX".toList.length := by simp
  unfold freshName
  rw [String.length_ofList, List.length_append, List.length_replicate]
  exact Nat.lt_of_le_of_lt hle (Nat.lt_add_of_pos_left hprefix)

/-- No entry stands where the temporary file is made. -/
theorem vacant_freshName (tree : FileTree) (parent : Location) :
    tree.Vacant (parent ++ [tree.freshName]) := by
  intro held hheld heq
  have hname : tree.freshName ∈ held.1 := by
    rw [heq]
    exact List.mem_append_right _ (List.mem_singleton.2 rfl)
  exact Nat.lt_irrefl _ (tree.length_lt_freshName hheld hname)

/-- The temporary file is made under a fresh name in the directory to which the path leads, if its
own path can be handed to the system. -/
theorem temporaryPlace_eq_ok_iff {tree : FileTree} {directory temporary : Location}
    {path : Path} :
    tree.temporaryPlace directory path = .ok temporary ↔
      checkPath (temporaryPath directory path) = .ok () ∧
        ∃ parent mode, tree.resolve directory path = .ok parent ∧
          tree.entry? parent = some (.directory mode) ∧
          parent ++ [tree.freshName] = temporary := by
  rw [temporaryPlace, check_bind_eq_ok_iff, bind_eq_ok_iff]
  refine and_congr_right fun _ => exists_congr fun parent => ?_
  cases hentry : tree.entry? parent with
  | none => simp
  | some entry => cases entry <;> simp

/-- The temporary file is made where no entry stands, and not as the root. -/
theorem vacant_of_temporaryPlace {tree : FileTree} {directory location : Location} {path : Path}
    (h : tree.temporaryPlace directory path = .ok location) :
    tree.Vacant location ∧ location ≠ [] := by
  obtain ⟨-, parent, mode, -, -, rfl⟩ := temporaryPlace_eq_ok_iff.1 h
  exact ⟨tree.vacant_freshName parent, by simp⟩

/-! ## Saving -/

section Save

variable {tree : FileTree} {directory : Location} {path : Path} {text : String}
  {template : Option Path}

/-- A file is saved with the permissions of a regular file to which the template leads. -/
theorem saveMode_of_file {like : Path} {location : Location} {mode : Nat} {content : Content}
    (hlike : tree.resolve directory like = .ok location)
    (hfile : tree.entry? location = some (.file mode content)) :
    tree.saveMode directory path (some like) = mode := by
  have hmode : tree.mode? directory like = some mode := by
    rw [mode?, target?, hlike]
    simp only
    rw [hfile]
    rfl
  rw [saveMode, Option.bind_some, hmode]

/-- What renaming an entry other than a directory does. -/
theorem rename_eq_ok {source : Location} {after : FileTree}
    (h : tree.rename directory source path = .ok after) :
    ∃ location entry, tree.place directory path = .ok location ∧
      tree.entry? source = some entry ∧
      (∀ mode, tree.entry? location ≠ some (.directory mode)) ∧
      after = (tree.erase source).put location entry := by
  unfold rename at h
  cases hplace : tree.place directory path with
  | error fault => simp [hplace, bind, Except.bind] at h
  | ok location =>
      simp only [hplace, bind, Except.bind] at h
      cases hentry : tree.entry? source with
      | none => simp [hentry] at h
      | some entry =>
          simp only [hentry] at h
          split at h
          · cases h
          · next hno =>
            exact ⟨location, entry, rfl, rfl, hno, (Except.ok.inj h).symm⟩

theorem rename_of_place {source location : Location} {entry : Entry}
    (hplace : tree.place directory path = .ok location) (hentry : tree.entry? source = some entry)
    (hfree : ∀ mode, tree.entry? location ≠ some (.directory mode)) :
    tree.rename directory source path = .ok ((tree.erase source).put location entry) := by
  unfold rename
  rw [hplace]
  simp only [bind, Except.bind, hentry]

/-- A save that fails leaves the tree as it was. -/
theorem tree_of_save_error {fault : SaveFault} {after : FileTree}
    (h : tree.save directory path text template = (.error fault, after)) : after = tree := by
  unfold save at h
  split at h
  · exact (Prod.mk.inj h).2.symm
  · next temporary htemporary =>
    obtain ⟨hvacant, -⟩ := vacant_of_temporaryPlace htemporary
    simp only at h
    split at h
    · cases h
    · rw [← (Prod.mk.inj h).2, erase_put, hvacant.erase_put]

/-- A save that succeeds puts a regular file with the text at the place of the path, where no
directory stood, and changes no other entry. -/
theorem save_ok {after : FileTree}
    (h : tree.save directory path text template = (.ok (), after)) :
    ∃ location, tree.place directory path = .ok location ∧
      (∀ mode, tree.entry? location ≠ some (.directory mode)) ∧
      after.entry? location =
        some (.file (tree.saveMode directory path template) (.text text)) ∧
      ∀ other, other ≠ location → after.entry? other = tree.entry? other := by
  unfold save at h
  split at h
  · cases h
  · next temporary htemporary =>
    obtain ⟨hvacant, hne⟩ := vacant_of_temporaryPlace htemporary
    simp only at h
    split at h
    · next saved hrename =>
      obtain rfl : saved = after := (Prod.mk.inj h).2
      obtain ⟨location, entry, hplace, hentry, hno, rfl⟩ := rename_eq_ok hrename
      have hfilled := entry?_put_self (tree.put temporary (.file newFileMode (.text "")))
        (.file (tree.saveMode directory path template) (.text text)) hne
      have hothers : ∀ other, other ≠ temporary →
          FileTree.entry? ((tree.put temporary (.file newFileMode (.text ""))).put temporary
            (.file (tree.saveMode directory path template) (.text text))) other =
            tree.entry? other := by
        intro other hother
        rw [entry?_put_of_ne _ _ hother, entry?_put_of_ne _ _ hother]
      -- what is renamed is the temporary file, and the place is one in the tree before
      rw [hfilled, Option.some.injEq] at hentry
      subst hentry
      refine ⟨location, place_of_extra_file hfilled hothers hplace, fun mode => ?_,
        entry?_put_self _ _ (ne_nil_of_place hplace), fun other hother => ?_⟩
      · by_cases hlocation : location = temporary
        · rw [hlocation, hvacant.entry?_eq_none hne]
          simp
        · rw [← hothers _ hlocation]
          exact hno mode
      · -- the temporary file is gone, whether it stood at the other location or not
        rw [entry?_put_of_ne _ _ hother, erase_put, hvacant.erase_put]
    · cases h

end Save

end Excision.FileTree
