import Excision.FileTree.Save
import Excision.Proofs.Lookup

/-!
# Where walks lead

A walk through a file tree is a recursion over the names of a path inside a recursion over the
symbolic links that it may still follow. `FileTree.Leads` says without recursion when a walk
succeeds, one rule for each kind of step, and `FileTree.walk_eq_ok_iff` says that this is the walk.

Some facts about walks are needed for saving files. A walk in a tree with one more regular file
leads nowhere but to that file or where it led before (`FileTree.Leads.of_extra_file`), since no
step leaves a file. A file that is put where a link stood lets a walk be or stops it
(`FileTree.Leads.kept_or_stopped`), and entries that are added change no walk that succeeds
(`FileTree.Leads.of_entries_kept`). A walk that ends with a stay in a directory can be made to end
with a step to an entry of that directory instead (`FileTree.Leads.step_instead`).
-/

set_option autoImplicit false

namespace Excision.FileTree

/-! ## Entries after a change -/

section Entries

variable {tree : FileTree} {location : Location}

theorem entry?_of_ne_nil (tree : FileTree) {location : Location} (h : location ≠ []) :
    tree.entry? location = tree.entries.lookup location :=
  if_neg h

theorem entry?_erase_of_ne (tree : FileTree) {location other : Location} (h : other ≠ location) :
    FileTree.entry? (tree.erase location) other = tree.entry? other := by
  unfold entry? erase
  rw [lookup_filter_ne h]

theorem entry?_put_of_ne (tree : FileTree) {location other : Location} (entry : Entry)
    (h : other ≠ location) :
    FileTree.entry? (tree.put location entry) other = tree.entry? other := by
  have hother : (other == location) = false := beq_eq_false_iff_ne.2 h
  rw [← tree.entry?_erase_of_ne h]
  unfold entry? put
  rw [List.lookup_cons, hother]

theorem entry?_put_self (tree : FileTree) {location : Location} (entry : Entry)
    (h : location ≠ []) : FileTree.entry? (tree.put location entry) location = some entry := by
  unfold entry?
  simp [put, h]

/-- Whether no entry stands at a location. -/
def Vacant (tree : FileTree) (location : Location) : Prop :=
  ∀ held ∈ tree.entries, held.1 ≠ location

theorem Vacant.entry?_eq_none (h : tree.Vacant location) (hne : location ≠ []) :
    tree.entry? location = none := by
  unfold FileTree.entry?
  rw [if_neg hne, List.lookup_eq_none_iff]
  exact fun held hheld => bne_iff_ne.2 (h held hheld).symm

theorem Vacant.erase_eq (h : tree.Vacant location) : tree.erase location = tree := by
  have hkept : tree.entries.filter (·.1 ≠ location) = tree.entries :=
    List.filter_eq_self.2 fun held hheld => decide_eq_true (h held hheld)
  unfold FileTree.erase
  rw [hkept]

/-- Putting an entry and erasing it again is erasing what was there. -/
theorem erase_put (tree : FileTree) (location : Location) (entry : Entry) :
    (tree.put location entry).erase location = tree.erase location := by
  unfold put erase
  simp

theorem Vacant.erase_put (h : tree.Vacant location) (entry : Entry) :
    (tree.put location entry).erase location = tree := by
  rw [FileTree.erase_put, h.erase_eq]

end Entries

/-! ## Walks as a relation -/

/-- Where a walk leads that may still follow a number of symbolic links. Only a directory can be
left by a step. -/
inductive Leads (tree : FileTree) : Nat → Location → List String → Location → Prop where
  /-- Without a step left the walk is there. -/
  | arrive {links : Nat} {here : Location} : Leads tree links here [] here
  /-- A step on the spot. -/
  | stay {links mode : Nat} {here there : Location} {names : List String} :
      tree.entry? here = some (.directory mode) →
      Leads tree links here names there → Leads tree links here ("." :: names) there
  /-- A step to the directory above. -/
  | up {links mode : Nat} {here there : Location} {names : List String} :
      tree.entry? here = some (.directory mode) →
      Leads tree links here.dropLast names there → Leads tree links here (".." :: names) there
  /-- A step to an entry that is no link. -/
  | down {links mode : Nat} {here there : Location} {name : String} {names : List String}
      {entry : Entry} :
      tree.entry? here = some (.directory mode) → name ≠ "." → name ≠ ".." →
      name.utf8ByteSize ≤ maxNameSize →
      tree.entry? (here ++ [name]) = some entry → (∀ target, entry ≠ .link target) →
      Leads tree links (here ++ [name]) names there → Leads tree links here (name :: names) there
  /-- A step along a link. -/
  | follow {links mode : Nat} {here there : Location} {name : String} {names : List String}
      {target : Path} :
      tree.entry? here = some (.directory mode) → name ≠ "." → name ≠ ".." →
      name.utf8ByteSize ≤ maxNameSize →
      tree.entry? (here ++ [name]) = some (.link target) →
      Leads tree links (origin here target) (target.steps ++ names) there →
      Leads tree (links + 1) here (name :: names) there

section Walk

variable {tree : FileTree} {links : Nat} {here there : Location} {name : String}
  {names : List String}

/-- One step of a walk that succeeds. -/
theorem walkWith_cons_eq_ok_iff (follow : Location → List String → Except FileFault Location) :
    tree.walkWith follow here (name :: names) = .ok there ↔
      ∃ mode, tree.entry? here = some (.directory mode) ∧
        (name = "." ∧ tree.walkWith follow here names = .ok there ∨
        name = ".." ∧ tree.walkWith follow here.dropLast names = .ok there ∨
        name ≠ "." ∧ name ≠ ".." ∧ name.utf8ByteSize ≤ maxNameSize ∧
          ∃ entry, tree.entry? (here ++ [name]) = some entry ∧
            ((∀ target, entry ≠ .link target) ∧
                tree.walkWith follow (here ++ [name]) names = .ok there ∨
              ∃ target, entry = .link target ∧
                follow (origin here target) (target.steps ++ names) = .ok there)) := by
  rw [walkWith]
  cases hhere : tree.entry? here with
  | none => simp
  | some entry =>
      cases entry with
      | file mode content => simp
      | link target => simp
      | directory mode =>
          by_cases hdot : name = "."
          · subst hdot
            simp
          · by_cases hup : name = ".."
            · subst hup
              simp
            · by_cases hlong : maxNameSize < name.utf8ByteSize
              · simp [hdot, hup, hlong, Nat.not_le_of_lt hlong]
              · have hshort : name.utf8ByteSize ≤ maxNameSize := Nat.le_of_not_lt hlong
                cases hnext : tree.entry? (here ++ [name]) with
                | none => simp [hdot, hup, hlong]
                | some entry =>
                    cases entry <;> simp [hdot, hup, hlong, hshort]

/-- A walk leads somewhere if what it does beyond its first link does. -/
theorem leads_of_walkWith {follow : Location → List String → Except FileFault Location}
    (beyond : ∀ {here : Location} {names : List String}, follow here names = .ok there →
      ∃ fewer, links = fewer + 1 ∧ Leads tree fewer here names there)
    (h : tree.walkWith follow here names = .ok there) : Leads tree links here names there := by
  induction names generalizing here with
  | nil =>
      obtain rfl := Except.ok.inj h
      exact .arrive
  | cons name names ih =>
      obtain ⟨mode, hdir, hstep⟩ := (walkWith_cons_eq_ok_iff _).1 h
      rcases hstep with ⟨rfl, hnext⟩ | ⟨rfl, hnext⟩ | ⟨hdot, hup, hshort, entry, hentry, hstep⟩
      · exact .stay hdir (ih hnext)
      · exact .up hdir (ih hnext)
      · rcases hstep with ⟨hno, hnext⟩ | ⟨target, rfl, hnext⟩
        · exact .down hdir hdot hup hshort hentry hno (ih hnext)
        · obtain ⟨fewer, rfl, hleads⟩ := beyond hnext
          exact .follow hdir hdot hup hshort hentry hleads

theorem leads_of_walk (h : tree.walk links here names = .ok there) :
    Leads tree links here names there := by
  induction links generalizing here names with
  | zero => exact leads_of_walkWith (fun hnext => absurd hnext (by simp)) h
  | succ links ih => exact leads_of_walkWith (fun hnext => ⟨links, rfl, ih hnext⟩) h

/-- What a walk does at a link: it gives up, or walks on with one link less. -/
def beyondLink (tree : FileTree) : Nat → Location → List String → Except FileFault Location
  | 0 => fun _ _ => .error .tooManyLinks
  | links + 1 => tree.walk links

theorem walk_eq_walkWith (tree : FileTree) (links : Nat) :
    tree.walk links = tree.walkWith (tree.beyondLink links) := by
  cases links <;> rfl

section Equations

variable {mode : Nat}

theorem walk_nil : tree.walk links here [] = .ok here := by
  rw [walk_eq_walkWith, walkWith]

theorem walk_stay (hdir : tree.entry? here = some (.directory mode)) :
    tree.walk links here ("." :: names) = tree.walk links here names := by
  simp [walk_eq_walkWith, walkWith, hdir]

theorem walk_up (hdir : tree.entry? here = some (.directory mode)) :
    tree.walk links here (".." :: names) = tree.walk links here.dropLast names := by
  simp [walk_eq_walkWith, walkWith, hdir]

theorem walk_down {entry : Entry} (hdir : tree.entry? here = some (.directory mode))
    (hdot : name ≠ ".") (hup : name ≠ "..") (hshort : name.utf8ByteSize ≤ maxNameSize)
    (hentry : tree.entry? (here ++ [name]) = some entry) (hno : ∀ target, entry ≠ .link target) :
    tree.walk links here (name :: names) = tree.walk links (here ++ [name]) names := by
  cases entry with
  | link target => exact absurd rfl (hno target)
  | directory _ | file _ _ =>
      simp [walk_eq_walkWith, walkWith, hdir, hdot, hup, Nat.not_lt_of_le hshort, hentry]

theorem walk_follow {target : Path} (hdir : tree.entry? here = some (.directory mode))
    (hdot : name ≠ ".") (hup : name ≠ "..") (hshort : name.utf8ByteSize ≤ maxNameSize)
    (hentry : tree.entry? (here ++ [name]) = some (.link target)) :
    tree.walk (links + 1) here (name :: names) =
      tree.walk links (origin here target) (target.steps ++ names) := by
  simp [walk, walkWith, hdir, hdot, hup, Nat.not_lt_of_le hshort, hentry]

theorem walk_of_file {content : Content} (hfile : tree.entry? here = some (.file mode content)) :
    tree.walk links here (name :: names) = .error .notDirectory := by
  simp [walk_eq_walkWith, walkWith, hfile]

end Equations

theorem Leads.walk_eq (h : Leads tree links here names there) :
    tree.walk links here names = .ok there := by
  induction h with
  | arrive => exact walk_nil
  | stay hdir _ ih => rwa [walk_stay hdir]
  | up hdir _ ih => rwa [walk_up hdir]
  | down hdir hdot hup hshort hentry hno _ ih => rwa [walk_down hdir hdot hup hshort hentry hno]
  | follow hdir hdot hup hshort hentry _ ih => rwa [walk_follow hdir hdot hup hshort hentry]

/-- A walk succeeds exactly if the steps lead there. -/
theorem walk_eq_ok_iff :
    tree.walk links here names = .ok there ↔ Leads tree links here names there :=
  ⟨leads_of_walk, Leads.walk_eq⟩

/-! ## Walks beside a further file -/

/-- No walk leaves a regular file. -/
theorem Leads.eq_of_file {mode : Nat} {content : Content}
    (hfile : tree.entry? here = some (.file mode content))
    (h : Leads tree links here names there) : there = here := by
  cases h with
  | arrive => rfl
  | stay hdir _ => simp [hfile] at hdir
  | up hdir _ => simp [hfile] at hdir
  | down hdir => simp [hfile] at hdir
  | follow hdir => simp [hfile] at hdir

/-- Where one regular file is added, a walk leads to that file or where it led before. -/
theorem Leads.of_extra_file {more : FileTree} {extra : Location} {mode : Nat} {content : Content}
    (hfile : more.entry? extra = some (.file mode content))
    (others : ∀ location, location ≠ extra → more.entry? location = tree.entry? location)
    (h : Leads more links here names there) (hthere : there ≠ extra) :
    Leads tree links here names there := by
  have hdirectory : ∀ {here : Location} {mode : Nat}, more.entry? here = some (.directory mode) →
      tree.entry? here = some (.directory mode) := by
    intro here mode hdir
    rw [← others here, hdir]
    rintro rfl
    simp [hfile] at hdir
  induction h with
  | arrive => exact .arrive
  | stay hdir _ ih => exact .stay (hdirectory hdir) (ih hthere)
  | up hdir _ ih => exact .up (hdirectory hdir) (ih hthere)
  | @down links _ here there name names entry hdir hdot hup hshort hentry hno hrest ih =>
      -- a walk that steps to the file ends there
      have hnext : here ++ [name] ≠ extra := by
        intro heq
        rw [← heq] at hfile hthere
        exact hthere (hrest.eq_of_file hfile)
      rw [others _ hnext] at hentry
      exact .down (hdirectory hdir) hdot hup hshort hentry hno (ih hthere)
  | @follow links _ here there name names target hdir hdot hup hshort hentry _ ih =>
      have hnext : here ++ [name] ≠ extra := by
        rintro rfl
        simp [hfile] at hentry
      rw [others _ hnext] at hentry
      exact .follow (hdirectory hdir) hdot hup hshort hentry (ih hthere)

/-- A walk leads where it led before if the entries before are still there. -/
theorem Leads.of_entries_kept {more : FileTree}
    (kept : ∀ location entry, tree.entry? location = some entry →
      more.entry? location = some entry)
    (h : Leads tree links here names there) : Leads more links here names there := by
  induction h with
  | arrive => exact .arrive
  | stay hdir _ ih => exact .stay (kept _ _ hdir) ih
  | up hdir _ ih => exact .up (kept _ _ hdir) ih
  | down hdir hdot hup hshort hentry hno _ ih =>
      exact .down (kept _ _ hdir) hdot hup hshort (kept _ _ hentry) hno ih
  | follow hdir hdot hup hshort hentry _ ih =>
      exact .follow (kept _ _ hdir) hdot hup hshort (kept _ _ hentry) ih

/-- A file put where no directory stood lets a walk be, or stops it before its end. -/
theorem Leads.kept_or_stopped {more : FileTree} {extra : Location} {mode : Nat} {content : Content}
    (hfile : more.entry? extra = some (.file mode content))
    (others : ∀ location, location ≠ extra → more.entry? location = tree.entry? location)
    (hfree : ∀ mode, tree.entry? extra ≠ some (.directory mode))
    (h : Leads tree links here names there) :
    Leads more links here names there ∨
      ∀ last, more.walk links here (names ++ [last]) = .error .notDirectory := by
  have hdirectory : ∀ {here : Location} {mode : Nat}, tree.entry? here = some (.directory mode) →
      more.entry? here = some (.directory mode) := by
    intro here mode hdir
    rw [others here, hdir]
    rintro rfl
    exact hfree mode hdir
  -- a walk to the file has a step left there
  have hstopped : ∀ {links mode : Nat} {here : Location} {name : String} (names : List String),
      tree.entry? here = some (.directory mode) → name ≠ "." → name ≠ ".." →
      name.utf8ByteSize ≤ maxNameSize → here ++ [name] = extra → ∀ last,
      more.walk links here (name :: names ++ [last]) = .error .notDirectory := by
    intro links mode here name names hdir hdot hup hshort hnext last
    rw [← hnext] at hfile
    rw [List.cons_append, walk_down (hdirectory hdir) hdot hup hshort hfile (by simp)]
    cases names <;> exact walk_of_file hfile
  induction h with
  | arrive => exact Or.inl .arrive
  | stay hdir _ ih =>
      refine ih.imp (.stay (hdirectory hdir)) fun hrest last => ?_
      rw [List.cons_append, walk_stay (hdirectory hdir), hrest]
  | up hdir _ ih =>
      refine ih.imp (.up (hdirectory hdir)) fun hrest last => ?_
      rw [List.cons_append, walk_up (hdirectory hdir), hrest]
  | @down links _ here there name names entry hdir hdot hup hshort hentry hno _ ih =>
      by_cases hnext : here ++ [name] = extra
      · exact Or.inr (hstopped names hdir hdot hup hshort hnext)
      · rw [← others _ hnext] at hentry
        refine ih.imp (.down (hdirectory hdir) hdot hup hshort hentry hno) fun hrest last => ?_
        rw [List.cons_append, walk_down (hdirectory hdir) hdot hup hshort hentry hno, hrest]
  | @follow links _ here there name names target hdir hdot hup hshort hentry _ ih =>
      by_cases hnext : here ++ [name] = extra
      · exact Or.inr (hstopped names hdir hdot hup hshort hnext)
      · rw [← others _ hnext] at hentry
        refine ih.imp (.follow (hdirectory hdir) hdot hup hshort hentry) fun hrest last => ?_
        rw [List.cons_append, walk_follow (hdirectory hdir) hdot hup hshort hentry,
          ← List.append_assoc, hrest]

/-! ## The last step of a walk -/

theorem Leads.append {rest : List String} {mid : Location} (h : Leads tree links here names mid)
    (hrest : ∀ fewer, Leads tree fewer mid rest there) :
    Leads tree links here (names ++ rest) there := by
  induction h with
  | arrive => exact hrest _
  | stay hdir _ ih => exact .stay hdir (ih hrest)
  | up hdir _ ih => exact .up hdir (ih hrest)
  | down hdir hdot hup hshort hentry hno _ ih =>
      exact .down hdir hdot hup hshort hentry hno (ih hrest)
  | follow hdir hdot hup hshort hentry _ ih =>
      have hbeyond := ih hrest
      rw [List.append_assoc] at hbeyond
      exact .follow hdir hdot hup hshort hentry hbeyond

/-- To stay at the end of a walk is to walk to a directory. -/
theorem leads_append_stay_iff :
    Leads tree links here (names ++ ["."]) there ↔
      Leads tree links here names there ∧ ∃ mode, tree.entry? there = some (.directory mode) := by
  constructor
  · -- the induction is on the walk, whose names change at a link
    intro h
    generalize hall : names ++ ["."] = all at h
    induction h generalizing names with
    | arrive => simp at hall
    | @stay links mode here there rest hdir hrest ih =>
        cases names with
        | nil =>
            simp only [List.nil_append, List.cons.injEq, true_and] at hall
            subst hall
            cases hrest
            exact ⟨.arrive, mode, hdir⟩
        | cons first names =>
            simp only [List.cons_append, List.cons.injEq] at hall
            obtain ⟨rfl, hall⟩ := hall
            exact (ih hall).imp_left (.stay hdir)
    | @up links mode here there rest hdir hrest ih =>
        cases names with
        | nil => simp at hall
        | cons first names =>
            simp only [List.cons_append, List.cons.injEq] at hall
            obtain ⟨rfl, hall⟩ := hall
            exact (ih hall).imp_left (.up hdir)
    | @down links mode here there name rest entry hdir hdot hup hshort hentry hno hrest ih =>
        cases names with
        | nil =>
            simp only [List.nil_append, List.cons.injEq] at hall
            exact absurd hall.1.symm hdot
        | cons first names =>
            simp only [List.cons_append, List.cons.injEq] at hall
            obtain ⟨rfl, hall⟩ := hall
            exact (ih hall).imp_left (.down hdir hdot hup hshort hentry hno)
    | @follow links mode here there name rest target hdir hdot hup hshort hentry hrest ih =>
        cases names with
        | nil =>
            simp only [List.nil_append, List.cons.injEq] at hall
            exact absurd hall.1.symm hdot
        | cons first names =>
            simp only [List.cons_append, List.cons.injEq] at hall
            obtain ⟨rfl, rfl⟩ := hall
            -- the names behind the link still end with the stay
            exact (ih (List.append_assoc _ _ _)).imp_left (.follow hdir hdot hup hshort hentry)
  · rintro ⟨h, mode, hdir⟩
    exact h.append fun _ => .stay hdir .arrive

/-- A walk that ends with a stay ends in a directory. A step to an entry of that directory in the
place of the stay leads to that entry. -/
theorem Leads.step_instead {start : List String}
    (h : Leads tree links here (start ++ ["."]) there) :
    (∃ mode, tree.entry? there = some (.directory mode)) ∧
      ∀ (last : String) (entry : Entry), last ≠ "." → last ≠ ".." →
        last.utf8ByteSize ≤ maxNameSize → tree.entry? (there ++ [last]) = some entry →
        (∀ target, entry ≠ .link target) →
        Leads tree links here (start ++ [last]) (there ++ [last]) := by
  obtain ⟨hstart, mode, hdir⟩ := leads_append_stay_iff.1 h
  refine ⟨⟨mode, hdir⟩, fun last entry hdot hup hshort hentry hno => ?_⟩
  exact hstart.append fun _ => .down hdir hdot hup hshort hentry hno .arrive

end Walk

end Excision.FileTree
