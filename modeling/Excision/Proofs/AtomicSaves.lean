import Excision.Proofs.SaveRuns
import Excision.Session

/-!
# Saves are atomic

A save on a session either puts one file with the lines at the place of the path and changes
nothing else, or fails and leaves the session as it was, under whatever conditions the system puts
its steps (`Session.save_atomic`). It succeeds exactly if it has all it needs
(`FileTree.Saveable`). The permissions of the file are given by rules of their own
(`FileTree.SavedMode`, `FileTree.savedMode_spec`).

The text can be loaded again from the path with one exception. Renaming replaces a symbolic link
and not what it leads to, and the directory of a path may itself be reached through that very link,
as with `a/a` where `a` leads to `.`. Such a path crosses itself (`FileTree.CrossesItself`). Only a
link can be crossed (`FileTree.exists_link_of_crossesItself`), and the file that replaces it stops
the path (`FileTree.readText_of_crossesItself`). Any other path leads to the new file
(`FileTree.readText_put_file`).
-/

set_option autoImplicit false

namespace Excision

namespace FileTree

/-! ## Permissions -/

section Permissions

variable {tree : FileTree} {directory : Location} {path : Path}

/-- Whether a path leads to a directory or to a regular file with some permissions. -/
def HasMode (tree : FileTree) (directory : Location) (path : Path) (mode : Nat) : Prop :=
  ∃ location, tree.resolve directory path = .ok location ∧
    (tree.entry? location = some (.directory mode) ∨
      ∃ content, tree.entry? location = some (.file mode content))

theorem mode?_eq_some_iff {mode : Nat} :
    tree.mode? directory path = some mode ↔ tree.HasMode directory path mode := by
  unfold mode? target? HasMode
  cases tree.resolve directory path with
  | error fault => simp
  | ok location =>
      simp only [Except.ok.injEq, exists_eq_left']
      cases tree.entry? location with
      | none => simp
      | some entry => cases entry <;> simp [Entry.mode?]

theorem mode?_eq_none_iff :
    tree.mode? directory path = none ↔ ∀ mode, ¬ tree.HasMode directory path mode := by
  rw [Option.eq_none_iff_forall_ne_some]
  exact forall_congr' fun mode => not_congr mode?_eq_some_iff

theorem testBit_withoutMask (mask mode bit : Nat) :
    (withoutMask mask mode).testBit bit = (mode.testBit bit && !mask.testBit bit) := by
  rw [withoutMask, Nat.testBit_xor, Nat.testBit_and]
  cases mode.testBit bit <;> cases mask.testBit bit <;> rfl

/-- The permissions with which a file is saved: those of the template if it leads anywhere, else
those of what the path leads to, else those of a new file without the masked ones. -/
inductive SavedMode (mask : Nat) (tree : FileTree) (directory : Location) (path : Path) :
    Option Path → Nat → Prop where
  | ofTemplate {like : Path} {mode : Nat} :
      tree.HasMode directory like mode → SavedMode mask tree directory path (some like) mode
  | ofReplaced {template : Option Path} {mode : Nat} :
      (∀ like ∈ template, ∀ other, ¬ tree.HasMode directory like other) →
      tree.HasMode directory path mode → SavedMode mask tree directory path template mode
  | fresh {template : Option Path} {mode : Nat} :
      (∀ like ∈ template, ∀ other, ¬ tree.HasMode directory like other) →
      (∀ other, ¬ tree.HasMode directory path other) →
      (∀ bit, mode.testBit bit = (Nat.testBit 0o644 bit && !mask.testBit bit)) →
      SavedMode mask tree directory path template mode

theorem savedMode_spec (conditions : Conditions) (tree : FileTree) (directory : Location)
    (path : Path) (template : Option Path) :
    SavedMode conditions.mask tree directory path template
      (savedMode conditions tree directory path template) := by
  rw [savedMode, copiedMode?_eq]
  cases hlike : template.bind (tree.mode? directory) with
  | some mode =>
      obtain ⟨like, rfl, hmode⟩ := Option.bind_eq_some_iff.1 hlike
      exact .ofTemplate (mode?_eq_some_iff.1 hmode)
  | none =>
      have hnone : ∀ like ∈ template, ∀ other, ¬ tree.HasMode directory like other := by
        rintro like rfl
        exact mode?_eq_none_iff.1 hlike
      rw [Option.none_or]
      cases hpath : tree.mode? directory path with
      | some mode => exact .ofReplaced hnone (mode?_eq_some_iff.1 hpath)
      | none => exact .fresh hnone (mode?_eq_none_iff.1 hpath) (testBit_withoutMask _ _)

end Permissions

/-! ## Paths that cross themselves -/

section Crossing

variable {tree : FileTree} {directory : Location} {path : Path} {location : Location}
  (mode : Nat) (content : Content)

/-- Whether a path names a place that it does not name any more with the entry there taken away. -/
def CrossesItself (tree : FileTree) (directory : Location) (path : Path) : Prop :=
  ∃ location, tree.place directory path = .ok location ∧
    FileTree.place (tree.erase location) directory path ≠ .ok location

theorem not_crossesItself_iff (hplace : tree.place directory path = .ok location) :
    ¬ tree.CrossesItself directory path ↔
      FileTree.place (tree.erase location) directory path = .ok location := by
  constructor
  · intro h
    by_contra hother
    exact h ⟨location, hplace, hother⟩
  · rintro h ⟨other, hother, hne⟩
    obtain rfl := Except.ok.inj (hplace.symm.trans hother)
    exact hne h

/-- For the names of places, a file counts as little as no entry. -/
theorem place_put_file_iff_erase {named : Location} (hne : location ≠ []) :
    FileTree.place (tree.put location (.file mode content)) directory path = .ok named ↔
      FileTree.place (tree.erase location) directory path = .ok named := by
  rw [← tree.put_erase location]
  exact place_put_file_iff _ (tree.vacant_erase location) hne

/-- A path that does not cross itself leads to a file put at its place. -/
theorem readText_put_file {text : String} (hplace : tree.place directory path = .ok location)
    (h : ¬ tree.CrossesItself directory path) :
    FileTree.readText (tree.put location (.file mode (.text text))) directory path = .ok text := by
  have hne := ne_nil_of_place hplace
  have hentry := entry?_put_self tree (.file mode (.text text)) hne
  have hkept := (place_put_file_iff_erase mode (.text text) hne).2
    ((not_crossesItself_iff hplace).1 h)
  exact (readText_eq_ok_iff text).2 ⟨location, mode, resolve_of_place hkept hentry, hentry⟩

/-- A path names its place with a file there too, or it is stopped by that file. -/
theorem place_or_stopped (hplace : tree.place directory path = .ok location)
    (hfree : ∀ other, tree.entry? location ≠ some (.directory other)) :
    FileTree.place (tree.put location (.file mode content)) directory path = .ok location ∨
      FileTree.resolve (tree.put location (.file mode content)) directory path =
        .error .notDirectory := by
  have hfile := entry?_put_self tree (.file mode content) (ne_nil_of_place hplace)
  have hothers : ∀ other, other ≠ location →
      FileTree.entry? (tree.put location (.file mode content)) other = tree.entry? other :=
    fun other hother => entry?_put_of_ne tree _ hother
  obtain ⟨hcheck, hslash, start, name, parent, hnames, hdot, hup, hshort, hleads, rfl⟩ :=
    place_eq_ok_iff.1 hplace
  obtain ⟨hstart, other, hdir⟩ := leads_append_stay_iff.1 hleads
  rw [← hothers parent (by simp)] at hdir
  refine (hstart.kept_or_stopped hfile hothers hfree).imp (fun hkept => ?_) fun hstopped => ?_
  · exact place_eq_ok_iff.2 ⟨hcheck, hslash, start, name, parent, hnames, hdot, hup, hshort,
      leads_append_stay_iff.2 ⟨hkept, other, hdir⟩, rfl⟩
  · rw [resolve, hcheck, steps_eq_names hslash, hnames]
    exact hstopped name

/-- A path that crosses itself is stopped by a file put at its place. -/
theorem readText_of_crossesItself (hplace : tree.place directory path = .ok location)
    (hfree : ∀ other, tree.entry? location ≠ some (.directory other))
    (h : tree.CrossesItself directory path) :
    FileTree.readText (tree.put location (.file mode content)) directory path =
      .error .notDirectory := by
  rcases place_or_stopped mode content hplace hfree with hkept | hstopped
  · have herased := (place_put_file_iff_erase mode content (ne_nil_of_place hplace)).1 hkept
    exact absurd h ((not_crossesItself_iff hplace).2 herased)
  · rw [readText, hstopped]
    rfl

/-- What a path crosses at its own place is a link. -/
theorem exists_link_of_crossesItself (hplace : tree.place directory path = .ok location)
    (hfree : ∀ other, tree.entry? location ≠ some (.directory other))
    (h : tree.CrossesItself directory path) :
    ∃ target, tree.entry? location = some (.link target) := by
  have hothers : ∀ other, other ≠ location →
      tree.entry? other = FileTree.entry? (tree.erase location) other :=
    fun other hother => (entry?_erase_of_ne tree hother).symm
  cases hentry : tree.entry? location with
  | none =>
      refine absurd h ((not_crossesItself_iff hplace).2 (place_of_entries_kept ?_ hplace))
      intro other entry hother
      rwa [← hothers]
      rintro rfl
      rw [hentry] at hother
      cases hother
  | some entry =>
      cases entry with
      | directory other => exact absurd hentry (hfree other)
      | file other held =>
          exact absurd h ((not_crossesItself_iff hplace).2
            (place_of_extra_file hentry hothers hplace))
      | link target => exact ⟨target, rfl⟩

end Crossing

end FileTree

/-! ## Sessions -/

namespace Session

/-- Saves lines under conditions, which is told if it succeeds. -/
def saveUnder (conditions : FileTree.Conditions) (session : Session) (path : Path)
    (lines : List String) (template : Option Path) : Except StoreFault Unit × Session :=
  match FileTree.saveUnder conditions session.tree session.directory path lines template with
  | (.error fault, tree) =>
    (.error (.unwritable path fault.message), { session with tree := tree })
  | (.ok (), tree) =>
    (.ok (), { session with tree := tree }.keep [.saved path lines])

/-- What a save leaves that succeeds. -/
structure Saved (conditions : FileTree.Conditions) (session : Session) (path : Path)
    (lines : List String) (template : Option Path) (location : Location) (after : Session) :
    Prop where
  /-- The path named the location, where no directory stood. -/
  place : session.tree.place session.directory path = .ok location
  free : ∀ mode, session.tree.entry? location ≠ some (.directory mode)
  /-- A regular file stands there that holds the lines. -/
  entry : ∃ mode, after.tree.entry? location = some (.file mode (.text (String.join lines))) ∧
    session.tree.SavedMode conditions.mask session.directory path template mode
  /-- Every other entry is as it was. -/
  others : ∀ other, other ≠ location → after.tree.entry? other = session.tree.entry? other
  directory : after.directory = session.directory
  /-- The text is loaded again from a path that did not cross itself. -/
  load : ¬ session.tree.CrossesItself session.directory path →
    (after.load path).1 = .ok (Source.ofText (String.join lines))
  /-- A path that crossed itself went through a link that is replaced. -/
  lost : session.tree.CrossesItself session.directory path →
    (∃ target, session.tree.entry? location = some (.link target)) ∧
      (after.load path).1 = .error (.unreadable path FileFault.notDirectory.message)

section Save

variable (session : Session) (path : Path)

theorem load_of_readText {text : String} (h : session.readText path = .ok text) :
    (session.load path).1 = .ok (Source.ofText text) := by
  rw [load, h]

theorem load_of_readText_error {fault : FileFault} (h : session.readText path = .error fault) :
    (session.load path).1 = .error (.unreadable path fault.message) := by
  rw [load, h]

/-- A file with the lines at the place of the path is what a save leaves that succeeds. -/
theorem saved_of_put {conditions : FileTree.Conditions} {session after : Session} {path : Path}
    {lines : List String} {template : Option Path} {location : Location}
    (h : session.tree.Saveable conditions session.directory path lines template location)
    (htree : after.tree = session.tree.put location
      (.file (session.tree.savedMode conditions session.directory path template)
        (.text (String.join lines))))
    (hdirectory : after.directory = session.directory) :
    session.Saved conditions path lines template location after where
  place := h.place
  free := h.free
  entry := by
    rw [htree]
    exact ⟨_, FileTree.entry?_put_self _ _ (FileTree.ne_nil_of_place h.place),
      FileTree.savedMode_spec ..⟩
  others other hother := by
    rw [htree]
    exact FileTree.entry?_put_of_ne _ _ hother
  directory := hdirectory
  load hcrosses := by
    refine load_of_readText after path ?_
    rw [readText, htree, hdirectory]
    exact FileTree.readText_put_file _ h.place hcrosses
  lost hcrosses := by
    refine ⟨FileTree.exists_link_of_crossesItself h.place h.free hcrosses,
      load_of_readText_error after path ?_⟩
    rw [readText, htree, hdirectory]
    exact FileTree.readText_of_crossesItself _ _ h.place h.free hcrosses

/-- A session saves as under the usual conditions. -/
theorem save_eq_saveUnder (lines : List String) (template : Option Path) :
    session.save path lines template = session.saveUnder .usual path lines template := by
  have hsave := FileTree.save_eq_saveUnder session.tree session.directory path lines template
  unfold save saveUnder
  generalize FileTree.saveUnder .usual session.tree session.directory path lines template = result
    at hsave ⊢
  rcases result with ⟨fault | ⟨⟩, tree⟩
  · simp only [hsave]
  · simp only [hsave]

end Save

/-- **Saves are atomic.** A session saves as under the usual conditions. Under any conditions a save
that has all it needs succeeds: at the place of the path stands a regular file with the lines and
the right permissions, and nothing else has changed. Any other save fails and leaves the session as
it was. The text is loaded again from a path that does not go through its own place; a path that
does is stopped by the new file, which replaced a link. -/
theorem save_atomic (conditions : FileTree.Conditions) (session : Session) (path : Path)
    (lines : List String) (template : Option Path) :
    session.save path lines template = session.saveUnder .usual path lines template ∧
    ((∃ location after,
        session.tree.Saveable conditions session.directory path lines template location ∧
        session.saveUnder conditions path lines template = (.ok (), after) ∧
        session.Saved conditions path lines template location after) ∨
      (∀ location,
        ¬ session.tree.Saveable conditions session.directory path lines template location) ∧
        ∃ cause, session.saveUnder conditions path lines template =
          (.error (.unwritable path cause), session)) := by
  refine ⟨save_eq_saveUnder session path lines template, ?_⟩
  rw [saveUnder]
  rcases FileTree.saveUnder_cases conditions session.tree session.directory path lines template
    with ⟨location, hsaveable, hsaved⟩ | ⟨hnot, fault, hfailed⟩
  · rw [hsaved]
    exact Or.inl ⟨location, _, hsaveable, rfl, saved_of_put hsaveable rfl rfl⟩
  · rw [hfailed]
    exact Or.inr ⟨hnot, _, rfl⟩

/-- A directory with a private file, and a link to another file. -/
def linkedSession : Session where
  directory := ["work"]
  tree := ⟨[(["work"], .directory 0o755), (["work", "in.ts"], .file 0o600 (.text "a\n")),
    (["work", "old.ts"], .file 0o644 (.text "b\n")), (["work", "out.ts"], .link ⟨"old.ts"⟩)]⟩
  journal := []

/-- A link is replaced by a file with the permissions of the template, and what the link led to
stays. On a full disk nothing changes. -/
theorem save_atomic_over_link :
    let full : FileTree.Conditions :=
      { FileTree.Conditions.usual with
        writing := fun _ => some (.other "No space left on device (os error 28)") }
    (∃ after, linkedSession.save ⟨"out.ts"⟩ ["x\n"] (some ⟨"in.ts"⟩) = (.ok (), after) ∧
      after.tree.entry? ["work", "out.ts"] = some (.file 0o600 (.text "x\n")) ∧
      after.tree.entry? ["work", "old.ts"] = some (.file 0o644 (.text "b\n")) ∧
      (after.load ⟨"out.ts"⟩).1 = .ok (Source.ofText "x\n")) ∧
    ∃ cause, linkedSession.saveUnder full ⟨"out.ts"⟩ ["x\n"] (some ⟨"in.ts"⟩) =
      (.error (.unwritable ⟨"out.ts"⟩ cause), linkedSession) := by
  intro full
  constructor
  · obtain ⟨hsave, hcases⟩ :=
      save_atomic .usual linkedSession ⟨"out.ts"⟩ ["x\n"] (some ⟨"in.ts"⟩)
    rw [hsave]
    rcases hcases with ⟨location, after, -, hran, hsaved⟩ | ⟨-, cause, hfailed⟩
    · have hplace : linkedSession.tree.place linkedSession.directory ⟨"out.ts"⟩ =
          .ok ["work", "out.ts"] := by decide +kernel
      obtain rfl := Except.ok.inj (hsaved.place.symm.trans hplace)
      have hcrosses : ¬ linkedSession.tree.CrossesItself linkedSession.directory ⟨"out.ts"⟩ :=
        (FileTree.not_crossesItself_iff hplace).2 (by decide +kernel)
      obtain ⟨mode, hentry, hmode⟩ := hsaved.entry
      have hprivate : mode = 0o600 := by
        have hlike : linkedSession.tree.mode? linkedSession.directory ⟨"in.ts"⟩ =
            some 0o600 := by decide +kernel
        cases hmode with
        | ofTemplate h => exact Option.some.inj ((FileTree.mode?_eq_some_iff.2 h).symm.trans hlike)
        | ofReplaced hno _ => exact absurd (FileTree.mode?_eq_some_iff.1 hlike) (hno _ rfl _)
        | fresh hno _ _ => exact absurd (FileTree.mode?_eq_some_iff.1 hlike) (hno _ rfl _)
      subst hprivate
      exact ⟨after, hran, hentry, (hsaved.others _ (by decide)).trans (by decide),
        hsaved.load hcrosses⟩
    · have hsucceeds : (linkedSession.saveUnder .usual ⟨"out.ts"⟩ ["x\n"]
          (some ⟨"in.ts"⟩)).1 = .ok () := by decide +kernel
      rw [hfailed] at hsucceeds
      cases hsucceeds
  · obtain ⟨-, ⟨location, -, hsaveable, -⟩ | ⟨-, hfailed⟩⟩ :=
      save_atomic full linkedSession ⟨"out.ts"⟩ ["x\n"] (some ⟨"in.ts"⟩)
    · cases hsaveable.allowed.writing 0 (by decide)
    · exact hfailed

/-- A directory with a link to itself. -/
def loopSession : Session where
  directory := ["work"]
  tree := ⟨[(["work"], .directory 0o755), (["work", "a"], .link ⟨"."⟩)]⟩
  journal := []

/-- A save replaces the link through which its own path goes, and what was saved is not loaded from
that path. -/
theorem saved_text_not_loaded :
    let result := loopSession.save ⟨"a/a"⟩ ["x\n"] none
    result.1 = .ok () ∧ (result.2.load ⟨"a/a"⟩).1 ≠ .ok (Source.ofText "x\n") ∧
      (result.2.load ⟨"a/a"⟩).1 =
        .error (.unreadable ⟨"a/a"⟩ "Not a directory (os error 20)") := by
  decide +kernel

end Session

end Excision
