import Excision.CommandLine.Run
import Excision.Proofs.RealPaths
import Excision.Session

/-!
# Programs on sessions

Programs on sessions are followed one step at a time. Most steps are quiet (`Session.Quiet`): they
read files and keep records, and leave the tree and the working directory as they were. Being quiet
goes through sequences of steps, so all that finds out what to remove is quiet
(`Session.quiet_resolve`).

Two facts are kept about the other steps. An output path is refused if it is seen to mean the input
file (`Session.run_checkOutput`). A cutter fails to read its input, or plans for what it reads and
saves the plan (`Session.run_cutter_cases`); `FileTree.Saves` lists the ways in which a save can
turn out.
-/

set_option autoImplicit false

namespace Excision

namespace Session

/-! ## Quiet programs -/

/-- Whether a program leaves the tree and the working directory as they are. -/
def Quiet {α : Type} (program : StateM Session α) : Prop :=
  ∀ session, (program.run session).2.tree = session.tree ∧
    (program.run session).2.directory = session.directory

section Quiet

variable {α β : Type}

theorem run_pure (a : α) (session : Session) :
    (pure a : StateM Session α).run session = (a, session) := rfl

theorem run_bind (program : StateM Session α) (next : α → StateM Session β) (session : Session) :
    (program >>= next).run session =
      (next (program.run session).1).run (program.run session).2 := rfl

theorem Quiet.pure (a : α) : Quiet (Pure.pure a : StateM Session α) :=
  fun _ => ⟨rfl, rfl⟩

theorem Quiet.bind {program : StateM Session α} {next : α → StateM Session β}
    (h : Quiet program) (hnext : ∀ a, Quiet (next a)) : Quiet (program >>= next) := by
  intro session
  obtain ⟨htree, hdirectory⟩ := h session
  obtain ⟨htree', hdirectory'⟩ := hnext (program.run session).1 (program.run session).2
  rw [run_bind]
  exact ⟨htree'.trans htree, hdirectory'.trans hdirectory⟩

theorem quiet_keep (records : List Record) :
    Quiet (Journaling.keep records : StateM Session Unit) :=
  fun _ => ⟨rfl, rfl⟩

theorem quiet_directory : Quiet (FileSystem.directory : StateM Session Path) :=
  fun _ => ⟨rfl, rfl⟩

theorem quiet_readText (path : Path) :
    Quiet (FileSystem.readText path : StateM Session (Except FileFault String)) :=
  fun _ => ⟨rfl, rfl⟩

theorem quiet_isFile (path : Path) : Quiet (FileSystem.isFile path : StateM Session Bool) :=
  fun _ => ⟨rfl, rfl⟩

theorem quiet_leads (path : Path) : Quiet (FileSystem.leads path : StateM Session Bool) :=
  fun _ => ⟨rfl, rfl⟩

/-! ## Finding out what to remove -/

theorem quiet_findIn (directories : List Path) :
    Quiet (ProjectFile.findIn directories : StateM Session (Option Path)) := by
  induction directories with
  | nil => exact Quiet.pure _
  | cons directory directories ih =>
      unfold ProjectFile.findIn
      refine (quiet_isFile _).bind fun found => ?_
      split
      · exact Quiet.pure _
      · refine (quiet_leads _).bind fun marked => ?_
        split
        · exact Quiet.pure _
        · exact ih

theorem quiet_find (start : Path) :
    Quiet (ProjectFile.find start : StateM Session (Option Path)) := by
  unfold ProjectFile.find
  exact (quiet_isFile _).bind fun _ => quiet_findIn _

theorem quiet_loadFrom (path : Path) :
    Quiet (Catalog.loadFrom path : StateM Session (Except CatalogFault LoadedCatalog)) := by
  unfold Catalog.loadFrom ProjectFile.load
  refine Quiet.bind ((quiet_readText path).bind fun text => ?_) fun file => ?_
  · split
    · exact Quiet.pure _
    · split <;> exact Quiet.pure _
  · split
    · exact Quiet.pure _
    · exact (quiet_keep _).bind fun _ => Quiet.pure _

theorem quiet_load (explicit : Option Path) (directory : Path) :
    Quiet (Catalog.load explicit directory :
      StateM Session (Except CatalogFault LoadedCatalog)) := by
  unfold Catalog.load
  cases explicit with
  | none =>
      refine (quiet_find directory).bind fun path => ?_
      cases path with
      | none => exact Quiet.pure _
      | some path => exact quiet_loadFrom path
  | some path => exact quiet_loadFrom path

/-- Without a project file above the directory, the catalog is the built-in one. -/
theorem run_load_of_not_found {directory : Path} {session : Session}
    (h : ((ProjectFile.find directory : StateM Session (Option Path)).run session).1 = none) :
    ((Catalog.load none directory : StateM Session (Except CatalogFault LoadedCatalog)).run
      session).1 = .ok ⟨.builtin, none⟩ := by
  unfold Catalog.load
  dsimp only
  rw [run_bind, h]
  rfl

theorem quiet_listed (request : SelectionRequest) :
    Quiet (request.listed : StateM Session (Except Failure (List String))) := by
  unfold SelectionRequest.listed
  split
  · exact Quiet.pure _
  · refine (quiet_readText _).bind fun text => ?_
    split <;> exact Quiet.pure _

/-- Resolving a selection touches no file. -/
theorem quiet_resolve (request : SelectionRequest) (config : Option Path)
    (operands : List String) :
    Quiet (request.resolve config operands : StateM Session (Except Failure Selection)) := by
  unfold SelectionRequest.resolve
  refine quiet_directory.bind fun directory => (quiet_load _ _).bind fun loaded => ?_
  split
  · exact Quiet.pure _
  · refine (quiet_listed request).bind fun listed => ?_
    split
    · exact Quiet.pure _
    · split <;> exact Quiet.pure _

end Quiet

/-- What is read depends on the files and not on the journal. -/
theorem readText_congr {session session' : Session} (htree : session'.tree = session.tree)
    (hdirectory : session'.directory = session.directory) :
    session'.readText = session.readText := by
  funext path
  rw [readText, readText, htree, hdirectory]

/-! ## The guard on the output path -/

/-- Whether two paths are seen to mean the same file: they have the same real path, or the real path
of one of them is not found and they are written alike. -/
def identifies (session : Session) (p q : Path) : Bool :=
  match session.tree.canonical? session.directory p,
    session.tree.canonical? session.directory q with
  | some p, some q => p = q
  | _, _ => p.isSame q

theorem identifies_congr {session session' : Session} (htree : session'.tree = session.tree)
    (hdirectory : session'.directory = session.directory) :
    session'.identifies = session.identifies := by
  funext p q
  rw [identifies, identifies, htree, hdirectory]

theorem run_sameFile (session : Session) (p q : Path) :
    (sameFile p q : StateM Session Bool).run session = (session.identifies p q, session) := by
  have hcanonical : ∀ path,
      (FileSystem.canonical? path : StateM Session (Option Path)).run session =
        (session.tree.canonical? session.directory path, session) := fun _ => rfl
  rw [sameFile, run_bind, hcanonical, run_bind, hcanonical, identifies]
  cases session.tree.canonical? session.directory p <;>
    cases session.tree.canonical? session.directory q <;> rfl

/-- An output path that is seen to mean the input file is refused, and no other. -/
theorem run_checkOutput (session : Session) (input output : Path) :
    (checkOutput input output : StateM Session (Except RequestFault Unit)).run session =
      (if session.identifies input output then .error (.outputIsInput output) else .ok (),
        session) := by
  rw [checkOutput, run_bind, run_sameFile]
  cases session.identifies input output <;> rfl

/-- If two paths lead to the same place and are not seen to mean the same file, they are written
differently and one of them has no real path. -/
theorem unseen_of_not_identifies {session : Session} {p q : Path}
    (h : session.identifies p q = false) {location : Location}
    (hp : session.tree.resolve session.directory p = .ok location)
    (hq : session.tree.resolve session.directory q = .ok location) :
    p.isSame q = false ∧ (session.tree.canonical? session.directory p = none ∨
      session.tree.canonical? session.directory q = none) := by
  rw [identifies, FileTree.canonical?_of_resolve hp, FileTree.canonical?_of_resolve hq] at h
  rw [FileTree.canonical?_of_resolve hp, FileTree.canonical?_of_resolve hq]
  generalize session.tree.spells _ _ p.steps = spelled at h ⊢
  generalize session.tree.spells _ _ q.steps = spelled' at h ⊢
  cases spelled with
  | false => exact ⟨h, Or.inl rfl⟩
  | true =>
      cases spelled' with
      | false => exact ⟨h, Or.inr rfl⟩
      | true =>
          -- two real paths would be the same
          simp at h

end Session

/-! ## Carrying out a plan -/

/-- What a run does about its output, with the status it reports and the tree it leaves. Without an
output nothing is saved. A save that fails leaves the tree as it was. Otherwise the text is saved
with the permissions of the input. -/
inductive FileTree.Saves (tree : FileTree) (directory : Location) (text : String) (input : Path) :
    Option Path → WriteStatus → FileTree → Prop
  | skipped : Saves tree directory text input none .skipped tree
  | failed {path : Path} (fault : StoreFault)
      (h : ∀ after, tree.save directory path text (some input) ≠ (.ok (), after)) :
      Saves tree directory text input (some path) (.failed fault) tree
  | written {path : Path} {after : FileTree}
      (h : tree.save directory path text (some input) = (.ok (), after)) :
      Saves tree directory text input (some path) (.written path) after

namespace Session

theorem run_modifyGet {α : Type} (f : Session → α × Session) (session : Session) :
    (modifyGet f : StateM Session α).run session = f session := rfl

theorem run_load (session : Session) (path : Path) :
    (Store.load path : StateM Session (Except StoreFault Source)).run session =
      session.load path :=
  run_modifyGet _ _

theorem run_save (session : Session) (path : Path) (lines : List String)
    (template : Option Path) :
    (Store.save path lines template : StateM Session (Except StoreFault Unit)).run session =
      session.save path lines template :=
  run_modifyGet _ _

/-- A save that fails leaves the tree as it was. -/
theorem tree_of_save_error {session after : Session} {path : Path} {lines : List String}
    {template : Option Path} {fault : StoreFault}
    (h : session.save path lines template = (.error fault, after)) :
    (∀ tree, session.tree.save session.directory path (String.join lines) template ≠
        (.ok (), tree)) ∧
      after.tree = session.tree := by
  unfold save at h
  split at h
  · next hsave =>
    obtain ⟨-, rfl⟩ := Prod.mk.inj h
    exact ⟨fun tree => by simp [hsave], FileTree.tree_of_save_error hsave⟩
  · cases h

theorem tree_save_of_save_ok {session after : Session} {path : Path} {lines : List String}
    {template : Option Path} (h : session.save path lines template = (.ok (), after)) :
    session.tree.save session.directory path (String.join lines) template =
      (.ok (), after.tree) := by
  unfold save at h
  split at h
  · cases h
  · next hsave =>
    obtain ⟨-, rfl⟩ := Prod.mk.inj h
    exact hsave

theorem saves_of_run_save (plan : Plan) (source : Source) (input : Path) (output : Option Path)
    (session : Session) {after : Session} {status : WriteStatus}
    (h : (plan.save source input output : StateM Session WriteStatus).run session =
      (status, after)) :
    session.tree.Saves session.directory (String.join (plan.retained source)) input output status
      after.tree := by
  cases output with
  | none =>
      obtain ⟨rfl, rfl⟩ := Prod.mk.inj h
      exact .skipped
  | some path =>
      rw [Plan.save, run_bind, run_save] at h
      rcases hsave : session.save path (plan.retained source) (some input) with ⟨fault | ⟨⟩, saved⟩
      · rw [hsave] at h
        obtain ⟨rfl, rfl⟩ := Prod.mk.inj h
        obtain ⟨hfails, hsame⟩ := tree_of_save_error hsave
        show session.tree.Saves _ _ _ _ _ saved.tree
        rw [hsame]
        exact .failed fault hfails
      · rw [hsave] at h
        obtain ⟨rfl, rfl⟩ := Prod.mk.inj h
        have hsaved := tree_save_of_save_ok hsave
        exact .written hsaved

/-- A cutter fails to read its input, or plans for what it reads and saves the plan. -/
theorem run_cutter_cases {cutter : Cutter} {input : Path} {output : Option Path}
    {names : List String} {session after : Session} {result : Except StoreFault Run}
    (h : (cutter.run input output names : StateM Session (Except StoreFault Run)).run session =
      (result, after)) :
    (∃ fault, result = .error fault ∧ (∀ text, session.readText input ≠ .ok text) ∧
        after.tree = session.tree) ∨
      ∃ text status, session.readText input = .ok text ∧
        result = .ok ⟨cutter.plan (Source.ofText text) names, status⟩ ∧
        session.tree.Saves session.directory
          (String.join ((cutter.plan (Source.ofText text) names).retained (Source.ofText text)))
          input output status after.tree := by
  rw [Cutter.run, run_bind, run_load, load] at h
  cases htext : session.readText input with
  | error fault =>
      rw [htext] at h
      obtain ⟨rfl, rfl⟩ := Prod.mk.inj h
      exact Or.inl ⟨_, rfl, by simp, rfl⟩
  | ok text =>
      rw [htext] at h
      simp only [run_bind, run_pure] at h
      obtain ⟨rfl, rfl⟩ := Prod.mk.inj h
      -- up to the save only records were kept
      have hsaves := saves_of_run_save (cutter.plan (Source.ofText text) names)
        (Source.ofText text) input output
        ((session.keep [.loaded input (Source.ofText text)]).keep
          (cutter.journal (Source.ofText text) names)) rfl
      exact Or.inr ⟨text, _, rfl, rfl, hsaves⟩

end Session

end Excision
