import Excision.FileTree.SaveSteps
import Excision.Proofs.Saving

/-!
# What runs of saves come to

A save runs through its steps up to the first fault. Every step of filling changes nothing but the
temporary file (`FileTree.withFile_fillingSteps`), so this holds of filling however far it gets
(`FileTree.withFile_runSteps`). Without a fault the file holds all lines in the end
(`FileTree.foldl_fillingSteps`). No entry stood at the
temporary location before, so removing the file restores the tree, and renaming it moves it to the
place that the path named before (`FileTree.rename_put_eq_ok_iff`).

`FileTree.Saveable` lists what a save needs. A save that has all of it puts one file with the lines
at the place of the path; any other save fails and leaves the very tree it began with
(`FileTree.saveUnder_cases`). Saving by the files alone is saving under the usual conditions
(`FileTree.save_eq_saveUnder`).
-/

set_option autoImplicit false

namespace Excision

namespace FileTree

/-! ## Changes at one location -/

section Changes

variable (tree : FileTree) {location : Location}

theorem put_put (location : Location) (entry other : Entry) :
    (tree.put location entry).put location other = tree.put location other := by
  show FileTree.mk ((location, other) :: ((tree.put location entry).erase location).entries) = _
  rw [erase_put]
  rfl

theorem erase_erase (location : Location) : (tree.erase location).erase location =
    tree.erase location := by
  simp [erase]

/-- An entry is put where nothing stands any more. -/
theorem put_erase (location : Location) (entry : Entry) :
    (tree.erase location).put location entry = tree.put location entry := by
  show FileTree.mk ((location, entry) :: ((tree.erase location).erase location).entries) = _
  rw [erase_erase]
  rfl

theorem vacant_erase (location : Location) : (tree.erase location).Vacant location := by
  intro held hheld
  simpa using (List.mem_filter.1 hheld).2

variable {mode : Nat} {content : Content} {text : String}

theorem write_put (h : location ≠ []) (more : String) :
    (tree.put location (.file mode (.text text))).write location more =
      tree.put location (.file mode (.text (text ++ more))) := by
  rw [write, entry?_put_self tree _ h]
  exact tree.put_put _ _ _

theorem permit_put (h : location ≠ []) (other : Nat) :
    (tree.put location (.file mode content)).permit location other =
      tree.put location (.file other content) := by
  rw [permit, entry?_put_self tree _ h]
  exact tree.put_put _ _ _

/-- A file put where no entry stands does not change which places paths name. -/
theorem place_put_file_iff {directory : Location} {path : Path} {extra : Location}
    (hvacant : tree.Vacant extra) (hne : extra ≠ []) :
    FileTree.place (tree.put extra (.file mode content)) directory path = .ok location ↔
      tree.place directory path = .ok location := by
  have hfile := entry?_put_self tree (.file mode content) hne
  have hothers : ∀ other, other ≠ extra →
      FileTree.entry? (tree.put extra (.file mode content)) other = tree.entry? other :=
    fun other hother => entry?_put_of_ne tree _ hother
  constructor
  · exact place_of_extra_file hfile hothers
  · refine place_of_entries_kept fun other entry hentry => ?_
    rw [hothers other, hentry]
    rintro rfl
    rw [hvacant.entry?_eq_none hne] at hentry
    cases hentry

end Changes

/-! ## Steps -/

section Steps

variable {steps : List Step} {tree : FileTree}

/-- What every step keeps is kept up to the first fault. -/
theorem runSteps_keeps {P : FileTree → Prop}
    (hstep : ∀ step ∈ steps, ∀ now, P now → P (step.change now)) (h : P tree) :
    P (runSteps steps tree).2 := by
  induction steps generalizing tree with
  | nil => exact h
  | cons step steps ih =>
      obtain ⟨hfirst, hothers⟩ := List.forall_mem_cons.1 hstep
      rw [runSteps]
      cases step.fault? with
      | some fault => exact h
      | none => exact ih hothers (hfirst tree h)

/-- Steps that meet no fault are all made. -/
theorem runSteps_of_no_fault (h : ∀ step ∈ steps, step.fault? = none) :
    runSteps steps tree = (.ok (), steps.foldl (fun now step => step.change now) tree) := by
  induction steps generalizing tree with
  | nil => rfl
  | cons step steps ih =>
      obtain ⟨hfirst, hothers⟩ := List.forall_mem_cons.1 h
      rw [runSteps, hfirst]
      exact ih hothers

theorem exists_fault_of_runSteps (tree : FileTree) (h : ¬ ∀ step ∈ steps, step.fault? = none) :
    ∃ fault, (runSteps steps tree).1 = .error fault := by
  induction steps generalizing tree with
  | nil => exact absurd (List.forall_mem_nil _) h
  | cons step steps ih =>
      rw [runSteps]
      cases hfault : step.fault? with
      | some fault => exact ⟨fault, rfl⟩
      | none => exact ih _ fun hothers => h (List.forall_mem_cons.2 ⟨hfault, hothers⟩)

end Steps

/-- No step of a save meets a fault of the system. The lines are so many, and permissions may have
to be copied. -/
structure Conditions.Allow (conditions : Conditions) (lines : Nat) (copies : Bool) : Prop where
  making : conditions.making = none
  writing : ∀ index < lines, conditions.writing index = none
  flushing : conditions.flushing = none
  permitting : copies = true → conditions.permitting = none
  moving : conditions.moving = none

section Filling

variable (conditions : Conditions) {temporary : Location} (lines : List String)
  (mode? : Option Nat) (tree : FileTree)

theorem forall_writingSteps_iff (index : Nat) :
    (∀ step ∈ writingSteps conditions temporary index lines, step.fault? = none) ↔
      ∀ i < lines.length, conditions.writing (index + i) = none := by
  induction lines generalizing index with
  | nil => simp [writingSteps]
  | cons line lines ih =>
      rw [writingSteps, List.forall_mem_cons, ih]
      constructor
      · rintro ⟨hfirst, hothers⟩ i hi
        cases i with
        | zero => exact hfirst
        | succ i =>
            have hnext := hothers i (Nat.lt_of_succ_lt_succ hi)
            rwa [Nat.add_right_comm, Nat.add_assoc] at hnext
      · intro h
        refine ⟨h 0 (Nat.succ_pos _), fun i hi => ?_⟩
        rw [Nat.add_right_comm, Nat.add_assoc]
        exact h (i + 1) (Nat.succ_lt_succ hi)

theorem forall_fillingSteps_iff :
    (∀ step ∈ fillingSteps conditions temporary lines mode?, step.fault? = none) ↔
      (∀ index < lines.length, conditions.writing index = none) ∧ conditions.flushing = none ∧
        (mode?.isSome = true → conditions.permitting = none) := by
  rw [fillingSteps, List.forall_mem_append, forall_writingSteps_iff, List.forall_mem_cons]
  simp only [Nat.zero_add]
  cases mode? <;> simp

/-- A tree that differs from the given one in nothing but a file with a text at a location. -/
def WithFile (tree : FileTree) (location : Location) (now : FileTree) : Prop :=
  ∃ mode text, now = tree.put location (.file mode (.text text))

theorem withFile_writingSteps (hne : temporary ≠ []) (index : Nat) :
    ∀ step ∈ writingSteps conditions temporary index lines,
      ∀ now, tree.WithFile temporary now → tree.WithFile temporary (step.change now) := by
  induction lines generalizing index with
  | nil => exact List.forall_mem_nil _
  | cons line lines ih =>
      refine List.forall_mem_cons.2 ⟨?_, ih (index + 1)⟩
      rintro now ⟨mode, text, rfl⟩
      exact ⟨mode, text ++ line, write_put tree hne line⟩

/-- Every step of filling changes nothing but the temporary file. -/
theorem withFile_fillingSteps (hne : temporary ≠ []) :
    ∀ step ∈ fillingSteps conditions temporary lines mode?,
      ∀ now, tree.WithFile temporary now → tree.WithFile temporary (step.change now) := by
  rw [fillingSteps, List.forall_mem_append, List.forall_mem_cons, List.forall_mem_map]
  refine ⟨withFile_writingSteps conditions lines tree hne 0, fun now hnow => hnow, ?_⟩
  rintro copied - now ⟨mode, text, rfl⟩
  exact ⟨copied, text, permit_put tree hne copied⟩

/-- However far filling gets, it changes nothing but the temporary file. -/
theorem withFile_runSteps (hne : temporary ≠ []) (mode : Nat) (text : String) :
    tree.WithFile temporary (runSteps (fillingSteps conditions temporary lines mode?)
      (tree.put temporary (.file mode (.text text)))).2 :=
  runSteps_keeps (withFile_fillingSteps conditions lines mode? tree hne) ⟨mode, text, rfl⟩

/-- Lines written one by one are written in a row. -/
theorem foldl_writingSteps (hne : temporary ≠ []) (index mode : Nat) (text : String) :
    (writingSteps conditions temporary index lines).foldl (fun now step => step.change now)
        (tree.put temporary (.file mode (.text text))) =
      tree.put temporary (.file mode (.text (text ++ String.join lines))) := by
  induction lines generalizing index text with
  | nil => simp [writingSteps]
  | cons line lines ih =>
      rw [writingSteps, List.foldl_cons]
      dsimp only
      rw [write_put tree hne, ih, String.join_cons, String.append_assoc]

/-- A file that is filled without a fault holds the lines and has the permissions that are copied,
if any are. -/
theorem foldl_fillingSteps (hne : temporary ≠ []) (mode : Nat) :
    (fillingSteps conditions temporary lines mode?).foldl (fun now step => step.change now)
        (tree.put temporary (.file mode (.text ""))) =
      tree.put temporary (.file (mode?.getD mode) (.text (String.join lines))) := by
  rw [fillingSteps, List.foldl_append, foldl_writingSteps conditions lines tree hne,
    String.empty_append, List.foldl_cons]
  cases mode? with
  | none => rfl
  | some copied => exact permit_put tree hne copied

/-- Either no step of filling meets a fault, and the file is filled, or one does, and the file is
left in some state. -/
theorem runSteps_fillingSteps_cases (hne : temporary ≠ []) (mode : Nat) :
    (∀ step ∈ fillingSteps conditions temporary lines mode?, step.fault? = none) ∧
        runSteps (fillingSteps conditions temporary lines mode?)
            (tree.put temporary (.file mode (.text ""))) =
          (.ok (), tree.put temporary (.file (mode?.getD mode) (.text (String.join lines)))) ∨
      (¬ ∀ step ∈ fillingSteps conditions temporary lines mode?, step.fault? = none) ∧
        ∃ fault entry, runSteps (fillingSteps conditions temporary lines mode?)
            (tree.put temporary (.file mode (.text ""))) =
          (.error fault, tree.put temporary entry) := by
  by_cases hall : ∀ step ∈ fillingSteps conditions temporary lines mode?, step.fault? = none
  · refine Or.inl ⟨hall, ?_⟩
    rw [runSteps_of_no_fault hall, foldl_fillingSteps conditions lines mode? tree hne]
  · obtain ⟨fault, hfault⟩ :=
      exists_fault_of_runSteps (tree.put temporary (.file mode (.text ""))) hall
    obtain ⟨mode', text', hput⟩ := withFile_runSteps conditions lines mode? tree hne mode ""
    exact Or.inr ⟨hall, fault, _, Prod.ext hfault hput⟩

end Filling

/-! ## Whole saves -/

section Save

variable {conditions : Conditions} {tree : FileTree} {directory : Location} {path : Path}
  {lines : List String} {template : Option Path} {location : Location}

/-- What a save needs to succeed: no step meets a fault of the system, the directory of the path is
there for the temporary file, whose path from the root is not too long, and the path names a place
where no directory stands. -/
structure Saveable (conditions : Conditions) (tree : FileTree) (directory : Location) (path : Path)
    (lines : List String) (template : Option Path) (location : Location) : Prop where
  allowed : conditions.Allow lines.length (tree.copiedMode? directory path template).isSome
  spelled : checkPath (temporaryPath directory (saveDirectory path)) = .ok ()
  parent : ∃ parent mode, tree.resolve directory (saveDirectory path) = .ok parent ∧
    tree.entry? parent = some (.directory mode)
  place : tree.place directory path = .ok location
  free : ∀ mode, tree.entry? location ≠ some (.directory mode)

/-- The permissions with which a file is saved. -/
def savedMode (conditions : Conditions) (tree : FileTree) (directory : Location) (path : Path)
    (template : Option Path) : Nat :=
  (tree.copiedMode? directory path template).getD (withoutMask conditions.mask newFileMode)

section Renaming

variable {temporary : Location} (mode : Nat) (content : Content)

/-- A file that is added stands in the way of no directory. -/
theorem free_put_file_iff (hvacant : tree.Vacant temporary) (hne : temporary ≠ []) :
    (∀ other, FileTree.entry? (tree.put temporary (.file mode content)) location ≠
        some (.directory other)) ↔
      ∀ other, tree.entry? location ≠ some (.directory other) := by
  refine forall_congr' fun other => not_congr ?_
  by_cases hlocation : location = temporary
  · rw [hlocation, entry?_put_self tree _ hne, hvacant.entry?_eq_none hne]
    simp
  · rw [entry?_put_of_ne tree _ hlocation]

/-- A file that stands where no entry stood is renamed to any place where no directory stands. -/
theorem rename_put_eq_ok_iff {after : FileTree} (hvacant : tree.Vacant temporary)
    (hne : temporary ≠ []) :
    FileTree.rename (tree.put temporary (.file mode content)) directory temporary path =
        .ok after ↔
      ∃ location, tree.place directory path = .ok location ∧
        (∀ other, tree.entry? location ≠ some (.directory other)) ∧
        after = tree.put location (.file mode content) := by
  have hentry := entry?_put_self tree (.file mode content) hne
  constructor
  · intro h
    obtain ⟨location, entry, hplace, hsource, hfree, rfl⟩ := rename_eq_ok h
    obtain rfl := Option.some.inj (hentry.symm.trans hsource)
    refine ⟨location, (place_put_file_iff tree hvacant hne).1 hplace,
      (free_put_file_iff mode content hvacant hne).1 hfree, ?_⟩
    rw [hvacant.erase_put]
  · rintro ⟨location, hplace, hfree, rfl⟩
    rw [rename_of_place ((place_put_file_iff tree hvacant hne).2 hplace) hentry
      ((free_put_file_iff mode content hvacant hne).2 hfree), hvacant.erase_put]

theorem move_eq_ok_iff {source : Location} {after : FileTree} :
    move conditions tree directory source path = .ok after ↔
      conditions.moving = none ∧ tree.rename directory source path = .ok after := by
  unfold move
  cases conditions.moving <;> simp

/-- The temporary file is moved to a free place that the path names, if the system lets it be. -/
theorem move_put_cases (conditions : Conditions) (directory : Location) (path : Path)
    (hvacant : tree.Vacant temporary) (hne : temporary ≠ []) :
    (∃ location, (conditions.moving = none ∧ tree.place directory path = .ok location ∧
          ∀ other, tree.entry? location ≠ some (.directory other)) ∧
        move conditions (tree.put temporary (.file mode content)) directory temporary path =
          .ok (tree.put location (.file mode content))) ∨
      (∀ location, ¬ (conditions.moving = none ∧ tree.place directory path = .ok location ∧
          ∀ other, tree.entry? location ≠ some (.directory other))) ∧
        ∃ cause, move conditions (tree.put temporary (.file mode content)) directory temporary
          path = .error cause := by
  cases hmove : move conditions (tree.put temporary (.file mode content)) directory temporary
    path with
  | ok after =>
      obtain ⟨hmoving, hrename⟩ := move_eq_ok_iff.1 hmove
      obtain ⟨location, hnamed, hfree, rfl⟩ :=
        (rename_put_eq_ok_iff mode content hvacant hne).1 hrename
      exact Or.inl ⟨location, ⟨hmoving, hnamed, hfree⟩, rfl⟩
  | error cause =>
      refine Or.inr ⟨?_, cause, rfl⟩
      rintro location ⟨hmoving, hnamed, hfree⟩
      have hrename := (rename_put_eq_ok_iff mode content hvacant hne).2
        ⟨location, hnamed, hfree, rfl⟩
      rw [move_eq_ok_iff.2 ⟨hmoving, hrename⟩] at hmove
      cases hmove

end Renaming

theorem makingPlace_eq_ok_iff {temporary : Location} :
    makingPlace conditions tree directory path = .ok temporary ↔
      conditions.making = none ∧ tree.temporaryPlace directory path = .ok temporary := by
  unfold makingPlace
  cases conditions.making <;> simp

/-- A save that has all it needs puts a file with the lines at the place of the path. Any other save
fails and leaves the tree as it was. -/
theorem saveUnder_cases (conditions : Conditions) (tree : FileTree) (directory : Location)
    (path : Path) (lines : List String) (template : Option Path) :
    (∃ location, Saveable conditions tree directory path lines template location ∧
        saveUnder conditions tree directory path lines template =
          (.ok (), tree.put location (.file (savedMode conditions tree directory path template)
            (.text (String.join lines))))) ∨
      (∀ location, ¬ Saveable conditions tree directory path lines template location) ∧
        ∃ fault, saveUnder conditions tree directory path lines template =
          (.error fault, tree) := by
  unfold saveUnder
  cases hmaking : makingPlace conditions tree directory (saveDirectory path) with
  | error cause =>
      -- nothing is made
      refine Or.inr ⟨fun location hsaveable => ?_, _, rfl⟩
      obtain ⟨parent, mode, hparent, hdirectory⟩ := hsaveable.parent
      have hplace := temporaryPlace_eq_ok_iff.2
        ⟨hsaveable.spelled, parent, mode, hparent, hdirectory, rfl⟩
      rw [makingPlace_eq_ok_iff.2 ⟨hsaveable.allowed.making, hplace⟩] at hmaking
      cases hmaking
  | ok temporary =>
      obtain ⟨hallowed, hplace⟩ := makingPlace_eq_ok_iff.1 hmaking
      obtain ⟨hvacant, hne⟩ := vacant_of_temporaryPlace hplace
      dsimp only
      rcases runSteps_fillingSteps_cases conditions lines
        (tree.copiedMode? directory path template) tree hne
        (withoutMask conditions.mask newFileMode) with
        ⟨hall, hfilled⟩ | ⟨hnot, cause, entry, hfilled⟩
      · obtain ⟨hwriting, hflushing, hpermitting⟩ := (forall_fillingSteps_iff ..).1 hall
        rw [hfilled, ← savedMode]
        dsimp only
        rcases move_put_cases (savedMode conditions tree directory path template)
          (.text (String.join lines)) conditions directory path hvacant hne with
          ⟨location, ⟨hmoving, hnamed, hfree⟩, hmoved⟩ | ⟨hnot, cause, hmoved⟩
        · rw [hmoved]
          obtain ⟨hspelled, parent, mode, hparent, hdirectory, -⟩ :=
            temporaryPlace_eq_ok_iff.1 hplace
          exact Or.inl ⟨location, ⟨⟨hallowed, hwriting, hflushing, hpermitting, hmoving⟩, hspelled,
            ⟨parent, mode, hparent, hdirectory⟩, hnamed, hfree⟩, rfl⟩
        · -- the filled file is removed
          rw [hmoved]
          refine Or.inr ⟨fun location hsaveable => ?_, _, by rw [hvacant.erase_put]⟩
          exact hnot location ⟨hsaveable.allowed.moving, hsaveable.place, hsaveable.free⟩
      · -- the file is removed, whatever it holds by then
        rw [hfilled]
        dsimp only
        refine Or.inr ⟨fun location hsaveable => ?_, _, by rw [hvacant.erase_put]⟩
        have hallowed := hsaveable.allowed
        exact hnot ((forall_fillingSteps_iff ..).2
          ⟨hallowed.writing, hallowed.flushing, hallowed.permitting⟩)

/-! ## The files alone -/

theorem Conditions.usual_allow (lines : Nat) (copies : Bool) :
    Conditions.usual.Allow lines copies :=
  ⟨rfl, fun _ _ => rfl, rfl, fun _ => rfl, rfl⟩

theorem copiedMode?_eq (tree : FileTree) (directory : Location) (path : Path)
    (template : Option Path) : tree.copiedMode? directory path template =
      (template.bind (tree.mode? directory)).or (tree.mode? directory path) := by
  unfold copiedMode?
  cases template with
  | none => simp
  | some like => cases hmode : tree.mode? directory like <;> simp [hmode]

theorem saveMode_eq (tree : FileTree) (directory : Location) (path : Path)
    (template : Option Path) :
    tree.saveMode directory path template = savedMode .usual tree directory path template := by
  have hfresh : withoutMask Conditions.usual.mask newFileMode = newFileMode := rfl
  rw [saveMode, savedMode, copiedMode?_eq, hfresh]
  cases template.bind (tree.mode? directory) <;> rfl

/-- The files alone tell of a save what they tell under the usual conditions. -/
theorem save_eq_saveUnder (tree : FileTree) (directory : Location) (path : Path)
    (lines : List String) (template : Option Path) :
    tree.save directory path (String.join lines) template =
      saveUnder .usual tree directory path lines template := by
  have hmaking : makingPlace .usual tree directory (saveDirectory path) =
      tree.temporaryPlace directory (saveDirectory path) := rfl
  unfold save saveUnder
  rw [hmaking]
  cases hplace : tree.temporaryPlace directory (saveDirectory path) with
  | error cause => rfl
  | ok temporary =>
      obtain ⟨-, hne⟩ := vacant_of_temporaryPlace hplace
      have hallow := Conditions.usual_allow lines.length
        (tree.copiedMode? directory path template).isSome
      have hno : ∀ step ∈ fillingSteps .usual temporary lines
          (tree.copiedMode? directory path template), step.fault? = none :=
        (forall_fillingSteps_iff ..).2 ⟨hallow.writing, hallow.flushing, hallow.permitting⟩
      dsimp only
      rw [put_put, saveMode_eq, runSteps_of_no_fault hno, foldl_fillingSteps _ _ _ _ hne]
      rfl

end Save

end FileTree

end Excision
