import Excision.Proofs.Ancestors
import Excision.Proofs.Sessions

/-!
# The nearest project file

Seen from a directory, or from a file in it, the project file is looked for in that directory and in
the directories above it up to the root. Which of them is the answer can be said without the search
(`ProjectFile.IsNearest`): the first one that holds a project file, if no directory strictly before
it is the root of a repository. Whether a directory holds something is decided by where the path
leads, links followed (`FileTree.Holds`, `FileTree.Contains`).

The search goes through the directories one by one and asks for the project file before it asks for
the mark of a repository (`ProjectFile.run_findIn`). So a project file in the root of a repository
is found, and one beyond it is not (`ProjectFile.find_nearest`).
-/

set_option autoImplicit false

namespace Excision

namespace FileTree

variable (tree : FileTree) (here : Location) (directory name : Path)

/-- Whether a path leads to a regular file. -/
def LeadsToFile (path : Path) : Prop :=
  ∃ location mode content, tree.resolve here path = .ok location ∧
    tree.entry? location = some (.file mode content)

/-- Whether there is a regular file of a name in a directory. -/
def Holds : Prop := tree.LeadsToFile here (directory.join name)

/-- Whether there is anything of a name in a directory. -/
def Contains : Prop :=
  ∃ location entry, tree.resolve here (directory.join name) = .ok location ∧
    tree.entry? location = some entry

theorem isFile_iff (path : Path) : tree.isFile here path = true ↔ tree.LeadsToFile here path := by
  unfold isFile target? LeadsToFile
  cases tree.resolve here path with
  | error fault => simp
  | ok location =>
      cases hentry : tree.entry? location with
      | none => simp [hentry]
      | some entry => cases entry <;> simp [hentry, Entry.isFile]

theorem exists?_iff : tree.exists? here (directory.join name) = true ↔
    tree.Contains here directory name := by
  unfold exists? target? Contains
  cases tree.resolve here (directory.join name) with
  | error fault => simp
  | ok location => simp [Option.isSome_iff_exists]

end FileTree

/-- The names on the way to a name in a directory. -/
theorem Path.names_join (directory : Path) {name : String} (hne : name ≠ "")
    (h : '/' ∉ name.toList) : (directory.join ⟨name⟩).names = directory.names ++ [name] := by
  have hname : (pieces ⟨name⟩).filter (· ≠ "") = [name] := by
    rw [pieces_of_slash_not_mem h, List.filter_cons_of_pos (by simpa using hne), List.filter_nil]
  have hrelative : isAbsolute ⟨name⟩ = false := by
    rw [isAbsolute, beq_eq_false_iff_ne]
    exact fun hhead => h (List.mem_of_head? hhead)
  rw [join, hrelative, if_neg Bool.false_ne_true]
  split
  · next hends =>
    rw [Bool.or_eq_true, decide_eq_true_eq] at hends
    rcases hends with hempty | hslash
    · -- nothing stands before the name
      rw [names, names, hempty, String.empty_append, hname, pieces, hempty]
      rfl
    · -- the slash at the end is the one before the name
      obtain ⟨start, hstart⟩ : ∃ start, directory.text = start ++ "/" := by
        rw [hasTrailingSlash, beq_iff_eq] at hslash
        obtain ⟨start, hstart⟩ := List.getLast?_eq_some_iff.1 hslash
        exact ⟨String.ofList start, String.toList_inj.1 (by rw [hstart]; simp)⟩
      have hdirectory : directory = ⟨start ++ "/" ++ ""⟩ := by
        rw [String.append_empty, ← hstart]
      have hnone : (pieces ⟨""⟩).filter (· ≠ "") = [] := rfl
      rw [names, names, hstart, pieces_append_slash, hdirectory, pieces_append_slash,
        List.filter_append, List.filter_append, hname, hnone, List.append_nil]
  · rw [names, pieces_append_slash, List.filter_append, hname]
    rfl

namespace ProjectFile

open Session

/-- A directory of a chain is the nearest one with a project file: no directory before it holds one
or is the root of a repository. -/
def IsNearest (session : Session) (chain : List Path) (directory : Path) : Prop :=
  ∃ nearer further, chain = nearer ++ directory :: further ∧
    session.tree.Holds session.directory directory fileName ∧
    ∀ other ∈ nearer, ¬ session.tree.Holds session.directory other fileName ∧
      ¬ session.tree.Contains session.directory other repositoryMark

section Search

variable {session : Session} {first : Path} {chain : List Path}

theorem not_isNearest_nil (directory : Path) : ¬ IsNearest session [] directory := by
  rintro ⟨nearer, further, hchain, -⟩
  simp at hchain

/-- The first directory of a chain is the nearest one if it holds a project file; else, if it is no
root of a repository, it is one of the others. -/
theorem isNearest_cons_iff (directory : Path) :
    IsNearest session (first :: chain) directory ↔
      (directory = first ∧ session.tree.Holds session.directory first fileName) ∨
      (¬ session.tree.Holds session.directory first fileName ∧
        ¬ session.tree.Contains session.directory first repositoryMark ∧
        IsNearest session chain directory) := by
  constructor
  · rintro ⟨nearer, further, hchain, hholds, hbefore⟩
    cases nearer with
    | nil =>
        obtain ⟨rfl, rfl⟩ := List.cons.inj hchain
        exact Or.inl ⟨rfl, hholds⟩
    | cons other nearer =>
        obtain ⟨rfl, rfl⟩ := List.cons.inj hchain
        obtain ⟨⟨hnot, hunmarked⟩, hbefore⟩ := List.forall_mem_cons.1 hbefore
        exact Or.inr ⟨hnot, hunmarked, nearer, further, rfl, hholds, hbefore⟩
  · rintro (⟨rfl, hholds⟩ | ⟨hnot, hunmarked, nearer, further, rfl, hholds, hbefore⟩)
    · exact ⟨[], chain, rfl, hholds, List.forall_mem_nil _⟩
    · exact ⟨first :: nearer, further, rfl, hholds,
        List.forall_mem_cons.2 ⟨⟨hnot, hunmarked⟩, hbefore⟩⟩

theorem run_isFile (session : Session) (path : Path) :
    (FileSystem.isFile path : StateM Session Bool).run session =
      (session.tree.isFile session.directory path, session) := rfl

theorem run_leads (session : Session) (path : Path) :
    (FileSystem.leads path : StateM Session Bool).run session =
      (session.tree.exists? session.directory path, session) := rfl

/-- One step of the search. -/
theorem run_findIn_cons (session : Session) (first : Path) (chain : List Path) :
    (findIn (first :: chain) : StateM Session (Option Path)).run session =
      if session.tree.isFile session.directory (first.join fileName) then
        (some (first.join fileName), session)
      else if session.tree.exists? session.directory (first.join repositoryMark) then
        (none, session)
      else (findIn chain : StateM Session (Option Path)).run session := by
  rw [findIn, run_bind, run_isFile]
  cases session.tree.isFile session.directory (first.join fileName) with
  | true => rfl
  | false =>
      dsimp only
      rw [if_neg Bool.false_ne_true, if_neg Bool.false_ne_true, run_bind, run_leads]
      cases session.tree.exists? session.directory (first.join repositoryMark) <;> rfl

/-- The search in a chain of directories finds the project file of the nearest one. -/
theorem run_findIn (session : Session) (chain : List Path) :
    ∃ found, (findIn chain : StateM Session (Option Path)).run session = (found, session) ∧
      ∀ path, found = some path ↔
        ∃ directory, IsNearest session chain directory ∧ path = directory.join fileName := by
  induction chain with
  | nil => exact ⟨none, rfl, fun path => by simp [not_isNearest_nil]⟩
  | cons first chain ih =>
      rw [run_findIn_cons]
      simp only [isNearest_cons_iff]
      by_cases hholds : session.tree.Holds session.directory first fileName
      · have hfile := (FileTree.isFile_iff ..).2 hholds
        refine ⟨some (first.join fileName), by rw [if_pos hfile], fun path => ?_⟩
        simp [hholds, eq_comm]
      · have hfile := mt (FileTree.isFile_iff ..).1 hholds
        by_cases hmarked : session.tree.Contains session.directory first repositoryMark
        · have hleads := (FileTree.exists?_iff ..).2 hmarked
          refine ⟨none, by rw [if_neg hfile, if_pos hleads], fun path => ?_⟩
          simp [hholds, hmarked]
        · have hleads := mt (FileTree.exists?_iff ..).1 hmarked
          obtain ⟨found, hrun, hfound⟩ := ih
          refine ⟨found, by rw [if_neg hfile, if_neg hleads, hrun], fun path => ?_⟩
          simpa [hholds, hmarked] using hfound path

end Search

/-! ## The search from a path -/

/-- The directory from which the search goes upwards: the start, or the one above it if the start is
a regular file. -/
def startDirectory (session : Session) (start : Path) : Path :=
  if session.tree.isFile session.directory start then start.parent?.getD start else start

section Start

variable {session : Session} {start : Path}

theorem run_find (session : Session) (start : Path) :
    (find start : StateM Session (Option Path)).run session =
      (findIn (startDirectory session start).ancestors : StateM Session (Option Path)).run
        session := by
  rw [find, run_bind, run_isFile]
  rfl

theorem startDirectory_of_not_file (h : ¬ session.tree.LeadsToFile session.directory start) :
    startDirectory session start = start :=
  if_neg (mt (FileTree.isFile_iff ..).1 h)

theorem startDirectory_of_file (hstart : start.IsStraight)
    (h : session.tree.LeadsToFile session.directory start) :
    (startDirectory session start).names = start.names.dropLast ∧
      (startDirectory session start).IsStraight ∧
      ∃ rest, start.text = (startDirectory session start).text ++ rest := by
  rw [startDirectory, if_pos ((FileTree.isFile_iff ..).2 h)]
  cases hparent : start.parent? with
  | none =>
      rw [Option.getD_none, hstart.parent?_eq_none_iff.1 hparent]
      exact ⟨rfl, hstart, "", String.append_empty.symm⟩
  | some parent =>
      obtain ⟨hstraight, hnames⟩ := hstart.of_parent? hparent
      obtain ⟨rest, -, htext⟩ := Path.exists_text_eq_append hparent
      exact ⟨hnames, hstraight, rest, htext⟩

/-- **The nearest project file is found.** Let the start be a path from the root without `.` and
`..`, and let the chain be its directory and the directories above. If the start is no regular file
its directory is itself; otherwise that is the path without the last name. In any case the names of
the chain are those of the directory with ever fewer names at the end, down to the root, and the
texts are beginnings of the start. The search ends and changes nothing. It finds the project file of
the first directory that holds one, unless a directory strictly before it is the root of a
repository; if there is no such directory it finds nothing. -/
theorem find_nearest (session : Session) (start : Path) (hstart : start.IsStraight) :
    let ran := (find start : StateM Session (Option Path)).run session
    let chain := (startDirectory session start).ancestors
    ran.2 = session ∧
      (session.tree.LeadsToFile session.directory start →
        chain.map Path.names = start.names.dropLast.inits.reverse) ∧
      (¬ session.tree.LeadsToFile session.directory start →
        chain.head? = some start ∧ chain.map Path.names = start.names.inits.reverse) ∧
      (∀ directory ∈ chain, directory.IsStraight ∧
        (∃ rest, start.text = directory.text ++ rest) ∧
        (directory.join fileName).names = directory.names ++ [".methodprune.toml"]) ∧
      (∀ path, ran.1 = some path ↔
        ∃ directory, IsNearest session chain directory ∧ path = directory.join fileName) ∧
      (ran.1 = none ↔ ∀ directory, ¬ IsNearest session chain directory) := by
  intro ran chain
  obtain ⟨found, hrun, hfound⟩ := run_findIn session chain
  have hran : ran = (found, session) := (run_find session start).trans hrun
  have hdirectory : (startDirectory session start).IsStraight ∧
      ∃ rest, start.text = (startDirectory session start).text ++ rest := by
    by_cases hfile : session.tree.LeadsToFile session.directory start
    · exact (startDirectory_of_file hstart hfile).2
    · rw [startDirectory_of_not_file hfile]
      exact ⟨hstart, "", String.append_empty.symm⟩
  obtain ⟨hstraight, rest, htext⟩ := hdirectory
  have hnames : chain.map Path.names = (startDirectory session start).names.inits.reverse :=
    hstraight.map_names_ancestors
  refine ⟨by rw [hran], fun hfile => ?_, fun hfile => ⟨?_, ?_⟩, fun directory hmem => ?_,
    fun path => by rw [hran]; exact hfound path, ?_⟩
  · rw [hnames, (startDirectory_of_file hstart hfile).1]
  · show (startDirectory session start).ancestors.head? = some start
    rw [startDirectory_of_not_file hfile, Path.ancestors_eq]
    rfl
  · rw [hnames, startDirectory_of_not_file hfile]
  · obtain ⟨hplain, more, hmore⟩ := hstraight.of_mem_ancestors directory hmem
    refine ⟨hplain, ⟨more ++ rest, ?_⟩, Path.names_join directory (by decide) (by decide)⟩
    rw [htext, hmore, String.append_assoc]
  · rw [hran, Option.eq_none_iff_forall_ne_some]
    constructor
    · intro hnone directory hnearest
      exact hnone _ ((hfound _).2 ⟨directory, hnearest, rfl⟩)
    · intro hno path hpath
      obtain ⟨directory, hnearest, -⟩ := (hfound path).1 hpath
      exact hno directory hnearest

end Start

/-- A repository with a project file in its root. Deeper down stand a directory with the name of a
project file, another repository, and a link to a file. -/
def repositorySession : Session where
  directory := ["work"]
  tree := ⟨[(["work"], .directory 0o755), (["work", ".git"], .directory 0o755),
    (["work", ".methodprune.toml"], .link ⟨"shared.toml"⟩),
    (["work", "shared.toml"], .file 0o644 (.text "")),
    (["work", "src"], .directory 0o755),
    (["work", "src", ".methodprune.toml"], .directory 0o755),
    (["work", "src", "S.ts"], .link ⟨"../shared.toml"⟩),
    (["work", "vendor"], .directory 0o755),
    (["work", "vendor", ".git"], .file 0o644 (.text ""))]⟩
  journal := []

/-- From a file two levels down the project file in the root of the repository is found, beside the
mark of the repository. From the inner repository none is found. -/
theorem find_nearest_in_repository :
    let start : Path := ⟨"/work/src/S.ts"⟩
    let inner : Path := ⟨"//work//vendor/"⟩
    let chain := (startDirectory repositorySession start).ancestors
    start.IsStraight ∧ inner.IsStraight ∧
      repositorySession.tree.LeadsToFile repositorySession.directory start ∧
      chain.map Path.names = [["work", "src"], ["work"], []] ∧
      (∃ directory, IsNearest repositorySession chain directory ∧
        (⟨"/work/.methodprune.toml"⟩ : Path) = directory.join fileName) ∧
      repositorySession.tree.Contains repositorySession.directory ⟨"/work"⟩ repositoryMark ∧
      ∀ directory, ¬ IsNearest repositorySession
        (startDirectory repositorySession inner).ancestors directory := by
  intro start inner chain
  have hstart : start.IsStraight := ⟨by decide, by decide, by decide⟩
  have hinner : inner.IsStraight := ⟨by decide, by decide, by decide⟩
  have hfile : repositorySession.tree.LeadsToFile repositorySession.directory start :=
    (FileTree.isFile_iff ..).1 (by decide +kernel)
  obtain ⟨-, hchain, -, -, hfound, -⟩ := find_nearest repositorySession start hstart
  obtain ⟨-, -, -, -, -, hnone⟩ := find_nearest repositorySession inner hinner
  refine ⟨hstart, hinner, hfile, (hchain hfile).trans (by decide), ?_,
    (FileTree.exists?_iff ..).1 (by decide +kernel), ?_⟩
  · exact (hfound ⟨"/work/.methodprune.toml"⟩).1 (by decide +kernel)
  · exact hnone.1 (by decide +kernel)

end ProjectFile

end Excision
