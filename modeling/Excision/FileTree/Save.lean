import Excision.FileTree
import Excision.Text.Quoted

/-!
# Saving a file in one step

A file is saved through a temporary one. The temporary file is made in the directory of the
path, gets the whole text and the permissions, and is then renamed to the path. Renaming
replaces the entry of that name itself: a regular file, or a symbolic link and not what the
link leads to. A directory is not replaced. When any step fails, the temporary file is removed
again, and the tree is as it was.

The permissions are those of the template if it leads anywhere, else those of the file to be
replaced, else `0644`.
-/

set_option autoImplicit false

namespace Excision.FileTree

/-- The permissions of a new file. -/
def newFileMode : Nat := 0o644

/-- The location that a path names, for an entry to be put there. A final symbolic link is not
followed. -/
def place (tree : FileTree) (directory : Location) (path : Path) :
    Except FileFault Location := do
  checkPath path
  match path.names.getLast? with
  | none => .error .busy
  | some name =>
    let parent ← tree.walk maxLinks (origin directory path) (path.names.dropLast ++ ["."])
    if name = "." ∨ name = ".." then .error .busy
    else if maxNameSize < name.utf8ByteSize then .error .nameTooLong
    else if path.hasTrailingSlash then .error .notDirectory
    else .ok (parent ++ [name])

/-- The entry that is no directory, at a location, taken to where a path says. -/
def rename (tree : FileTree) (directory : Location) (source : Location) (path : Path) :
    Except FileFault FileTree := do
  let destination ← tree.place directory path
  match tree.entry? source with
  | none => .error .absent
  | some entry =>
    match tree.entry? destination with
    | some (.directory _) => .error .isDirectory
    | _ => .ok ((tree.erase source).put destination entry)

/-- A name that no entry of the tree has, made longer than every name in it. -/
def freshName (tree : FileTree) : String :=
  let longest := (tree.entries.flatMap fun entry => entry.1.map String.length).foldl max 0
  String.ofList (".tmpXXXXXX".toList ++ List.replicate longest 'X')

/-- Why a file was not saved. -/
inductive SaveFault where
  /-- No temporary file could be made in the directory, given by its path. -/
  | temporary (cause : FileFault) (directory : Path)
  /-- The temporary file could not be filled or renamed. -/
  | moving (cause : FileFault)
deriving DecidableEq, Repr

/-- The name by which a temporary file is shown, its random part left open. -/
def temporaryName : Path := ⟨".tmpXXXXXX"⟩

/-- What is said about a file that was not saved. A temporary file that could not be made is
shown by its full path. -/
def SaveFault.message : SaveFault → String
  | temporary cause directory =>
    s!"{cause.message} at path {Text.quoted (directory.join temporaryName).text}"
  | moving cause => cause.message

/-- The path from the root of a temporary file in the directory of a path. -/
def temporaryPath (directory : Location) (path : Path) : Path :=
  ((absolute directory).join path).join temporaryName

/-- The directory in which the file of a path is saved. -/
def saveDirectory (path : Path) : Path :=
  match path.parent? with
  | some parent => if parent.text = "" then ⟨"."⟩ else parent
  | none => ⟨"."⟩

/-- The permissions of a file to be saved. -/
def saveMode (tree : FileTree) (directory : Location) (path : Path) (template : Option Path) :
    Nat :=
  match template.bind (tree.mode? directory) with
  | some mode => mode
  | none => (tree.mode? directory path).getD newFileMode

/-- The location of a new temporary file in the directory to which a path leads. The file is made
under its path from the root, so it is that path which must not be too long. -/
def temporaryPlace (tree : FileTree) (directory : Location) (path : Path) :
    Except FileFault Location := do
  checkPath (temporaryPath directory path)
  let location ← tree.resolve directory path
  match tree.entry? location with
  | some (.directory _) => .ok (location ++ [tree.freshName])
  | some _ => .error .notDirectory
  | none => .error .absent

/-- A tree with the text saved at the path, or the tree as it was and why. -/
def save (tree : FileTree) (directory : Location) (path : Path) (text : String)
    (template : Option Path) : Except SaveFault Unit × FileTree :=
  match tree.temporaryPlace directory (saveDirectory path) with
  | .error cause =>
    (.error (.temporary cause ((absolute directory).join (saveDirectory path))), tree)
  | .ok temporary =>
    let mode := tree.saveMode directory path template
    let made := tree.put temporary (.file newFileMode (.text ""))
    let filled := made.put temporary (.file mode (.text text))
    match filled.rename directory temporary path with
    | .ok saved => (.ok (), saved)
    | .error cause => (.error (.moving cause), filled.erase temporary)

end Excision.FileTree
