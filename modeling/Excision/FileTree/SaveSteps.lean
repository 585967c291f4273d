import Excision.FileTree.Save

/-!
# Saving step by step

`FileTree.save` is told by the files alone. A system has more to say: it keeps some permissions
from new files, and it may refuse any step, for want of space or of rights. Here a save is the
sequence of its steps under such conditions. The temporary file is made, the lines are written to
it one by one, it is flushed and gets the permissions that are copied, if there are any, and it is
renamed. The first step that is refused ends the save, and the temporary file is removed.
-/

set_option autoImplicit false

namespace Excision.FileTree

/-- What a system brings to a save besides its files: the permissions that new files do not get,
and the fault that each step meets, if it meets one. -/
structure Conditions where
  mask : Nat
  making : Option FileFault
  writing : Nat → Option FileFault
  flushing : Option FileFault
  permitting : Option FileFault
  moving : Option FileFault

/-- The conditions under which no step is refused and new files are written by their owner only. -/
def Conditions.usual : Conditions := ⟨0o022, none, fun _ => none, none, none, none⟩

/-- Permissions without those of a mask. -/
def withoutMask (mask mode : Nat) : Nat := mode ^^^ (mode &&& mask)

/-- The permissions that are copied: those of the template if it leads anywhere, else those of the
file to be replaced. -/
def copiedMode? (tree : FileTree) (directory : Location) (path : Path) (template : Option Path) :
    Option Nat :=
  (template.toList ++ [path]).findSome? (tree.mode? directory)

/-- A text written behind that of the file at a location. -/
def write (tree : FileTree) (location : Location) (more : String) : FileTree :=
  match tree.entry? location with
  | some (.file mode (.text text)) => tree.put location (.file mode (.text (text ++ more)))
  | _ => tree

/-- Permissions given to the file at a location. -/
def permit (tree : FileTree) (location : Location) (mode : Nat) : FileTree :=
  match tree.entry? location with
  | some (.file _ content) => tree.put location (.file mode content)
  | _ => tree

/-- A step: the fault that it meets, or what it does to the tree if it meets none. -/
structure Step where
  fault? : Option FileFault
  change : FileTree → FileTree

/-- Steps one after the other, up to the first that meets a fault. -/
def runSteps : List Step → FileTree → Except FileFault Unit × FileTree
  | [], tree => (.ok (), tree)
  | step :: steps, tree =>
    match step.fault? with
    | some fault => (.error fault, tree)
    | none => runSteps steps (step.change tree)

/-- The steps that write lines to a temporary file; the first of them is the line of an index. -/
def writingSteps (conditions : Conditions) (temporary : Location) : Nat → List String → List Step
  | _, [] => []
  | index, line :: lines =>
    ⟨conditions.writing index, (·.write temporary line)⟩ ::
      writingSteps conditions temporary (index + 1) lines

/-- The steps that fill a temporary file. -/
def fillingSteps (conditions : Conditions) (temporary : Location) (lines : List String)
    (mode? : Option Nat) : List Step :=
  writingSteps conditions temporary 0 lines ++ ⟨conditions.flushing, id⟩ ::
    mode?.toList.map fun mode => ⟨conditions.permitting, (·.permit temporary mode)⟩

/-- The location of a new temporary file, if the system lets it be made. -/
def makingPlace (conditions : Conditions) (tree : FileTree) (directory : Location)
    (path : Path) : Except FileFault Location :=
  match conditions.making with
  | some fault => .error fault
  | none => tree.temporaryPlace directory path

/-- A file renamed, if the system lets it be. -/
def move (conditions : Conditions) (tree : FileTree) (directory source : Location) (path : Path) :
    Except FileFault FileTree :=
  match conditions.moving with
  | some fault => .error fault
  | none => tree.rename directory source path

/-- A tree with the lines saved at the path, or the tree as it was and why. -/
def saveUnder (conditions : Conditions) (tree : FileTree) (directory : Location) (path : Path)
    (lines : List String) (template : Option Path) : Except SaveFault Unit × FileTree :=
  match makingPlace conditions tree directory (saveDirectory path) with
  | .error cause =>
    (.error (.temporary cause ((absolute directory).join (saveDirectory path))), tree)
  | .ok temporary =>
    let made := tree.put temporary (.file (withoutMask conditions.mask newFileMode) (.text ""))
    let steps := fillingSteps conditions temporary lines (tree.copiedMode? directory path template)
    match runSteps steps made with
    | (.error cause, filled) => (.error (.moving cause), filled.erase temporary)
    | (.ok (), filled) =>
      match move conditions filled directory temporary path with
      | .ok saved => (.ok (), saved)
      | .error cause => (.error (.moving cause), filled.erase temporary)

end Excision.FileTree
