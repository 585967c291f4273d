import Excision.Catalog
import Excision.FileSystem
import Excision.ProjectFile.Decode

/-!
# Finding and loading the project file

Without an explicit path, the project file is looked for in a directory and in the directories
above it, the nearest first. The search ends after a directory with an entry `.git`, which is
the root of a repository, and at the root of the file system. A relative path is cut down to
the empty path and no further.
-/

set_option autoImplicit false

namespace Excision

namespace Path

/-- A path and the paths above it, at most the given number of these. -/
def ancestorsUpTo : Nat → Path → List Path
  | 0, p => [p]
  | bound + 1, p =>
    p ::
      match p.parent? with
      | some parent => ancestorsUpTo bound parent
      | none => []

/-- A path and the paths above it, the nearest first. Each is shorter than the one before. -/
def ancestors (p : Path) : List Path := ancestorsUpTo p.text.length p

end Path

/-- Why a project file was not loaded. -/
inductive LoadFault where
  | unreadable (fault : FileFault)
  | invalid (fault : ProjectFault)
deriving Repr

/-- What a person is told about a project file that was not loaded. -/
def LoadFault.message : LoadFault → String
  | unreadable fault => fault.message
  | invalid fault => fault.message

namespace ProjectFile

/-- The entry that marks the root of a repository. -/
def repositoryMark : Path := ⟨".git"⟩

variable {m : Type → Type} [Monad m] [FileSystem m]

/-- The project file in the first of some directories, up to the root of a repository. -/
def findIn : List Path → m (Option Path)
  | [] => pure none
  | directory :: directories => do
    let candidate := directory.join fileName
    if ← FileSystem.isFile candidate then pure (some candidate)
    else if ← FileSystem.leads (directory.join repositoryMark) then pure none
    else findIn directories

/-- The nearest project file, seen from a directory or a file in it. -/
def find (start : Path) : m (Option Path) := do
  let nearest := if ← FileSystem.isFile start then start.parent?.getD start else start
  findIn nearest.ancestors

/-- The project file at a path. -/
def load (path : Path) : m (Except LoadFault ProjectFile) := do
  match ← FileSystem.readText path with
  | .error fault => pure (.error (.unreadable fault))
  | .ok text =>
    match parse text with
    | .error fault => pure (.error (.invalid fault))
    | .ok file => pure (.ok file)

end ProjectFile

/-- A project file that was not loaded. -/
structure CatalogFault where
  path : Path
  cause : LoadFault
deriving Repr

/-- What a person is told about a catalog that was not loaded. -/
def CatalogFault.message (fault : CatalogFault) : String :=
  s!"failed to load config {fault.path.text}: {fault.cause.message}"

/-- A catalog, and the project file from which it comes. -/
structure LoadedCatalog where
  catalog : Catalog
  path : Option Path
deriving Repr

namespace Catalog

variable {m : Type → Type} [Monad m] [Journaling m] [FileSystem m]

/-- The catalog of the project file at a path. -/
def loadFrom (path : Path) : m (Except CatalogFault LoadedCatalog) := do
  match ← ProjectFile.load path with
  | .error cause => pure (.error ⟨path, cause⟩)
  | .ok file =>
    Journaling.keep [.detail .configuration s!"using project config {path.text}"]
    pure (.ok ⟨ofProject file, some path⟩)

/-- The catalog of the given project file, else of the nearest one seen from a directory, else
the built-in one. -/
def load (explicit : Option Path) (directory : Path) :
    m (Except CatalogFault LoadedCatalog) := do
  let path ←
    match explicit with
    | some path => pure (some path)
    | none => ProjectFile.find directory
  match path with
  | some path => loadFrom path
  | none => pure (.ok ⟨builtin, none⟩)

end Catalog

end Excision
