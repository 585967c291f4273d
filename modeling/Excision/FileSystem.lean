import Excision.FileTree
import Excision.Settings
import Excision.Store

/-!
# File systems

What the program asks of the files around it, besides loading and saving documents: the text of
a file, whether a path leads anywhere, where it leads, and the working directory. The program
is written against this class. It runs on the real file system, and in `Excision.Session` on a
file tree that is a value.
-/

set_option autoImplicit false

namespace Excision

/-- What is told about a document that was loaded from a file. -/
def Record.loaded (path : Path) (source : Source) : Record :=
  .detail .files s!"loaded {source.size} lines from {path.text}"

/-- What is told about lines that were saved to a file. -/
def Record.saved (path : Path) (lines : List String) : Record :=
  .detail .files s!"wrote {lines.length} lines to {path.text}"

/-- Programs that work on files. -/
class FileSystem (m : Type → Type) extends Store m where
  /-- The path of the working directory. -/
  directory : m Path
  /-- The text of the file to which a path leads. -/
  readText : Path → m (Except FileFault String)
  /-- Whether a path leads to a regular file. -/
  isFile : Path → m Bool
  /-- Whether a path leads anywhere. -/
  leads : Path → m Bool
  /-- The path from the root, without links, to where a path leads, if the system finds it. -/
  canonical? : Path → m (Option Path)

variable {m : Type → Type} [Monad m] [FileSystem m]

/-- Whether two paths are seen to mean the same file: they have the same real path, or the real path
of one of them is not found and they are written alike. -/
def sameFile (p q : Path) : m Bool := do
  match ← FileSystem.canonical? p, ← FileSystem.canonical? q with
  | some p, some q => pure (p = q)
  | _, _ => pure (p.isSame q)

/-- Refuses an output path that is seen to mean the input file. -/
def checkOutput (input output : Path) : m (Except RequestFault Unit) := do
  if ← sameFile input output then pure (.error (.outputIsInput output)) else pure (.ok ())

end Excision
