import Excision.FileSystem
import Excision.FileTree.Save

/-!
# Sessions

A session is a file tree, a working directory in it, and the journal kept so far. The program
runs on sessions as on any file system, with all effects in plain sight: what a run did to the
files is the difference between two trees.
-/

set_option autoImplicit false

namespace Excision

/-- A working directory in a file tree, and a journal. -/
structure Session where
  directory : Location
  tree : FileTree
  journal : List Record
deriving DecidableEq, Repr

namespace Session

/-- A session with more records in its journal. -/
def keep (session : Session) (records : List Record) : Session :=
  { session with journal := session.journal ++ records }

/-- The text of the file to which a path leads. -/
def readText (session : Session) (path : Path) : Except FileFault String :=
  session.tree.readText session.directory path

/-- Loads a document, which is told if it succeeds. -/
def load (session : Session) (path : Path) : Except StoreFault Source × Session :=
  match session.readText path with
  | .error fault => (.error (.unreadable path fault.message), session)
  | .ok text =>
    let source := Source.ofText text
    (.ok source, session.keep [.loaded path source])

/-- Saves lines, which is told if it succeeds. -/
def save (session : Session) (path : Path) (lines : List String) (template : Option Path) :
    Except StoreFault Unit × Session :=
  match session.tree.save session.directory path (String.join lines) template with
  | (.error fault, tree) =>
    (.error (.unwritable path fault.message), { session with tree := tree })
  | (.ok (), tree) =>
    (.ok (), { session with tree := tree }.keep [.saved path lines])

instance : Journaling (StateM Session) where
  keep records := modify (·.keep records)

instance : FileSystem (StateM Session) where
  load path := modifyGet (·.load path)
  save path lines template := modifyGet (·.save path lines template)
  directory := do return FileTree.absolute (← get).directory
  readText path := do return (← get).readText path
  isFile path := do
    let session ← get
    return session.tree.isFile session.directory path
  leads path := do
    let session ← get
    return session.tree.exists? session.directory path
  canonical? path := do
    let session ← get
    return session.tree.canonical? session.directory path

end Session

end Excision
