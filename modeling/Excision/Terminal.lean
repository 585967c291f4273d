import Excision.CommandLine.Run
import Excision.FileTree.Save
import Excision.Journal.Filter

/-!
# The terminal

The program on the real file system, with its journal on the second output as far as a filter
lets it through. A file is saved through a temporary one in the same directory.

Permissions are the one thing in which a save here differs from one on a file tree
(`Excision.Session`). The interface to the system does not tell the permissions of a file, so the
template of a save cannot be followed, and neither can the file that was there before: a saved file
has the permissions of any new file.
-/

set_option autoImplicit false

namespace Excision

/-- Programs on the real file system. -/
abbrev Terminal := ReaderT Filter IO

/-- The number of an error, which some operations report with its sign changed. -/
def positive (number : UInt32) : Nat :=
  if number < 0x80000000 then number.toNat else (0 - number).toNat

/-- What the system says about an error, and its number. -/
def systemError : IO.Error → Nat × String
  | .alreadyExists _ number text => (positive number, text)
  | .otherError number text => (positive number, text)
  | .resourceBusy number text => (positive number, text)
  | .resourceVanished number text => (positive number, text)
  | .unsupportedOperation number text => (positive number, text)
  | .hardwareFault number text => (positive number, text)
  | .unsatisfiedConstraints number text => (positive number, text)
  | .illegalOperation number text => (positive number, text)
  | .protocolError number text => (positive number, text)
  | .timeExpired number text => (positive number, text)
  | .interrupted _ number text => (positive number, text)
  | .noFileOrDirectory _ number text => (positive number, text)
  | .invalidArgument _ number text => (positive number, text)
  | .permissionDenied _ number text => (positive number, text)
  | .resourceExhausted _ number text => (positive number, text)
  | .inappropriateType _ number text => (positive number, text)
  | .noSuchThing _ number text => (positive number, text)
  | .unexpectedEof => (0, "unexpected end of file")
  | .userError text => (0, text)

/-- The fault that an error of the system is. -/
def FileFault.ofError (error : IO.Error) : FileFault :=
  match systemError error with
  | (2, _) => .absent
  | (16, _) => .busy
  | (20, _) => .notDirectory
  | (21, _) => .isDirectory
  | (36, _) => .nameTooLong
  | (40, _) => .tooManyLinks
  | (0, text) => .other text
  | (number, text) => .other s!"{text} (os error {number})"

namespace Terminal

/-- An action whose errors are faults. -/
def attempt {α : Type} (action : IO α) : IO (Except FileFault α) := do
  try
    return .ok (← action)
  catch error => return .error (.ofError error)

/-- The text of the file to which a path leads. -/
def readText (path : Path) : IO (Except FileFault String) := do
  match ← attempt (IO.FS.readBinFile path.text) with
  | .error fault => return .error fault
  | .ok bytes =>
    match Content.ofBytes bytes with
    | .text text => return .ok text
    | .bytes _ => return .error .notText

/-- The path from the root, without links, to where a path leads. -/
def canonical? (path : Path) : IO (Option Path) := do
  match ← attempt (IO.FS.realPath path.text) with
  | .ok real => return some ⟨real.toString⟩
  | .error _ => return none

/-- What the system tells about the file to which a path leads. -/
def metadata (path : Path) : IO (Except FileFault IO.FS.Metadata) :=
  attempt (IO.FS.DirEntry.mk path.text "").root.metadata

/-- Whether a path leads to a regular file. -/
def isFile (path : Path) : IO Bool := do
  match ← metadata path with
  | .ok found => return found.type == .file
  | .error _ => return false

/-- Whether a path leads anywhere. -/
def leads (path : Path) : IO Bool := do
  match ← metadata path with
  | .ok _ => return true
  | .error _ => return false

/-- The path of the working directory. -/
def directory : IO Path := do
  return ⟨(← IO.currentDir).toString⟩

/-- The characters of the random part of a name. -/
def nameCharacters : List Char :=
  "abcdefghijklmnopqrstuvwxyzABCDEFGHIJKLMNOPQRSTUVWXYZ0123456789".toList

/-- A name for a temporary file. -/
def temporaryName : IO String := do
  let letters ← (List.replicate 6 ()).mapM fun _ => do
    return nameCharacters.getD (← IO.rand 0 (nameCharacters.length - 1)) 'X'
  return ".tmp" ++ String.ofList letters

/-- Saves a text at a path, through a temporary file. The permissions are those of a new file. -/
def save (path : Path) (text : String) : IO (Except FileTree.SaveFault Unit) := do
  let place := (← directory).join (FileTree.saveDirectory path)
  let temporary := (place.join ⟨← temporaryName⟩).text
  match ← attempt (IO.FS.Handle.mk temporary .writeNew) with
  | .error fault => return .error (.temporary fault place)
  | .ok file =>
    let filled ← attempt (do
      file.putStr text
      file.flush
      IO.FS.rename temporary path.text)
    match filled with
    | .ok () => return .ok ()
    | .error fault =>
      discard (attempt (IO.FS.removeFile temporary))
      return .error (.moving fault)

/-- Shows records that the filter lets through. -/
def keep (filter : Filter) (records : List Record) : IO Unit := IO.eprint (filter.lines records)

instance : Journaling Terminal where
  keep records := do keep (← read) records

instance : FileSystem Terminal where
  load path := do
    match ← readText path with
    | .error fault => return .error (.unreadable path fault.message)
    | .ok text =>
      let source := Source.ofText text
      keep (← read) [.loaded path source]
      return .ok source
  save path lines _ := do
    match ← save path (String.join lines) with
    | .error fault => return .error (.unwritable path fault.message)
    | .ok () =>
      keep (← read) [.saved path lines]
      return .ok ()
  directory := directory
  readText path := readText path
  isFile path := isFile path
  leads path := leads path
  canonical? path := canonical? path

end Terminal

end Excision
