import Excision.Path

/-!
# File trees

A file tree holds directories, regular files and symbolic links under their locations, the
names from the root down. This module has the tree itself, what is found at the end of a path,
and the ways in which a path can fail to lead anywhere.

A walk goes one step at a time. Only a directory can be left by a step. A symbolic link is
followed by walking its target first, at most forty times on one walk. A name has at most 255
bytes and a path less than 4096. Permissions are kept but bar nobody: the tree is walked by a user
who may open and change everything in it.

The real path of a place is found in another way than by walking there (`FileTree.canonical?`).
From the root down it is spelled out name by name, and at each name the system is asked what the
path spelled so far leads to. So the bound holds for these paths, however short the path is that one
started with: a walk through a link to a deep directory may arrive where no real path is found.
-/

set_option autoImplicit false

namespace Excision

/-- Why a file operation failed. -/
inductive FileFault where
  | absent
  | busy
  | notDirectory
  | isDirectory
  | nameTooLong
  | tooManyLinks
  | holdsNul
  | notText
  /-- Any other fault, by what the system says about it. -/
  | other (text : String)
deriving DecidableEq, Repr

namespace FileFault

/-- What the system says about a fault. -/
def message : FileFault → String
  | absent => "No such file or directory (os error 2)"
  | busy => "Device or resource busy (os error 16)"
  | notDirectory => "Not a directory (os error 20)"
  | isDirectory => "Is a directory (os error 21)"
  | nameTooLong => "File name too long (os error 36)"
  | tooManyLinks => "Too many levels of symbolic links (os error 40)"
  | holdsNul => "file name contained an unexpected NUL byte"
  | notText => "stream did not contain valid UTF-8"
  | other text => text

end FileFault

/-- What a regular file holds: a text, or bytes that are no text in UTF-8. -/
inductive Content where
  | text (text : String)
  | bytes (bytes : List UInt8)
deriving DecidableEq, Repr

/-- The content that some bytes are. -/
def Content.ofBytes (bytes : ByteArray) : Content :=
  match String.fromUTF8? bytes with
  | some valid => .text valid
  | none => .bytes bytes.toList

/-- The names from the root down. -/
abbrev Location := List String

/-- What stands at a location. The permissions of a link do not matter. -/
inductive Entry where
  | directory (mode : Nat)
  | file (mode : Nat) (content : Content)
  | link (target : Path)
deriving DecidableEq, Repr

namespace Entry

/-- The permissions of an entry that is no link. -/
def mode? : Entry → Option Nat
  | directory mode => some mode
  | file mode _ => some mode
  | link _ => none

/-- Whether an entry is a regular file. -/
def isFile : Entry → Bool
  | file .. => true
  | _ => false

end Entry

/-- Entries under their locations. The root is a directory and not listed. -/
structure FileTree where
  entries : List (Location × Entry)
deriving DecidableEq, Repr

namespace FileTree

/-- The permissions of a directory that nothing else is known of. -/
def directoryMode : Nat := 0o755

/-- What stands at a location. -/
def entry? (tree : FileTree) (location : Location) : Option Entry :=
  if location = [] then some (.directory directoryMode) else tree.entries.lookup location

/-- A tree without the entry at a location. -/
def erase (tree : FileTree) (location : Location) : FileTree :=
  ⟨tree.entries.filter (·.1 ≠ location)⟩

/-- A tree with the given entry at a location. -/
def put (tree : FileTree) (location : Location) (entry : Entry) : FileTree :=
  ⟨(location, entry) :: (tree.erase location).entries⟩

/-- The most bytes of a name. -/
def maxNameSize : Nat := 255

/-- A bound on the bytes of a path. -/
def pathSizeBound : Nat := 4096

/-- How many symbolic links one walk follows. -/
def maxLinks : Nat := 40

/-- Where a walk along a path starts. -/
def origin (directory : Location) (path : Path) : Location :=
  if path.isAbsolute then [] else directory

/-- A walk that hands over to `follow` at the first symbolic link. -/
def walkWith (tree : FileTree) (follow : Location → List String → Except FileFault Location) :
    Location → List String → Except FileFault Location
  | here, [] => .ok here
  | here, name :: names =>
    match tree.entry? here with
    | none => .error .absent
    | some (.file ..) => .error .notDirectory
    | some (.link _) => .error .notDirectory
    | some (.directory _) =>
      if name = "." then tree.walkWith follow here names
      else if name = ".." then tree.walkWith follow here.dropLast names
      else if maxNameSize < name.utf8ByteSize then .error .nameTooLong
      else
        match tree.entry? (here ++ [name]) with
        | none => .error .absent
        | some (.link target) => follow (origin here target) (target.steps ++ names)
        | some _ => tree.walkWith follow (here ++ [name]) names

/-- A walk that follows at most the given number of symbolic links. -/
def walk (tree : FileTree) : Nat → Location → List String → Except FileFault Location
  | 0 => tree.walkWith fun _ _ => .error .tooManyLinks
  | links + 1 => tree.walkWith (tree.walk links)

/-- Refuses a text that cannot be a path at all. -/
def checkPath (path : Path) : Except FileFault Unit :=
  if path.text.toList.contains '\x00' then .error .holdsNul
  else if path.text = "" then .error .absent
  else if pathSizeBound ≤ path.text.utf8ByteSize then .error .nameTooLong
  else .ok ()

/-- The location to which a path leads from a directory, links followed to the end. -/
def resolve (tree : FileTree) (directory : Location) (path : Path) :
    Except FileFault Location := do
  checkPath path
  tree.walk maxLinks (origin directory path) path.steps

/-- The entry to which a path leads. -/
def target? (tree : FileTree) (directory : Location) (path : Path) : Option Entry :=
  match tree.resolve directory path with
  | .ok location => tree.entry? location
  | .error _ => none

/-- Whether a path leads anywhere. -/
def exists? (tree : FileTree) (directory : Location) (path : Path) : Bool :=
  (tree.target? directory path).isSome

/-- Whether a path leads to a regular file. -/
def isFile (tree : FileTree) (directory : Location) (path : Path) : Bool :=
  (tree.target? directory path).any Entry.isFile

/-- The permissions of what a path leads to. -/
def mode? (tree : FileTree) (directory : Location) (path : Path) : Option Nat :=
  (tree.target? directory path).bind Entry.mode?

/-- The path of a location from the root. -/
def absolute (location : Location) : Path := ⟨"/" ++ "/".intercalate location⟩

/-! ### Real paths -/

/-- The bytes of the path of a location other than the root. -/
def spelledSize : Location → Nat
  | [] => 0
  | name :: names => name.utf8ByteSize + 1 + spelledSize names

/-- Whether the rest of a walk asks first of all whether it is in a directory: by a stay at its
end, or by a step to the directory above. -/
def asksDirectory : List String → Bool
  | [] => false
  | name :: names => name = ".." || name = "." && (names.isEmpty || asksDirectory names)

/-- Whether the path of a location can be handed to the system. To ask for a directory, a slash is
put behind it. -/
def isSpellable (location : Location) (names : List String) : Bool :=
  spelledSize location + (if asksDirectory names then 1 else 0) < pathSizeBound

/-- Whether the paths of all locations on a walk can be handed to the system, where `follow` tells
it from the first symbolic link on. -/
def spellsWith (tree : FileTree) (follow : Location → List String → Bool) :
    Location → List String → Bool
  | _, [] => true
  | here, name :: names =>
    if name = "." then tree.spellsWith follow here names
    else if name = ".." then tree.spellsWith follow here.dropLast names
    else
      match tree.entry? (here ++ [name]) with
      | some (.link target) =>
        isSpellable (here ++ [name]) [] && follow (origin here target) (target.steps ++ names)
      | _ => isSpellable (here ++ [name]) names && tree.spellsWith follow (here ++ [name]) names

/-- Whether the paths of all locations on a walk can be handed to the system, those of links among
them. -/
def spells (tree : FileTree) : Nat → Location → List String → Bool
  | 0 => tree.spellsWith fun _ _ => false
  | links + 1 => tree.spellsWith (tree.spells links)

/-- Whether a text can be a path, whatever its size. -/
def isPath (path : Path) : Bool := !path.text.toList.contains '\x00' && path.text ≠ ""

/-- The path from the root, without links, to where a path leads. The path one starts with may have
any size. -/
def canonical? (tree : FileTree) (directory : Location) (path : Path) : Option Path :=
  match tree.walk maxLinks (origin directory path) path.steps with
  | .error _ => none
  | .ok location =>
    if isPath path && tree.spells maxLinks (origin directory path) path.steps then
      some (absolute location)
    else none

/-- The text of the file to which a path leads. -/
def readText (tree : FileTree) (directory : Location) (path : Path) :
    Except FileFault String := do
  match tree.entry? (← tree.resolve directory path) with
  | none => .error .absent
  | some (.directory _) => .error .isDirectory
  | some (.link _) => .error .tooManyLinks
  | some (.file _ (.text text)) => .ok text
  | some (.file _ (.bytes _)) => .error .notText

end FileTree

end Excision
