import Excision.Text.Pieces

/-!
# Paths

A path is a text of names between slashes. Its text is kept as given, since it is shown as
given. Two readings of it are used:

* `Path.names` and `Path.steps`, what a walk through a file tree follows;
* `Path.components`, by which two paths are compared without looking at any file: repeated and
  trailing slashes do not count, nor does `.` except at the very beginning.

`Path.parent?` cuts the last component off the text.
-/

set_option autoImplicit false

namespace Excision

/-- A path, as it is written. -/
structure Path where
  text : String
deriving DecidableEq, Repr

namespace Path

/-- The pieces of a path between its slashes, empty ones included. -/
def pieces (p : Path) : List String := Text.pieces '/' p.text

/-- Whether a path starts at the root. -/
def isAbsolute (p : Path) : Bool := p.text.toList.head? == some '/'

/-- Whether a path ends with a slash. -/
def hasTrailingSlash (p : Path) : Bool := p.text.toList.getLast? == some '/'

/-- The names that a path goes through. -/
def names (p : Path) : List String := p.pieces.filter (· ≠ "")

/-- The steps of a walk along a path: its names, and a stay at the end if a slash demands that
the end be a directory. -/
def steps (p : Path) : List String := if p.hasTrailingSlash then p.names ++ ["."] else p.names

/-- Whether a piece says nothing about where a path leads. -/
def isIdle (piece : String) : Bool := piece = "" || piece = "."

/-- The beginning of a path that is kept apart from the rest: the slash of the root, or a
leading `.` that is a piece of its own. -/
def root (p : Path) : String :=
  if p.isAbsolute then "/" else if p.pieces.head? == some "." then "." else ""

/-- The components by which paths are compared. -/
def components (p : Path) : String × List String := (p.root, p.pieces.filter (!isIdle ·))

/-- Whether two paths are the same without looking at any file. -/
def isSame (p q : Path) : Bool := p.components == q.components

/-- A list without the idle pieces at its end. -/
def dropIdleEnd (pieces : List String) : List String := (pieces.reverse.dropWhile isIdle).reverse

/-- The pieces of a path after its root. -/
def body (p : Path) : List String :=
  if p.isAbsolute then p.pieces.drop 1
  else if p.root = "." then "" :: p.pieces.drop 1
  else p.pieces

/-- A path without its last component, if it has one. -/
def parent? (p : Path) : Option Path :=
  match dropIdleEnd p.body with
  | [] => if p.root = "." then some ⟨""⟩ else none
  | piece :: pieces =>
    some ⟨p.root ++ "/".intercalate (dropIdleEnd ((piece :: pieces).dropLast))⟩

/-- The path to `q` as seen from the directory `p`. -/
def join (p q : Path) : Path :=
  if q.isAbsolute then q
  else if p.text = "" || p.hasTrailingSlash then ⟨p.text ++ q.text⟩
  else ⟨p.text ++ "/" ++ q.text⟩

/-- The ending of the output path that is used when none is given. -/
def cleanedEnding : String := ".cleaned"

/-- The output path that is used when none is given. -/
def cleaned (p : Path) : Path := ⟨p.text ++ cleanedEnding⟩

end Path

end Excision
