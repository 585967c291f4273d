import Excision.Braces
import Excision.Declaration
import Excision.Engine
import Excision.Extent
import Excision.Lookback.Walk
import Excision.Source

/-!
# Searching for a method

A search has the accepted modifiers, a lookback strategy and its depth, and the engine that builds
the patterns of declarations. It finds a method by the first line that declares it, by the doc
comment above that line and by the balance of the braces from that line on. Later declarations of
the same name are not looked at. There are three ways to miss: the engine refuses the pattern of
the name, no line declares the name, or the braces after the declaration never balance.
-/

set_option autoImplicit false

namespace Excision

/-- Why a method was not found. -/
inductive Miss where
  /-- The engine does not build the pattern of the name, for the reason that it gives. -/
  | refused (name : String) (complaint : String)
  /-- No line declares the method. -/
  | undeclared (name : String)
  /-- The braces after the declaration, on the given line counted from one, never balance. -/
  | unbalanced (name : String) (line : Nat)
deriving DecidableEq, Repr

namespace Miss

/-- The method that was missed. -/
def name : Miss → String
  | refused name _ => name
  | undeclared name => name
  | unbalanced name _ => name

/-- What a person is told about a miss. -/
def message : Miss → String
  | refused _ complaint => s!"invalid declaration pattern: {complaint}"
  | undeclared name => s!"no declaration of `{name}` found"
  | unbalanced name line => s!"braces of `{name}` (declared on line {line}) never balance"

end Miss

/-- What to look for besides a name. -/
structure Search where
  modifiers : List String
  lookback : Lookback
  depth : Nat
  engine : Engine

namespace Search

/-- What the engine says against the pattern of a name, if it does not build it. -/
def refusal? (search : Search) (name : String) : Option String :=
  search.engine.refusal? search.modifiers name

/-- Whether a line declares a name for this search. A pattern that is not built matches no line. -/
def declares (search : Search) (name line : String) : Bool :=
  (search.refusal? name).isNone && Declaration.declares search.modifiers name line

/-- The first line that declares a name. -/
def declaration? (search : Search) (lines : List String) (name : String) : Option Nat :=
  lines.findIdx? (search.declares name)

/-- The line on which the method declared on a given line starts. -/
def start (search : Search) (lines : List String) (declaration : Nat) : Nat :=
  search.lookback.start search.depth lines declaration

/-- The extent of a method, or why it was missed. -/
def find (search : Search) (lines : List String) (name : String) : Except Miss Extent :=
  match search.refusal? name with
  | some complaint => .error (.refused name complaint)
  | none =>
    match search.declaration? lines name with
    | none => .error (.undeclared name)
    | some declaration =>
      match bodyEnd lines declaration with
      | none => .error (.unbalanced name (declaration + 1))
      | some last => .ok ⟨search.start lines declaration, declaration, last⟩

end Search

end Excision
