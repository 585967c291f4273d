import Excision.Lookback
import Excision.Text.Blank

/-!
# Walking up to a doc comment

A walk reads the trimmed lines above a declaration, the nearest first, and looks for an
opener: a line that starts with `/**`. It may step only over transparent lines, and what is
transparent depends on the strategy.

* Bounded: blank lines, `@deprecated` marks, openers, closers that stand alone, and lines
  that start with `*` but not with `*/`. The walk goes on past an opener and keeps the
  furthest one.
* Doc block: blank lines, lines that start with `*` and `//` comments. The walk ends at the
  nearest opener.

Without an opener in reach the extent starts at the declaration itself, so a comment that is
longer than the depth stays whole.
-/

set_option autoImplicit false

namespace Excision.Lookback

/-- Whether a trimmed line opens a doc comment. -/
def isOpener : List Char → Bool
  | '/' :: '*' :: '*' :: _ => true
  | _ => false

/-- Whether a trimmed line starts with an asterisk. -/
def startsWithStar : List Char → Bool
  | '*' :: _ => true
  | _ => false

/-- Whether a trimmed line starts with the end of a comment. -/
def startsWithCloser : List Char → Bool
  | '*' :: '/' :: _ => true
  | _ => false

/-- Whether a trimmed line is a line comment. -/
def isLineComment : List Char → Bool
  | '/' :: '/' :: _ => true
  | _ => false

/-- The marks that may stand between a doc comment and its declaration. -/
def annotations : List String := ["@deprecated"]

/-- Whether a trimmed line starts with one of the annotation marks. -/
def isAnnotation (text : List Char) : Bool :=
  annotations.any fun mark => mark.toList.isPrefixOf text

/-- Whether a trimmed line belongs to a doc comment: an opener, a closer that stands alone,
or a line that starts with an asterisk and does not end the comment. -/
def isDocLine (text : List Char) : Bool :=
  isOpener text || text == ['*', '/'] || (startsWithStar text && !startsWithCloser text)

/-- Whether a strategy steps over a trimmed line. -/
def isTransparent : Lookback → List Char → Bool
  | .bounded, text => text.isEmpty || isAnnotation text || isDocLine text
  | .docBlock, text => text.isEmpty || startsWithStar text || isLineComment text

/-- The position of the furthest opener that is reached over transparent lines. -/
def furthestOpener (transparent : List Char → Bool) : List (List Char) → Option Nat
  | [] => none
  | text :: above =>
    match if transparent text then furthestOpener transparent above else none with
    | some steps => some (steps + 1)
    | none => if isOpener text then some 0 else none

/-- The position of the nearest opener that is reached over transparent lines. -/
def nearestOpener (transparent : List Char → Bool) : List (List Char) → Option Nat
  | [] => none
  | text :: above =>
    if isOpener text then some 0
    else if transparent text then (nearestOpener transparent above).map (· + 1)
    else none

/-- The position of the opener that a strategy settles on, in trimmed lines nearest first. -/
def opener? : Lookback → List (List Char) → Option Nat
  | .bounded => furthestOpener (isTransparent .bounded)
  | .docBlock => nearestOpener (isTransparent .docBlock)

/-- At most `depth` trimmed lines above line `declaration`, nearest first. -/
def linesAbove (lines : List String) (declaration depth : Nat) : List (List Char) :=
  ((lines.take declaration).reverse.take depth).map fun line => Text.trim line.toList

/-- The line on which the method declared on line `declaration` starts: the opener of its doc
comment if one is in reach, else the declaration. -/
def start (strategy : Lookback) (depth : Nat) (lines : List String) (declaration : Nat) : Nat :=
  match strategy.opener? (linesAbove lines declaration depth) with
  | some steps => declaration - (steps + 1)
  | none => declaration

end Excision.Lookback
