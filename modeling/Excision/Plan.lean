import Excision.Search

/-!
# Plans of removal

A cutter is a search together with the choice whether the blank line directly after a method
goes as well. For a document and a list of requested names it makes a plan: one outcome per
request, in request order. The removal set of the plan holds every line that some outcome
removes, each once, however the extents overlap; the retained lines are the others in their
order.
-/

set_option autoImplicit false

namespace Excision

/-- What became of one requested method. -/
inductive Outcome where
  /-- The method was found; `trailingBlank` is the blank line after it that goes as well. -/
  | found (name : String) (extent : Extent) (trailingBlank : Option Nat)
  /-- The method was missed, and nothing is removed for it. -/
  | missing (miss : Miss)
deriving DecidableEq, Repr

namespace Outcome

/-- The requested name. -/
def name : Outcome → String
  | found name _ _ => name
  | missing miss => miss.name

/-- Whether the method was found. -/
def isFound : Outcome → Bool
  | found .. => true
  | missing _ => false

/-- Whether an outcome removes the line at an index. -/
def removes : Outcome → Nat → Bool
  | found _ extent trailingBlank, index => extent.covers index || trailingBlank == some index
  | missing _, _ => false

end Outcome

/-- What is to be removed from a document of `originalLines` lines. -/
structure Plan where
  originalLines : Nat
  outcomes : List Outcome
deriving DecidableEq, Repr

namespace Plan

/-- Whether the line at an index goes. -/
def removes (plan : Plan) (index : Nat) : Bool := plan.outcomes.any (·.removes index)

/-- The indices of the lines that go, in increasing order. -/
def removal (plan : Plan) : List Nat := (List.range plan.originalLines).filter plan.removes

/-- How many lines go. -/
def removedLines (plan : Plan) : Nat := plan.removal.length

/-- How many lines stay. -/
def finalLines (plan : Plan) : Nat := plan.originalLines - plan.removedLines

/-- The part of the lines that goes, in percent. -/
def reductionPercent (plan : Plan) : Float :=
  if plan.originalLines = 0 then 0
  else Float.ofNat plan.removedLines / Float.ofNat plan.originalLines * 100

/-- The requested names that were missed, in request order. -/
def missing (plan : Plan) : List String :=
  (plan.outcomes.filter (!·.isFound)).map Outcome.name

/-- The lines of a document that stay, in order. -/
def retained (plan : Plan) (source : Source) : List String :=
  (source.lines.zipIdx.filter fun line => !plan.removes line.2).map Prod.fst

end Plan

/-- A search, and whether the blank line after a removed method goes as well. -/
structure Cutter where
  search : Search
  trimsBlank : Bool

namespace Cutter

/-- The blank line directly after an extent that goes with it, if it is to go and there is one. -/
def trailingBlank? (cutter : Cutter) (source : Source) (extent : Extent) : Option Nat :=
  if cutter.trimsBlank && source.isBlankAt (extent.last + 1) then some (extent.last + 1) else none

/-- What becomes of one requested name. -/
def outcome (cutter : Cutter) (source : Source) (name : String) : Outcome :=
  match cutter.search.find source.lines name with
  | .ok extent => .found name extent (cutter.trailingBlank? source extent)
  | .error miss => .missing miss

/-- The plan for a list of requested names. -/
def plan (cutter : Cutter) (source : Source) (names : List String) : Plan :=
  ⟨source.size, names.map (cutter.outcome source)⟩

end Cutter

end Excision
