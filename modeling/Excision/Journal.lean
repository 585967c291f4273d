import Excision.Plan

/-!
# The journal

While it works the program keeps a journal for the person who runs it. A record has a level,
the part of the program that speaks, and a text. What a search or a cutter has to say is a
function of what it finds, so it is defined here beside the result and not inside the search:
`Search.journal` and `Cutter.journal` give the records in the order in which they are kept.

A program that keeps a journal does so through the class `Journaling`.
-/

set_option autoImplicit false

namespace Excision

/-- How much a record matters. -/
inductive Level where
  | error
  | warn
  | info
  | debug
  | trace
deriving DecidableEq, Repr

/-- The parts of the program that keep records. -/
inductive Part where
  | search
  | cutter
  | files
  | configuration
  | presets
deriving DecidableEq, Repr

/-- One record of the journal. -/
structure Record where
  level : Level
  part : Part
  text : String
deriving DecidableEq, Repr

/-- A record for those who follow the details. -/
def Record.detail (part : Part) (text : String) : Record := ⟨.debug, part, text⟩

/-- Programs that keep a journal. -/
class Journaling (m : Type → Type) where
  /-- Adds records at the end of the journal. -/
  keep : List Record → m Unit

/-- What a search tells about looking for a name: the declaration, the doc comment if there is
one above it, and the end of the body if there is one. -/
def Search.journal (search : Search) (lines : List String) (name : String) : List Record :=
  match search.declaration? lines name with
  | none => []
  | some declaration =>
    let start := search.start lines declaration
    let declared := [Record.detail .search s!"`{name}` declared on line {declaration + 1}"]
    let documented :=
      if start < declaration then
        [Record.detail .search s!"`{name}` doc comment starts on line {start + 1}"]
      else []
    let closed :=
      match bodyEnd lines declaration with
      | some last => [Record.detail .search s!"`{name}` body closes on line {last + 1}"]
      | none => []
    declared ++ documented ++ closed

/-- What a cutter tells about an outcome. -/
def Outcome.journal : Outcome → Record
  | .found name extent _ => .detail .cutter s!"marked `{name}`: {extent.describe}"
  | .missing miss => .detail .cutter s!"skipping `{miss.name}`: {miss.message}"

/-- What a cutter tells while it plans. -/
def Cutter.journal (cutter : Cutter) (source : Source) (names : List String) : List Record :=
  names.flatMap fun name =>
    cutter.search.journal source.lines name ++ [(cutter.outcome source name).journal]

end Excision
