import Excision.Journal
import Excision.Pattern.Reader
import Excision.Text.Pieces

/-!
# Showing the journal

Of the journal only those records are shown that a filter lets through, one on a line. A
filter is written as directives between commas: a level for all records (`debug`), or a label
with or without a level (`label`, `label=info`). The directive with the longest label with
which the label of a record starts decides; a record that no directive speaks of is not shown.
After a slash stands a pattern of which the records must hold a match.

A directive or a pattern that cannot be read is left out and warned of.
-/

set_option autoImplicit false

namespace Excision

namespace Level

/-- The word of a level. -/
def name : Level → String
  | error => "ERROR"
  | warn => "WARN"
  | info => "INFO"
  | debug => "DEBUG"
  | trace => "TRACE"

/-- How far a level goes into the details. -/
def rank : Level → Nat
  | error => 1
  | warn => 2
  | info => 3
  | debug => 4
  | trace => 5

/-- The word of a level in five columns. -/
def column (level : Level) : String :=
  String.ofList (level.name.toList ++ List.replicate (5 - level.name.length) ' ')

end Level

/-- The label under which a part of the program keeps its records. -/
def Part.label : Part → String
  | search => "methodprune::core::services::locator"
  | cutter => "methodprune::core::services::pruner"
  | files => "methodprune::adapters::file::store"
  | configuration => "methodprune::config"
  | presets => "methodprune::cli::commands::presets"

/-- A text whose further lines are indented. -/
def indentFurtherLines (text : String) : String :=
  "\n    ".intercalate (Text.pieces '\n' text)

/-- The line on which a record is shown. -/
def Record.line (record : Record) : String :=
  s!"[{record.level.column} {record.part.label}] {indentFurtherLines record.text}\n"

/-- Up to which level records are shown; `none` shows none. -/
abbrev Ceiling := Option Level

namespace Ceiling

/-- Whether records of a level are shown. -/
def admits (ceiling : Ceiling) (level : Level) : Bool :=
  Option.any (fun highest => level.rank ≤ highest.rank) ceiling

/-- The ceilings by their words. -/
def words : List (String × Ceiling) :=
  [("off", none), ("error", some .error), ("warn", some .warn), ("info", some .info),
    ("debug", some .debug), ("trace", some .trace)]

/-- The ceiling of a word, in capital letters or small ones. -/
def ofWord? (word : String) : Option Ceiling := words.lookup word.toLower

end Ceiling

/-- A ceiling for the records whose label starts as given, or for all records. -/
structure Directive where
  label : Option String
  ceiling : Ceiling
deriving DecidableEq, Repr

namespace Directive

/-- Whether a directive speaks of a label. -/
def speaksOf (directive : Directive) (label : String) : Bool :=
  directive.label.all fun start => start.toList.isPrefixOf label.toList

/-- How closely a directive speaks of the labels it speaks of, by the bytes of its own. -/
def closeness (directive : Directive) : Nat := (directive.label.getD "").utf8ByteSize

/-- Reads a directive; a text that is none is given back as it should be warned of. -/
def parse (text : String) : Except String Directive :=
  match Text.pieces '=' text with
  | [word] =>
    match Ceiling.ofWord? word with
    | some ceiling => .ok ⟨none, ceiling⟩
    | none => .ok ⟨some word, some .trace⟩
  | [label, word] =>
    let word := Text.trimmed word
    if word = "" then .ok ⟨some label, some .trace⟩
    else
      match Ceiling.ofWord? word with
      | some ceiling => .ok ⟨some label, ceiling⟩
      | none => .error word
  | _ => .error text

/-- A directive set among others, in the place of one with the same label. -/
def set (directives : List Directive) (directive : Directive) : List Directive :=
  if directives.any (·.label = directive.label) then
    directives.map fun other => if other.label = directive.label then directive else other
  else directives ++ [directive]

/-- The closer of two directives, the later one of two that are equally close. -/
def closer (earlier : Option Directive) (later : Directive) : Option Directive :=
  match earlier with
  | none => some later
  | some earlier => if later.closeness < earlier.closeness then some earlier else some later

end Directive

/-- Which records are shown. -/
structure Filter where
  directives : List Directive
  held : Option Pattern
deriving DecidableEq, Repr

namespace Filter

/-- The ceiling for a label. -/
def ceiling (filter : Filter) (label : String) : Ceiling :=
  ((filter.directives.filter (·.speaksOf label)).foldl Directive.closer none).bind
    Directive.ceiling

/-- Whether a record is shown. -/
def shows (filter : Filter) (record : Record) : Bool :=
  (filter.ceiling record.part.label).admits record.level
    && filter.held.all fun pattern => pattern.matchesIn record.text

/-- What is shown of a journal. -/
def lines (filter : Filter) (journal : List Record) : String :=
  String.join ((journal.filter filter.shows).map Record.line)

/-- The filter of some directives. Without any, only errors are shown. -/
def ofDirectives (directives : List Directive) (held : Option Pattern) : Filter :=
  match directives.foldl Directive.set [] with
  | [] => ⟨[⟨none, some .error⟩], held⟩
  | directives => ⟨directives, held⟩

/-- The warning about something that is left out. -/
def warning (fault : String) : String := s!"warning: {fault}, ignoring it\n"

/-- How a directive is told that cannot be read. -/
def badDirective (text : String) : String := s!"invalid logging spec '{text}'"

/-- Reads the pattern after the slash, if there is one, or says why it is none. -/
def readHeld : Option String → Option Pattern × List String
  | none => (none, [])
  | some text =>
    match Pattern.read text with
    | .ok pattern => (some pattern, [])
    | .error fault => (none, [s!"invalid regex filter - {fault.message text}"])

/-- The filter that a text describes, and the warnings about it. -/
def parse (text : String) : Filter × String :=
  match Text.pieces '/' text with
  | directives :: rest =>
    if 2 ≤ rest.length then
      (ofDirectives [] none, warning (badDirective text ++ " (too many '/'s)"))
    else
      let parsed := ((Text.pieces ',' directives).map Text.trimmed).filter (· ≠ "")
        |>.map Directive.parse
      let understood := parsed.filterMap Except.toOption
      let faults := parsed.filterMap fun
        | .error text => some (badDirective text)
        | .ok _ => none
      let (held, patternFaults) := readHeld rest.head?
      (ofDirectives understood held, String.join ((faults ++ patternFaults).map warning))
  | [] => (ofDirectives [] none, "")

/-- The filter that is used when none is asked for. -/
def usual (verbose : Bool) : String := if verbose then "debug" else "info"

end Filter

end Excision
