import Excision.Decimal.Layout
import Excision.Report
import Excision.Report.Style

/-!
# Reports for people

The texts that a person reads at the end of a run, each line ended by a newline. Words that
tell good from bad stand out when colours are shown.
-/

set_option autoImplicit false

namespace Excision

/-- Lines as a text. -/
def textOfLines (lines : List String) : String := String.join (lines.map (· ++ "\n"))

/-- The line about one method. -/
def MethodReport.line (report : MethodReport) (colored : Bool) : String :=
  match report.found, report.startLine, report.endLine with
  | true, some first, some last =>
    let found := Style.green.paint colored "Found"
    s!"{found} {report.name}: lines {first} to {last} ({report.lines} lines)"
  | _, _, _ =>
    let warning := Style.boldYellow.paint colored "Warning:"
    let reason := report.reason.getD "not found"
    s!"{warning} Could not find method {report.name} ({reason})"

namespace PruneReport

/-- The lines about methods that were missed, if any were. -/
def missingLines (report : PruneReport) (colored : Bool) : List String :=
  if report.missing.isEmpty then []
  else
    let heading := Style.boldRed.paint colored "Missing:"
    let names := ", ".intercalate report.missing
    ["", s!"{heading} {report.missing.length} method(s) not found: {names}"]

/-- The lines about what to do with the output. -/
def outputLines (report : PruneReport) : List String :=
  match report.output, report.written with
  | some output, true =>
    ["", s!"Review the output at: {output}", "If it looks good, run:",
      s!"  mv {output} {report.input}"]
  | some output, false => ["", s!"Output NOT written: {output}"]
  | none, _ => ["", "Dry run: no file written."]

/-- The text about a run. -/
def text (report : PruneReport) (colored : Bool) : String :=
  let percent := Decimal.onePlaceText report.reductionPercent
  textOfLines <|
    [s!"Original file: {report.originalLines} lines", ""]
      ++ report.methods.map (·.line colored)
      ++ ["", s!"Removed {report.removedLines} lines",
        s!"Final file: {report.finalLines} lines",
        s!"Reduction: {report.removedLines} lines ({percent}%)"]
      ++ report.missingLines colored
      ++ report.outputLines

end PruneReport

/-- The text about where methods stand. -/
def LocateReport.text (report : LocateReport) (colored : Bool) : String :=
  textOfLines (report.methods.map (·.line colored))

/-- The lines about the settings and the methods of a preset. -/
def PresetSummary.detailLines (summary : PresetSummary) : List String :=
  let modifiers := "|".intercalate summary.modifiers
  let walk := s!"  lookback: {summary.lookback} (depth {summary.depth})"
  let rest := s!", modifiers: {modifiers}, trim blank: {summary.trimsBlank}"
  (walk ++ rest) :: summary.methods.map ("    " ++ ·)

/-- The lines about a preset. -/
def PresetSummary.lines (summary : PresetSummary) (detailed colored : Bool) : List String :=
  let name := Style.bold.paint colored summary.name
  [s!"{name} [{summary.source}] ({summary.methods.length} methods)"]
    ++ (if summary.description = "" then [] else ["  " ++ summary.description])
    ++ (if detailed then summary.detailLines else [])
    ++ [""]

/-- The text about presets. -/
def PresetListing.text (listing : PresetListing) (colored : Bool) : String :=
  if listing.presets.isEmpty then "No presets found.\n"
  else textOfLines (listing.presets.flatMap (·.lines listing.detailed colored))

end Excision
