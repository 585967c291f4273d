import Excision.Decimal.Layout
import Excision.Json
import Excision.Report

/-!
# Reports as JSON documents

The members of each document stand in a fixed order. A value that is missing has no member.
-/

set_option autoImplicit false

namespace Excision

/-- The document of a report on one method. -/
def MethodReport.document (report : MethodReport) : Json :=
  .object <|
    [("name", .string report.name), ("found", .bool report.found)]
      ++ Json.optional "start_line" (report.startLine.map .nat)
      ++ Json.optional "declaration_line" (report.declarationLine.map .nat)
      ++ Json.optional "end_line" (report.endLine.map .nat)
      ++ [("lines", .nat report.lines),
        ("trailing_blank_removed", .bool report.trailingBlankRemoved)]
      ++ Json.optional "reason" (report.reason.map .string)

/-- The document of a report on a run. -/
def PruneReport.document (report : PruneReport) : Json :=
  .object <|
    [("input", .string report.input)]
      ++ Json.optional "output" (report.output.map .string)
      ++ [("written", .bool report.written),
        ("original_lines", .nat report.originalLines),
        ("removed_lines", .nat report.removedLines),
        ("final_lines", .nat report.finalLines),
        ("reduction_percent", .number (Decimal.dataText report.reductionPercent)),
        ("methods", .array (report.methods.map MethodReport.document)),
        ("missing", Json.strings report.missing)]

/-- The document of a report on where methods stand. -/
def LocateReport.document (report : LocateReport) : Json :=
  .object
    [("input", .string report.input),
      ("methods", .array (report.methods.map MethodReport.document))]

/-- The document of a preset. -/
def PresetSummary.document (summary : PresetSummary) : Json :=
  .object
    [("name", .string summary.name),
      ("description", .string summary.description),
      ("source", .string summary.source),
      ("lookback", .string summary.lookback),
      ("lookback_depth", .nat summary.depth),
      ("modifiers", Json.strings summary.modifiers),
      ("trim_blank", .bool summary.trimsBlank),
      ("methods", Json.strings summary.methods)]

/-- The document of a list of presets. -/
def PresetListing.document (listing : PresetListing) : Json :=
  .object [("presets", .array (listing.presets.map PresetSummary.document))]

end Excision
