import Excision.Report.Document
import Excision.Report.Human

/-!
# Printed reports

The three kinds of reports, and the two ways to print one: as a JSON document for other
programs, or as a text for a person. Both end with a newline.
-/

set_option autoImplicit false

namespace Excision

/-- The ways to print a report. -/
inductive Rendering where
  | human
  | json
deriving DecidableEq, Repr

/-- Reports are for people unless something else is asked for. -/
instance : Inhabited Rendering := ⟨.human⟩

/-- What a run tells in the end. -/
inductive Report where
  | prune (report : PruneReport)
  | locate (report : LocateReport)
  | presets (listing : PresetListing)
deriving Repr

namespace Report

/-- The document of a report. -/
def document : Report → Json
  | prune report => report.document
  | locate report => report.document
  | presets listing => listing.document

/-- The text of a report for a person. -/
def text (colored : Bool) : Report → String
  | prune report => report.text colored
  | locate report => report.text colored
  | presets listing => listing.text colored

/-- A report as it is printed. -/
def print (report : Report) (colored : Bool) : Rendering → String
  | .json => report.document.pretty ++ "\n"
  | .human => report.text colored

end Report

end Excision
