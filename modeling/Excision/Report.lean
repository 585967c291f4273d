import Excision.Catalog
import Excision.Plan

/-!
# Reports

What is told about a run: for each requested method where it stands or why it was missed, in
line numbers from one, and the totals of the plan. Presets are reported with the settings with
which they would run.
-/

set_option autoImplicit false

namespace Excision

/-- What is told about one requested method. -/
structure MethodReport where
  name : String
  found : Bool
  startLine : Option Nat
  declarationLine : Option Nat
  endLine : Option Nat
  lines : Nat
  trailingBlankRemoved : Bool
  reason : Option String
deriving DecidableEq, Repr

/-- What is told about an outcome. -/
def MethodReport.ofOutcome : Outcome → MethodReport
  | .found name extent trailingBlank =>
    { name := name
      found := true
      startLine := some (extent.first + 1)
      declarationLine := some (extent.declaration + 1)
      endLine := some (extent.last + 1)
      lines := extent.size
      trailingBlankRemoved := trailingBlank.isSome
      reason := none }
  | .missing miss =>
    { name := miss.name
      found := false
      startLine := none
      declarationLine := none
      endLine := none
      lines := 0
      trailingBlankRemoved := false
      reason := some miss.message }

/-- What is told about a run that removes methods. A dry run has no output. -/
structure PruneReport where
  input : String
  output : Option String
  written : Bool
  originalLines : Nat
  removedLines : Nat
  finalLines : Nat
  reductionPercent : Float
  methods : List MethodReport
  missing : List String
deriving Repr

namespace PruneReport

/-- The report on a plan. -/
def ofPlan (plan : Plan) (input : String) (output : Option String) (written : Bool) :
    PruneReport where
  input := input
  output := output
  written := written
  originalLines := plan.originalLines
  removedLines := plan.removedLines
  finalLines := plan.finalLines
  reductionPercent := plan.reductionPercent
  methods := plan.outcomes.map MethodReport.ofOutcome
  missing := plan.missing

/-- Whether every requested method was found. -/
def allFound (report : PruneReport) : Bool := report.missing.isEmpty

end PruneReport

/-- What is told about where methods stand. -/
structure LocateReport where
  input : String
  methods : List MethodReport
deriving DecidableEq, Repr

/-- The report on where the methods of a plan stand. -/
def LocateReport.ofPlan (plan : Plan) (input : String) : LocateReport :=
  ⟨input, plan.outcomes.map MethodReport.ofOutcome⟩

/-- What is told about a preset. -/
structure PresetSummary where
  name : String
  description : String
  source : String
  lookback : String
  depth : Nat
  modifiers : List String
  trimsBlank : Bool
  methods : List String
deriving DecidableEq, Repr

/-- A preset with the settings with which it would run over the given ones. -/
def Preset.summary (preset : Preset) (base : Settings) : PresetSummary :=
  let settings := base.apply preset.settings
  { name := preset.name
    description := preset.description
    source := preset.source.name
    lookback := settings.lookback.name
    depth := settings.depth
    modifiers := settings.modifiers
    trimsBlank := settings.trimsBlank
    methods := preset.methods }

/-- What is told about presets; in detail with their settings and methods. -/
structure PresetListing where
  presets : List PresetSummary
  detailed : Bool
deriving DecidableEq, Repr

namespace Catalog

/-- All presets of a catalog. -/
def listing (catalog : Catalog) : PresetListing :=
  ⟨catalog.presets.map (·.summary catalog.baseSettings), false⟩

/-- One preset of a catalog in detail. -/
def detail (catalog : Catalog) (name : String) : Except RequestFault PresetListing :=
  match catalog.find? name with
  | some preset => .ok ⟨[preset.summary catalog.baseSettings], true⟩
  | none => .error (.unknownPreset name)

end Catalog

end Excision
