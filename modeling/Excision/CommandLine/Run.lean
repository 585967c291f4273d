import Excision.CommandLine.Invocation
import Excision.ProjectFile.Lookup

/-!
# Running commands

What a command does on a file system, and how it ends. A run that fails before its input is
loaded has no report. A run that removes methods reports also when its output could not be
written. It ends as `incomplete` when methods were missed and that is not allowed.
-/

set_option autoImplicit false

namespace Excision

/-- Why a run failed. -/
inductive Failure where
  | catalog (fault : CatalogFault)
  /-- The methods file could not be read. -/
  | methods (path : Path) (fault : FileFault)
  | request (fault : RequestFault)
  | store (fault : StoreFault)
deriving Repr

/-- What a person is told about a failed run. A fault of the store is followed by its cause. -/
def Failure.message : Failure → String
  | catalog fault => fault.message
  | methods path fault => s!"failed to read methods file {path.text}: {fault.message}"
  | request fault => fault.message
  | store fault => s!"{fault.message}: {fault.cause}"

/-- How a run ends. -/
inductive Ending where
  | complete
  /-- Methods were missed. -/
  | incomplete
  | failed (failure : Failure)
deriving Repr

/-- The status with which the program ends. -/
def Ending.status : Ending → Nat
  | complete => 0
  | failed _ => 1
  | incomplete => 2

/-- What comes out of a run. -/
structure Conclusion where
  report : Option Report
  ending : Ending
deriving Repr

namespace Conclusion

/-- A run that failed without a report. -/
def failed (failure : Failure) : Conclusion := ⟨none, .failed failure⟩

/-- A run that ends with a report and nothing amiss. -/
def reported (report : Report) : Conclusion := ⟨some report, .complete⟩

end Conclusion

namespace SelectionRequest

/-- The choice about trailing blank lines, if one is made. -/
def trimming (request : SelectionRequest) : Option Bool :=
  if request.trimsBlank then some true else if request.keepsBlank then some false else none

/-- The settings of the command line. An empty list of modifiers is no setting. -/
def layer (request : SelectionRequest) : Except RequestFault Layer := do
  let lookback ←
    match request.lookback with
    | none => pure none
    | some word =>
      match Lookback.ofWord? word with
      | some lookback => pure (some lookback)
      | none => throw (.unknownLookback word)
  return {
    lookback := lookback
    depth := request.depth
    modifiers := if request.modifiers.isEmpty then none else some request.modifiers
    trimsBlank := request.trimming
    allowsMissing := if request.allowsMissing then some true else none }

/-- The selection that a catalog makes of a request, with the names of the methods file and
those of the operands. -/
def resolveIn (request : SelectionRequest) (catalog : Catalog) (listed operands : List String) :
    Except RequestFault Selection := do
  catalog.resolve request.preset (← request.layer) (listed ++ request.methods ++ operands)

variable {m : Type → Type} [Monad m] [Journaling m] [FileSystem m]

/-- The names in the methods file, if there is one. -/
def listed (request : SelectionRequest) : m (Except Failure (List String)) := do
  match request.methodsFile with
  | none => pure (.ok [])
  | some path =>
    match ← FileSystem.readText path with
    | .error fault => pure (.error (.methods path fault))
    | .ok text => pure (.ok (MethodNames.ofFile text))

/-- The selection for a request, with the catalog of the given project file or of the nearest
one. -/
def resolve (request : SelectionRequest) (config : Option Path) (operands : List String) :
    m (Except Failure Selection) := do
  match ← Catalog.load config (← FileSystem.directory) with
  | .error fault => pure (.error (.catalog fault))
  | .ok loaded =>
    match ← request.listed with
    | .error failure => pure (.error failure)
    | .ok listed =>
      match request.resolveIn loaded.catalog listed operands with
      | .error fault => pure (.error (.request fault))
      | .ok selection => pure (.ok selection)

end SelectionRequest

namespace PruneRequest

/-- The output that is asked for, or the one that is used when none is. -/
def target (request : PruneRequest) : Path := request.output.getD request.input.cleaned

/-- The output that is written to; a dry run has none. -/
def output? (request : PruneRequest) : Option Path :=
  if request.dryRun then none else some request.target

/-- The report on a run. -/
def report (request : PruneRequest) (run : Run) : PruneReport :=
  .ofPlan run.plan request.input.text (request.output?.map Path.text) run.write.isWritten

/-- How a run ends. A failed write comes before missed methods. -/
def ending (run : Run) (settings : Settings) : Ending :=
  match run.write with
  | .failed fault => .failed (.store fault)
  | _ =>
    if run.plan.missing.isEmpty || settings.allowsMissing then .complete else .incomplete

variable {m : Type → Type} [Monad m] [Journaling m] [FileSystem m]

/-- Removes the selected methods. -/
def run (request : PruneRequest) (config : Option Path) : m Conclusion := do
  match ← request.selection.resolve config [] with
  | .error failure => pure (.failed failure)
  | .ok selection =>
    match ← checkOutput request.input request.target with
    | .error fault => pure (.failed (.request fault))
    | .ok () =>
      let settings := selection.settings
      match ← settings.cutter.run request.input request.output? selection.methods with
      | .error fault => pure (.failed (.store fault))
      | .ok done => pure ⟨some (.prune (request.report done)), ending done settings⟩

end PruneRequest

variable {m : Type → Type} [Monad m] [Journaling m] [FileSystem m]

/-- Tells where the selected methods stand. -/
def LocateRequest.run (request : LocateRequest) (config : Option Path) : m Conclusion := do
  match ← request.selection.resolve config request.names with
  | .error failure => pure (.failed failure)
  | .ok selection =>
    match ← Store.load request.input with
    | .error fault => pure (.failed (.store fault))
    | .ok source =>
      let cutter := selection.settings.cutter
      Journaling.keep (cutter.journal source selection.methods)
      let plan := cutter.plan source selection.methods
      pure (.reported (.locate (.ofPlan plan request.input.text)))

/-- All presets, or one in detail. -/
def Catalog.report (catalog : Catalog) : Option String → Conclusion
  | none => .reported (.presets catalog.listing)
  | some name =>
    match catalog.detail name with
    | .ok listing => .reported (.presets listing)
    | .error fault => .failed (.request fault)

/-- Tells about the presets. -/
def showPresets (name : Option String) (config : Option Path) : m Conclusion := do
  match ← Catalog.load config (← FileSystem.directory) with
  | .error fault => pure (.failed (.catalog fault))
  | .ok loaded =>
    let told := loaded.path.toList.map fun path =>
      Record.detail .presets s!"presets from {path.text}"
    Journaling.keep told
    pure (loaded.catalog.report name)

/-- Carries out a command. -/
def Command.run (command : Command) (config : Option Path) : m Conclusion :=
  match command with
  | .prune request => request.run config
  | .locate request => request.run config
  | .presets name => showPresets name config

end Excision
