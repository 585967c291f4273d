import Excision.Journal
import Excision.Path

/-!
# Stores of documents

A store loads a document from a path and saves lines to a path. `Cutter.run` works against any
store: it loads the input, plans, and saves the retained lines to the output unless the run is
a dry one. Only a failed load is an error of the run. A failed save is part of its result, so
that the plan survives.
-/

set_option autoImplicit false

namespace Excision

/-- Why a store could not load or save; `cause` is what the store says about it. -/
inductive StoreFault where
  | unreadable (path : Path) (cause : String)
  | unwritable (path : Path) (cause : String)
deriving DecidableEq, Repr

namespace StoreFault

/-- What the store says about the cause. -/
def cause : StoreFault → String
  | unreadable _ cause => cause
  | unwritable _ cause => cause

/-- What a person is told about a fault. -/
def message : StoreFault → String
  | unreadable path cause => s!"failed to read {path.text}: {cause}"
  | unwritable path cause => s!"failed to write {path.text}: {cause}"

end StoreFault

/-- Programs that load and save documents. -/
class Store (m : Type → Type) where
  /-- The document at a path. -/
  load : Path → m (Except StoreFault Source)
  /-- Saves lines at a path, as a file with the permissions of the template if there is one. -/
  save : Path → List String → Option Path → m (Except StoreFault Unit)

/-- What became of the output of a run. -/
inductive WriteStatus where
  /-- The retained lines were saved. -/
  | written (path : Path)
  /-- A dry run saves nothing. -/
  | skipped
  /-- Saving failed. -/
  | failed (fault : StoreFault)
deriving DecidableEq, Repr

/-- Whether the output was saved. -/
def WriteStatus.isWritten : WriteStatus → Bool
  | written _ => true
  | _ => false

/-- A plan, and what became of its output. -/
structure Run where
  plan : Plan
  write : WriteStatus
deriving DecidableEq, Repr

variable {m : Type → Type} [Monad m] [Journaling m] [Store m]

/-- Saves the retained lines of a plan, if there is an output to save them to. The permissions
are those of the input. -/
def Plan.save (plan : Plan) (source : Source) (input : Path) : Option Path → m WriteStatus
  | none => pure .skipped
  | some output => do
    match ← Store.save output (plan.retained source) (some input) with
    | .error fault => pure (.failed fault)
    | .ok () =>
      Journaling.keep
        [⟨.info, .cutter, s!"wrote {plan.finalLines} lines to {output.text}"⟩]
      pure (.written output)

/-- Loads the input, plans for the requested names, and saves the retained lines to the
output. -/
def Cutter.run (cutter : Cutter) (input : Path) (output : Option Path) (names : List String) :
    m (Except StoreFault Run) := do
  match ← Store.load input with
  | .error fault => pure (.error fault)
  | .ok source =>
    Journaling.keep (cutter.journal source names)
    let plan := cutter.plan source names
    let write ← plan.save source input output
    pure (.ok ⟨plan, write⟩)

end Excision
