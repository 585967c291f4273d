import Excision.ProjectFile

/-!
# Presets

A preset is a named list of methods with settings that are layered over the defaults when it
is used. It is built in or comes from a project file.
-/

set_option autoImplicit false

namespace Excision

/-- Where a preset comes from. -/
inductive PresetSource where
  | builtin
  | project
deriving DecidableEq, Repr

/-- The word by which a source is shown. -/
def PresetSource.name : PresetSource → String
  | builtin => "builtin"
  | project => "project"

/-- A named list of methods with its own settings. -/
structure Preset where
  name : String
  description : String
  methods : List String
  settings : Layer
  source : PresetSource
deriving DecidableEq, Repr

/-- The preset that an entry of a project file defines. -/
def PresetEntry.toPreset (entry : PresetEntry) : Preset :=
  ⟨entry.name, entry.description.getD "", entry.methods, entry.settings, .project⟩

end Excision
