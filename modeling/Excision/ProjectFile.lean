import Excision.Settings

/-!
# Project files

A project file has default settings and presets. A preset is a named list of methods with
settings of its own; its description and its methods may be left out.
-/

set_option autoImplicit false

namespace Excision

/-- A preset as a project file defines it. -/
structure PresetEntry where
  name : String
  description : Option String
  methods : List String
  settings : Layer
deriving DecidableEq, Repr

/-- What a project file says. -/
structure ProjectFile where
  defaults : Layer
  presets : List PresetEntry
deriving DecidableEq, Repr

/-- The name under which a project file is looked for. -/
def ProjectFile.fileName : Path := ⟨".methodprune.toml"⟩

end Excision
