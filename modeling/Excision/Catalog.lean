import Excision.Catalog.Builtin
import Excision.MethodNames

/-!
# Catalogs of presets

A catalog holds the default settings and the presets that can be chosen. A project file adds
its presets one after the other; each takes the place of any earlier preset of its name, so a
catalog has at most one preset of a name.

`Catalog.resolve` makes a selection out of a request: the settings of all layers, and the
methods of the preset followed by the further names.
-/

set_option autoImplicit false

namespace Excision

/-- Default settings and presets. -/
structure Catalog where
  defaults : Layer
  presets : List Preset
deriving DecidableEq, Repr

/-- The settings and the methods of one run. -/
structure Selection where
  settings : Settings
  methods : List String
deriving DecidableEq, Repr

namespace Catalog

/-- The catalog without a project file. -/
def builtin : Catalog := ⟨{}, builtinPresets⟩

/-- A preset added at the end of others, in the place of those that have its name. -/
def shadow (presets : List Preset) (preset : Preset) : List Preset :=
  presets.filter (·.name ≠ preset.name) ++ [preset]

/-- The catalog with a project file over the built-in presets. -/
def ofProject (file : ProjectFile) : Catalog :=
  ⟨file.defaults, (file.presets.map PresetEntry.toPreset).foldl shadow builtinPresets⟩

/-- The settings before a preset and the command line. -/
def baseSettings (catalog : Catalog) : Settings := Settings.builtin.apply catalog.defaults

/-- The preset of a name. -/
def find? (catalog : Catalog) (name : String) : Option Preset :=
  catalog.presets.find? (·.name = name)

/-- The settings of a preset over the defaults, and its methods; or the defaults alone. -/
def choose (catalog : Catalog) : Option String → Except RequestFault (Settings × List String)
  | none => .ok (catalog.baseSettings, [])
  | some name =>
    match catalog.find? name with
    | none => .error (.unknownPreset name)
    | some preset => .ok (catalog.baseSettings.apply preset.settings, preset.methods)

/-- The selection for a request: an optional preset, the settings of the command line, and
further names. -/
def resolve (catalog : Catalog) (preset : Option String) (overrides : Layer)
    (further : List String) : Except RequestFault Selection := do
  let (chosen, methods) ← catalog.choose preset
  let settings := chosen.apply overrides
  settings.check
  match ← MethodNames.ofList (methods ++ further) with
  | [] => .error .noMethods
  | methods => .ok ⟨settings, methods⟩

end Catalog

end Excision
