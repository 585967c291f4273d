import Excision.Proofs.Resolution
import Excision.Proofs.Shadowing
import Excision.Report

/-!
# What is shown of a preset is what runs

A preset is shown with the settings that it has over the defaults, worked out from the preset
itself. A run is given a name, looks the preset up and puts all layers together anew. Both agree,
because in the catalog of a project file a listed preset is the one that its name means
(`Catalog.find?_name`) and a layer that sets nothing changes nothing (`Settings.apply_unset`), so
the layers of the run end in the settings that are shown (`Catalog.layeredSettings_of_preset`).

So what is shown tells whether the preset can be run, and with which settings and methods
(`Catalog.shown_preset_runs`).
-/

set_option autoImplicit false

namespace Excision

/-- Whether settings are shown as they are: the strategy under its name, so that it can be read
back, and the depth, the modifiers and the trimming themselves. -/
structure PresetSummary.Shows (shown : PresetSummary) (settings : Settings) : Prop where
  lookback : shown.lookback = settings.lookback.name
  ofWord?_lookback : Lookback.ofWord? shown.lookback = some settings.lookback
  depth : shown.depth = settings.depth
  modifiers : shown.modifiers = settings.modifiers
  trimsBlank : shown.trimsBlank = settings.trimsBlank

/-- A preset is shown with its settings over the given ones. -/
theorem Preset.summary_shows (preset : Preset) (base : Settings) :
    (preset.summary base).Shows (base.apply preset.settings) where
  lookback := rfl
  ofWord?_lookback := Lookback.ofWord?_name _
  depth := rfl
  modifiers := rfl
  trimsBlank := rfl

/-- A layer that sets nothing changes nothing. -/
theorem Settings.apply_unset (settings : Settings) : settings.apply {} = settings := rfl

namespace Catalog

variable {catalog : Catalog} {preset : Preset}

/-- Where no name is there twice, a listed preset is the one that its name means. -/
theorem find?_name (hdistinct : (catalog.presets.map Preset.name).Nodup)
    (hpreset : preset ∈ catalog.presets) : catalog.find? preset.name = some preset :=
  (find?_eq_some_iff hdistinct preset.name preset).2 ⟨hpreset, rfl⟩

/-- The layers of a request for a preset alone end in the settings of the preset over the
defaults. -/
theorem layeredSettings_of_preset (hfind : catalog.find? preset.name = some preset) :
    catalog.layeredSettings (some preset.name) {} =
      catalog.baseSettings.apply preset.settings := by
  rw [layeredSettings, layers, Option.bind_some, hfind]
  exact Settings.apply_unset _

theorem requested_of_preset (hfind : catalog.find? preset.name = some preset)
    (further : List String) :
    catalog.requested (some preset.name) further =
      (preset.methods ++ further).map Text.trimmed := by
  rw [requested, Option.bind_some, hfind]
  rfl

/-- The modifiers of a request for a preset alone are those that are shown of it. -/
theorem layeredModifiers_of_preset (hfind : catalog.find? preset.name = some preset) :
    catalog.layeredModifiers (some preset.name) {} =
      (preset.summary catalog.baseSettings).modifiers := by
  rw [← modifiers_layeredSettings, layeredSettings_of_preset hfind]
  rfl

/-- **What is shown of a preset is what runs.** A preset that the catalog of a project file lists is
shown in the same way in the list and by its name. A request for its name alone, with any further
names, is resolved exactly if the modifiers that are shown are identifiers and at least one, and if
the shown methods and the further names, trimmed, are at least one, not empty and without blank
characters. It then has the strategy, the depth, the modifiers and the trimming that are shown, and
the first occurrences of these names. -/
theorem shown_preset_runs (file : ProjectFile) (preset : Preset)
    (hpreset : preset ∈ (ofProject file).presets) (further : List String) :
    let catalog := ofProject file
    let shown := preset.summary catalog.baseSettings
    let names := (shown.methods ++ further).map Text.trimmed
    shown ∈ catalog.listing.presets ∧
      catalog.detail preset.name = .ok ⟨[shown], true⟩ ∧
      ((∃ selection, catalog.resolve (some preset.name) {} further = .ok selection) ↔
        (shown.modifiers ≠ [] ∧ ∀ modifier ∈ shown.modifiers, IsIdentifier modifier) ∧
          names ≠ [] ∧
            ∀ name ∈ names, name ≠ "" ∧ ∀ c ∈ name.toList, Text.isBlank c = false) ∧
      ∀ selection, catalog.resolve (some preset.name) {} further = .ok selection →
        shown.Shows selection.settings ∧
          MethodNames.ofList (shown.methods ++ further) = .ok selection.methods ∧
          FirstOccurrences names selection.methods := by
  intro catalog shown names
  have hfind : catalog.find? preset.name = some preset := find?_name (nodup_ofProject file) hpreset
  have hrequested : catalog.requested (some preset.name) further = names :=
    requested_of_preset hfind further
  have hmodifiers : catalog.layeredModifiers (some preset.name) {} = shown.modifiers :=
    layeredModifiers_of_preset hfind
  have hfaults := catalog.faults_eq_nil_iff (some preset.name) {} further
  rw [hrequested, hmodifiers] at hfaults
  refine ⟨List.mem_map_of_mem hpreset, ?_, ?_, ?_⟩
  · rw [detail, hfind]
  · rw [(catalog.resolve_failsWithFirst (some preset.name) {} further).exists_ok_iff, hfaults]
    constructor
    · rintro ⟨-, hrest⟩
      exact hrest
    · intro hrest
      refine ⟨?_, hrest⟩
      intro name hname
      exact ⟨preset, hpreset, Option.some.inj hname⟩
  · intro selection hresolve
    have hsettings : selection.settings = catalog.baseSettings.apply preset.settings := by
      rw [← layeredSettings_of_preset hfind]
      exact settings_of_resolve hresolve
    have hmethods := ofList_of_resolve hresolve
    rw [Option.bind_some, hfind] at hmethods
    refine ⟨?_, hmethods, ((MethodNames.ofList_eq_ok_iff _ _).1 hmethods).2⟩
    rw [hsettings]
    exact preset.summary_shows catalog.baseSettings

/-- A preset that sets a strategy, over defaults that set a depth: the depth of the defaults is
shown, and it is the one that runs. -/
theorem shown_preset_runs_with_pinned_depth :
    let catalog := ofProject Settings.depthOfOwn
    let preset : Preset := ⟨"mine", "", ["f"], { lookback := some .bounded }, .project⟩
    let shown := preset.summary catalog.baseSettings
    preset ∈ catalog.presets ∧ shown.lookback = "bounded" ∧ shown.depth = 7 ∧
      ∃ selection, catalog.resolve (some "mine") {} [" g", "f"] = .ok selection ∧
        selection.settings.depth = 7 ∧
        MethodNames.ofList ["f", " g", "f"] = .ok selection.methods ∧
        selection.methods = ["f", "g"] := by
  intro catalog preset shown
  have hpreset : preset ∈ catalog.presets := by decide +kernel
  obtain ⟨-, -, -, hruns⟩ := shown_preset_runs Settings.depthOfOwn preset hpreset [" g", "f"]
  obtain ⟨selection, hresolve⟩ :
      ∃ selection, catalog.resolve (some "mine") {} [" g", "f"] = .ok selection :=
    ⟨_, rfl⟩
  obtain ⟨hshows, hmethods, -⟩ := hruns selection hresolve
  have hdepth : shown.depth = 7 := by decide +kernel
  refine ⟨hpreset, by decide +kernel, hdepth, selection, hresolve, ?_, hmethods, ?_⟩
  · exact hshows.depth.symm.trans hdepth
  · have hlist : MethodNames.ofList ["f", " g", "f"] = .ok ["f", "g"] := by decide +kernel
    exact Except.ok.inj (hmethods.symm.trans hlist)

end Catalog

end Excision
