import Excision.CommandLine.Run
import Excision.Proofs.Sequence

/-!
# The last layer decides

However many layers are put over the built-in settings, a field ends as the last layer that sets
it says (`Settings.read_foldl_apply`). For the fields that a layer only replaces this is seen from
one step. The depth needs more: it also moves when the strategy changes, and whether it does
depends on what earlier layers did. What every layer keeps is that an unpinned depth is the usual
one of the strategy (`Settings.FollowsLookback`). With that, settings are known from their pinned
depth, which again is replaced and nothing else.

A selection has three layers over the built-in settings: the defaults of the project file, the
preset, and the command line (`SelectionRequest.settings_of_resolveIn`). A preset of a project file
stands in for those of its name before it (`Catalog.find?_ofProject`). So the settings of a
selection can be told field by field (`Settings.last_layer_decides`).
-/

set_option autoImplicit false

namespace Excision

namespace Layer

variable {α : Type} {field : Layer → Option α}

/-- The value in the last layer that sets a field. -/
def lastSet (field : Layer → Option α) (layers : List Layer) : Option α :=
  (layers.filterMap field).getLast?

theorem lastSet_cons (layer : Layer) (layers : List Layer) :
    lastSet field (layer :: layers) = (lastSet field layers).or (field layer) := by
  unfold lastSet
  cases hfield : field layer with
  | none => rw [List.filterMap_cons_none hfield, Option.or_none]
  | some value =>
      rw [List.filterMap_cons_some hfield, List.getLast?_cons]
      cases (layers.filterMap field).getLast? <;> rfl

end Layer

open Layer (lastSet)

namespace Settings

variable {settings : Settings}

/-! ## Many layers -/

section Fields

variable {α β : Type} {read : Settings → β} {field : Layer → Option α} {held : α → β}

/-- If a layer changes what is read from settings only by setting a field, then what is read after
many layers is what the last layer that sets the field says. -/
theorem read_foldl_apply
    (hstep : ∀ settings layer,
      read (settings.apply layer) = ((field layer).map held).getD (read settings))
    (settings : Settings) (layers : List Layer) :
    read (layers.foldl apply settings) =
      ((lastSet field layers).map held).getD (read settings) := by
  induction layers generalizing settings with
  | nil => rfl
  | cons layer layers ih =>
      rw [List.foldl_cons, ih, Layer.lastSet_cons, hstep]
      -- a later layer that sets the field hides the first one
      cases lastSet field layers with
      | none => rfl
      | some value => rfl

/-- The same for a field whose value is read as it is. -/
theorem field_foldl_apply {read : Settings → α}
    (hstep : ∀ settings layer, read (settings.apply layer) = (field layer).getD (read settings))
    (settings : Settings) (layers : List Layer) :
    read (layers.foldl apply settings) = (lastSet field layers).getD (read settings) := by
  have hmapped (settings : Settings) (layer : Layer) :
      read (settings.apply layer) = ((field layer).map id).getD (read settings) := by
    rw [Option.map_id_fun, hstep]
    rfl
  have hheld := read_foldl_apply hmapped settings layers
  rwa [Option.map_id_fun] at hheld

end Fields

/-! ## The depth -/

/-- The depth of settings in which it is pinned. -/
def pinned? (settings : Settings) : Option Nat :=
  if settings.depthIsPinned then some settings.depth else none

/-- An unpinned depth is the usual one of the strategy. -/
def FollowsLookback (settings : Settings) : Prop :=
  settings.depthIsPinned = false → settings.depth = settings.lookback.defaultDepth

theorem followsLookback_builtin : builtin.FollowsLookback :=
  fun _ => rfl

theorem followsLookback_changeLookback (lookback : Lookback) :
    (settings.changeLookback lookback).FollowsLookback := by
  intro hunpinned
  have hsame : settings.depthIsPinned = false := hunpinned
  show (if settings.depthIsPinned then settings.depth else lookback.defaultDepth) = _
  rw [hsame]
  rfl

theorem followsLookback_pinDepth (depth : Nat) : (settings.pinDepth depth).FollowsLookback := by
  intro hunpinned
  cases hunpinned

theorem FollowsLookback.apply (h : settings.FollowsLookback) (layer : Layer) :
    (settings.apply layer).FollowsLookback := by
  have hmoved : (layer.lookback.elim settings settings.changeLookback).FollowsLookback := by
    cases layer.lookback with
    | none => exact h
    | some lookback => exact followsLookback_changeLookback lookback
  unfold Settings.apply
  cases layer.depth with
  | none => exact hmoved
  | some depth => exact followsLookback_pinDepth depth

/-- The depth follows the strategy through any number of layers. -/
theorem FollowsLookback.foldl_apply (h : settings.FollowsLookback) (layers : List Layer) :
    (layers.foldl Settings.apply settings).FollowsLookback := by
  induction layers generalizing settings with
  | nil => exact h
  | cons layer layers ih => exact ih (h.apply layer)

theorem FollowsLookback.depth_eq (h : settings.FollowsLookback) :
    settings.depth = settings.pinned?.getD settings.lookback.defaultDepth := by
  unfold pinned?
  cases hpinned : settings.depthIsPinned with
  | false => exact h hpinned
  | true => rfl

theorem pinned?_changeLookback (lookback : Lookback) :
    (settings.changeLookback lookback).pinned? = settings.pinned? := by
  unfold pinned? changeLookback
  cases settings.depthIsPinned <;> rfl

/-- A layer changes the pinned depth only by setting it. -/
theorem pinned?_apply (settings : Settings) (layer : Layer) :
    (settings.apply layer).pinned? = (layer.depth.map some).getD settings.pinned? := by
  have hmoved : (layer.lookback.elim settings settings.changeLookback).pinned? =
      settings.pinned? := by
    cases layer.lookback with
    | none => rfl
    | some lookback => exact pinned?_changeLookback lookback
  cases hdepth : layer.depth with
  | none => simpa [apply, hdepth, pinned?] using hmoved
  | some depth => simp [apply, hdepth, pinned?, pinDepth]

/-- The depth after many layers over the built-in settings. -/
theorem depth_foldl_apply (layers : List Layer) :
    (layers.foldl apply builtin).depth =
      (lastSet Layer.depth layers).getD (layers.foldl apply builtin).lookback.defaultDepth := by
  have hpinned : (layers.foldl apply builtin).pinned? = lastSet Layer.depth layers := by
    rw [read_foldl_apply pinned?_apply]
    cases lastSet Layer.depth layers <;> rfl
  rw [(followsLookback_builtin.foldl_apply layers).depth_eq, hpinned]

end Settings

/-! ## Presets of a project file -/

/-- The preset of a name with a project file over the built-in presets: the last one of the file,
or else the built-in one. -/
def ProjectFile.preset? (file : ProjectFile) (name : String) : Option Preset :=
  ((file.presets.filter (·.name = name)).getLast?.map PresetEntry.toPreset).or
    (builtinPresets.find? (·.name = name))

namespace Catalog

theorem find?_shadow (presets : List Preset) (preset : Preset) (name : String) :
    (shadow presets preset).find? (·.name = name) =
      if preset.name = name then some preset else presets.find? (·.name = name) := by
  unfold shadow
  rw [List.find?_append]
  by_cases hname : preset.name = name
  · -- no preset of that name is left in front
    have hnone : (presets.filter (·.name ≠ preset.name)).find? (·.name = name) = none := by
      apply List.find?_eq_none.2
      intro other hother
      have hne : other.name ≠ preset.name := by simpa using (List.mem_filter.1 hother).2
      simpa using fun heq : other.name = name => hne (heq.trans hname.symm)
    rw [hnone, if_pos hname]
    simp [hname]
  · have hsame : (presets.filter (·.name ≠ preset.name)).find? (·.name = name) =
        presets.find? (·.name = name) := by
      rw [List.find?_filter]
      congr 1
      funext other
      by_cases hother : other.name = name
      · simp [hother, Ne.symm hname]
      · simp [hother]
    rw [hsame, if_neg hname]
    simp [hname]

theorem find?_foldl_shadow (presets news : List Preset) (name : String) :
    (news.foldl shadow presets).find? (·.name = name) =
      ((news.filter (·.name = name)).getLast?).or (presets.find? (·.name = name)) := by
  induction news generalizing presets with
  | nil => rfl
  | cons preset news ih =>
      rw [List.foldl_cons, ih, find?_shadow]
      by_cases hname : preset.name = name
      · rw [if_pos hname, List.filter_cons_of_pos (by simpa using hname), List.getLast?_cons]
        cases (news.filter (·.name = name)).getLast? <;> rfl
      · rw [if_neg hname, List.filter_cons_of_neg (by simpa using hname)]

/-- In the catalog of a project file a name means the last preset of the file that has it. -/
theorem find?_ofProject (file : ProjectFile) (name : String) :
    (ofProject file).find? name = file.preset? name := by
  have hfilter : (file.presets.map PresetEntry.toPreset).filter (·.name = name) =
      (file.presets.filter (·.name = name)).map PresetEntry.toPreset := List.filter_map
  show ((file.presets.map PresetEntry.toPreset).foldl shadow builtinPresets).find? _ = _
  rw [find?_foldl_shadow, hfilter, List.getLast?_map, ProjectFile.preset?]

/-- The layers of a selection, from the lowest to the highest. -/
def layers (catalog : Catalog) (preset : Option String) (overrides : Layer) : List Layer :=
  catalog.defaults :: ((preset.bind catalog.find?).map Preset.settings).toList ++ [overrides]

/-- What is chosen for a request has the settings of the lower layers and the methods of the preset,
if one is named. -/
theorem choose_eq_ok {catalog : Catalog} {preset : Option String} {chosen : Settings}
    {methods : List String} (h : catalog.choose preset = .ok (chosen, methods))
    (overrides : Layer) :
    chosen.apply overrides =
        (catalog.layers preset overrides).foldl Settings.apply Settings.builtin ∧
      methods = (preset.bind catalog.find?).elim [] Preset.methods := by
  cases preset with
  | none =>
      obtain ⟨rfl, rfl⟩ := Prod.mk.inj (Except.ok.inj h)
      exact ⟨rfl, rfl⟩
  | some name =>
      rw [choose] at h
      cases hfind : catalog.find? name with
      | none => simp [hfind] at h
      | some found =>
          rw [hfind] at h
          obtain ⟨rfl, rfl⟩ := Prod.mk.inj (Except.ok.inj h)
          rw [layers, Option.bind_some, hfind]
          exact ⟨rfl, rfl⟩

/-- What is resolved has the settings of all its layers. -/
theorem settings_of_resolve {catalog : Catalog} {preset : Option String} {overrides : Layer}
    {further : List String} {selection : Selection}
    (h : catalog.resolve preset overrides further = .ok selection) :
    selection.settings =
      (catalog.layers preset overrides).foldl Settings.apply Settings.builtin := by
  unfold resolve at h
  obtain ⟨⟨chosen, methods⟩, hchoose, h⟩ := exists_of_bind_eq_ok h
  obtain ⟨⟨⟩, -, h⟩ := exists_of_bind_eq_ok h
  obtain ⟨names, -, h⟩ := exists_of_bind_eq_ok h
  rw [← (choose_eq_ok hchoose overrides).1]
  split at h
  · cases h
  · rw [← Except.ok.inj h]

end Catalog

/-! ## The command line -/

namespace SelectionRequest

/-- The settings that the flags of the command line set. -/
def flags (request : SelectionRequest) : Layer where
  lookback := request.lookback.bind Lookback.ofWord?
  depth := request.depth
  modifiers := if request.modifiers = [] then none else some request.modifiers
  trimsBlank :=
    if request.trimsBlank then some true else if request.keepsBlank then some false else none
  allowsMissing := if request.allowsMissing then some true else none

theorem eq_flags_of_layer {request : SelectionRequest} {layer : Layer}
    (h : request.layer = .ok layer) : layer = request.flags := by
  unfold SelectionRequest.layer at h
  cases hlookback : request.lookback with
  | none =>
      simp only [hlookback] at h
      rw [← Except.ok.inj h]
      simp [flags, trimming, hlookback, List.isEmpty_iff]
  | some word =>
      cases hword : Lookback.ofWord? word with
      | none =>
          simp only [hlookback, hword] at h
          cases h
      | some lookback =>
          simp only [hlookback, hword] at h
          rw [← Except.ok.inj h]
          simp [flags, trimming, hlookback, hword, List.isEmpty_iff]

/-- The settings of a selection come from the defaults, the preset and the flags. -/
theorem settings_of_resolveIn {request : SelectionRequest} {catalog : Catalog}
    {listed operands : List String} {selection : Selection}
    (h : request.resolveIn catalog listed operands = .ok selection) :
    selection.settings =
      (catalog.layers request.preset request.flags).foldl Settings.apply Settings.builtin := by
  unfold resolveIn at h
  obtain ⟨layer, hlayer, h⟩ := exists_of_bind_eq_ok h
  rw [← eq_flags_of_layer hlayer]
  exact Catalog.settings_of_resolve h

end SelectionRequest

/-- What three layers say about a field, the middle one of which may be missing. -/
theorem Layer.lastSet_three {α : Type} (field : Layer → Option α) (low high : Layer)
    (middle : Option Layer) :
    Layer.lastSet field (low :: middle.toList ++ [high]) =
      (field high).or ((middle.bind field).or (field low)) := by
  have hhigh : Layer.lastSet field [high] = field high := by
    rw [Layer.lastSet_cons]
    rfl
  cases middle with
  | none =>
      show Layer.lastSet field [low, high] = _
      rw [Layer.lastSet_cons, hhigh]
      rfl
  | some layer =>
      show Layer.lastSet field [low, layer, high] = _
      rw [Layer.lastSet_cons, Layer.lastSet_cons, hhigh, Option.or_assoc]
      rfl

namespace Settings

/-- What is said about the fields decides settings: a field has the value that is said of it, or
else the built-in one, and the depth is else the usual one of the strategy. -/
structure DecidedBy (settings : Settings)
    (said : {α : Type} → (Layer → Option α) → Option α) : Prop where
  lookback : settings.lookback = (said Layer.lookback).getD .docBlock
  depth : settings.depth = (said Layer.depth).getD settings.lookback.defaultDepth
  modifiers : settings.modifiers = (said Layer.modifiers).getD ["private", "public"]
  trimsBlank : settings.trimsBlank = (said Layer.trimsBlank).getD false
  allowsMissing : settings.allowsMissing = (said Layer.allowsMissing).getD false

/-- Layers over the built-in settings are decided by the last layer that sets each field. -/
theorem decidedBy_foldl_apply (layers : List Layer) :
    (layers.foldl apply builtin).DecidedBy fun field => lastSet field layers where
  lookback := field_foldl_apply lookback_apply builtin layers
  depth := depth_foldl_apply layers
  modifiers := field_foldl_apply modifiers_apply builtin layers
  trimsBlank := field_foldl_apply trimsBlank_apply builtin layers
  allowsMissing := field_foldl_apply allowsMissing_apply builtin layers

/-- **The last layer that sets a field decides it.** After any layers over the built-in settings,
each field has the value of the last layer that sets it, or else the built-in one. The depth has
the value of the last layer that sets a depth, whatever became of the strategy before, with or
after it; if no layer does, it is the usual depth of the strategy at the end. So the settings of a
selection follow the flags of the command line, else the preset, else the defaults of the project
file, else the built-in settings. -/
theorem last_layer_decides (layers : List Layer) (file : ProjectFile)
    (request : SelectionRequest) (listed operands : List String) :
    ((layers.foldl apply builtin).DecidedBy fun field => lastSet field layers) ∧
      ∀ selection, request.resolveIn (Catalog.ofProject file) listed operands = .ok selection →
        let preset := (request.preset.bind file.preset?).map Preset.settings
        selection.settings.DecidedBy fun field =>
          (field request.flags).or ((preset.bind field).or (field file.defaults)) := by
  refine ⟨decidedBy_foldl_apply layers, ?_⟩
  intro selection hresolve preset
  have hfind : (Catalog.ofProject file).find? = file.preset? :=
    funext (Catalog.find?_ofProject file)
  have hlayers : (Catalog.ofProject file).layers request.preset request.flags =
      file.defaults :: preset.toList ++ [request.flags] := by
    rw [Catalog.layers, hfind]
    rfl
  have hsettings := SelectionRequest.settings_of_resolveIn hresolve
  rw [hlayers] at hsettings
  have hdecided := decidedBy_foldl_apply (file.defaults :: preset.toList ++ [request.flags])
  simp only [Layer.lastSet_three] at hdecided
  rw [hsettings]
  exact hdecided

/-- A project file that sets a depth and a preset that sets a strategy. -/
def depthOfOwn : ProjectFile :=
  ⟨{ depth := some 7 }, [⟨"mine", none, ["f"], { lookback := some .bounded }⟩]⟩

/-- The depth of the defaults stays through the strategy of the preset and that of the flags. -/
theorem last_layer_decides_on_pinned_depth :
    let request : SelectionRequest :=
      { preset := some "mine", lookback := some "DocBlock", trimsBlank := true }
    ∃ selection, request.resolveIn (Catalog.ofProject depthOfOwn) [] [] = .ok selection ∧
      selection.settings.lookback = .docBlock ∧ selection.settings.depth = 7 ∧
      selection.settings.trimsBlank = true := by
  intro request
  obtain ⟨selection, hresolve⟩ :
      ∃ selection, request.resolveIn (Catalog.ofProject depthOfOwn) [] [] = .ok selection :=
    ⟨_, rfl⟩
  have hdecided := (last_layer_decides [] depthOfOwn request [] []).2 selection hresolve
  exact ⟨selection, hresolve, hdecided.lookback, hdecided.depth, hdecided.trimsBlank⟩

end Settings

end Excision
