import Excision.Proofs.Layers
import Mathlib.Data.List.Nodup

/-!
# Presets that shadow others

The catalog of a project file is built by putting the presets of the file behind the built-in ones,
one after the other, each in the place of those that have its name. One such step leaves no name
twice (`Catalog.nodup_shadow`), so none is there twice at the end, and the first preset of a name is
the only one (`Catalog.find?_eq_some_iff`).

What is left after all steps are the presets that outlast what comes later: the built-in ones whose
name the file does not use, and of the presets of the file the last one of each name
(`Catalog.foldl_shadow`). They stand in the order in which they came (`Catalog.ofProject_shadows`).
-/

set_option autoImplicit false

namespace Excision

namespace Preset

/-- Whether no later preset has the name of this one. -/
def outlasts (preset : Preset) (later : List Preset) : Bool :=
  later.all (·.name ≠ preset.name)

/-- The last preset of each name, in the order in which they stand. -/
def lastOfNames : List Preset → List Preset
  | [] => []
  | preset :: later =>
    if preset.outlasts later then preset :: lastOfNames later else lastOfNames later

theorem outlasts_iff (preset : Preset) (later : List Preset) :
    preset.outlasts later = true ↔ ∀ other ∈ later, other.name ≠ preset.name := by
  simp [outlasts]

theorem lastOfNames_sublist (presets : List Preset) : (lastOfNames presets).Sublist presets := by
  induction presets with
  | nil => exact List.Sublist.refl []
  | cons preset later ih =>
      rw [lastOfNames]
      split
      · exact ih.cons_cons preset
      · exact ih.cons preset

/-- A preset is the last one of its name exactly if none of those behind it has the name. -/
theorem mem_lastOfNames_iff (preset : Preset) (presets : List Preset) :
    preset ∈ lastOfNames presets ↔
      ∃ before after, presets = before ++ preset :: after ∧
        ∀ later ∈ after, later.name ≠ preset.name := by
  induction presets with
  | nil => simp [lastOfNames]
  | cons first later ih =>
      -- the preset is the first one, or stands further behind
      have hsplit : (∃ before after, first :: later = before ++ preset :: after ∧
            ∀ other ∈ after, other.name ≠ preset.name) ↔
          (preset = first ∧ first.outlasts later = true) ∨ preset ∈ lastOfNames later := by
        rw [ih]
        constructor
        · rintro ⟨before, after, heq, hafter⟩
          cases before with
          | nil =>
              obtain ⟨rfl, rfl⟩ := List.cons.inj heq
              exact Or.inl ⟨rfl, (first.outlasts_iff later).2 hafter⟩
          | cons _ before => exact Or.inr ⟨before, after, (List.cons.inj heq).2, hafter⟩
        · rintro (⟨rfl, hlast⟩ | ⟨before, after, rfl, hafter⟩)
          · exact ⟨[], later, rfl, (preset.outlasts_iff later).1 hlast⟩
          · exact ⟨first :: before, after, rfl, hafter⟩
      rw [hsplit, lastOfNames]
      cases first.outlasts later <;> simp

end Preset

namespace Catalog

/-! ## One step -/

/-- A preset that takes the place of those of its name leaves no name twice. -/
theorem nodup_shadow {presets : List Preset} (h : (presets.map Preset.name).Nodup)
    (preset : Preset) : ((shadow presets preset).map Preset.name).Nodup := by
  rw [shadow, List.map_append, List.nodup_append]
  refine ⟨(List.filter_sublist.map Preset.name).nodup h, List.nodup_singleton _, ?_⟩
  intro name hname other hother
  obtain ⟨kept, hkept, rfl⟩ := List.mem_map.1 hname
  rw [List.map_singleton, List.mem_singleton] at hother
  rw [hother]
  simpa using (List.mem_filter.1 hkept).2

/-! ## All steps -/

theorem nodup_foldl_shadow {presets : List Preset} (h : (presets.map Preset.name).Nodup)
    (news : List Preset) : ((news.foldl shadow presets).map Preset.name).Nodup := by
  induction news generalizing presets with
  | nil => exact h
  | cons preset news ih => exact ih (nodup_shadow h preset)

/-- What is left are the presets that outlast all new ones, and the last new one of each name. -/
theorem foldl_shadow (presets news : List Preset) :
    news.foldl shadow presets =
      (presets.filter fun preset => preset.outlasts news) ++ Preset.lastOfNames news := by
  induction news generalizing presets with
  | nil => simp [Preset.outlasts, Preset.lastOfNames]
  | cons new news ih =>
      have hkept : (presets.filter fun preset => preset.outlasts (new :: news)) =
          (presets.filter (·.name ≠ new.name)).filter fun preset => preset.outlasts news := by
        rw [List.filter_filter]
        apply List.filter_congr
        intro preset _
        rw [Preset.outlasts, List.all_cons, ← Preset.outlasts, Bool.and_comm]
        simp [eq_comm]
      rw [List.foldl_cons, ih, shadow, List.filter_append, ← hkept, List.append_assoc,
        Preset.lastOfNames]
      -- the new preset itself is left exactly if it outlasts those behind it
      congr 1
      cases hlast : new.outlasts news <;> simp [hlast]

theorem nodup_ofProject (file : ProjectFile) : ((ofProject file).presets.map Preset.name).Nodup :=
  nodup_foldl_shadow (by decide) _

/-- Where no name is there twice, a name means the preset that has it. -/
theorem find?_eq_some_iff {catalog : Catalog} (h : (catalog.presets.map Preset.name).Nodup)
    (name : String) (preset : Preset) :
    catalog.find? name = some preset ↔ preset ∈ catalog.presets ∧ preset.name = name := by
  constructor
  · intro hfind
    exact ⟨List.mem_of_find?_eq_some hfind, by simpa using List.find?_some hfind⟩
  · rintro ⟨hpreset, rfl⟩
    cases hfind : catalog.find? preset.name with
    | none => simpa using List.find?_eq_none.1 hfind preset hpreset
    | some found =>
        have hname : found.name = preset.name := by simpa using List.find?_some hfind
        rw [List.inj_on_of_nodup_map h (List.mem_of_find?_eq_some hfind) hpreset hname]

/-- **A project file shadows presets of the same name.** The catalog of a project file has no name
twice. A name means the last preset of the file that has it, or else the built-in preset that has
it, or else nothing. The presets are the built-in ones whose name the file does not use, in their
order, followed by the last preset of each name of the file, in the order of the file. No other
preset is lost, so every name that is built in or in the file means one. -/
theorem ofProject_shadows (file : ProjectFile) :
    let catalog := ofProject file
    let project := file.presets.map PresetEntry.toPreset
    (catalog.presets.map Preset.name).Nodup ∧
      (∀ name, catalog.find? name =
        ((project.filter (·.name = name)).getLast?).or
          (builtinPresets.find? (·.name = name))) ∧
      catalog.presets =
        (builtinPresets.filter fun preset => preset.outlasts project) ++
          Preset.lastOfNames project ∧
      (Preset.lastOfNames project).Sublist project ∧
      (∀ preset, preset ∈ catalog.presets ↔
        (preset ∈ builtinPresets ∧ ∀ other ∈ project, other.name ≠ preset.name) ∨
          ∃ before after, project = before ++ preset :: after ∧
            ∀ later ∈ after, later.name ≠ preset.name) ∧
      ∀ name, (catalog.find? name).isSome = true ↔
        name ∈ builtinPresets.map Preset.name ∨ name ∈ file.presets.map PresetEntry.name := by
  intro catalog project
  have hfind (name : String) : catalog.find? name =
      ((project.filter (·.name = name)).getLast?).or (builtinPresets.find? (·.name = name)) :=
    find?_foldl_shadow builtinPresets project name
  have hpresets : catalog.presets =
      (builtinPresets.filter fun preset => preset.outlasts project) ++
        Preset.lastOfNames project :=
    foldl_shadow builtinPresets project
  refine ⟨nodup_ofProject file, hfind, hpresets, Preset.lastOfNames_sublist project, ?_, ?_⟩
  · intro preset
    rw [hpresets, List.mem_append, List.mem_filter, Preset.outlasts_iff,
      Preset.mem_lastOfNames_iff]
  · intro name
    rw [hfind, Option.isSome_or, Bool.or_eq_true, List.find?_isSome, or_comm]
    refine or_congr (by simp) ?_
    rw [List.getLast?_isSome]
    simp [project, PresetEntry.toPreset]

/-- A file that has a name twice and the name of a built-in preset. -/
def repeatedNames : ProjectFile :=
  ⟨{}, [⟨"mine", none, ["f"], {}⟩, ⟨"combat-ui-phase1", none, ["g"], {}⟩,
    ⟨"mine", some "again", ["h"], {}⟩]⟩

/-- The second preset called `mine` counts, behind the one that shadows a built-in preset. -/
theorem ofProject_shadows_repeatedNames :
    (ofProject repeatedNames).presets.map Preset.name =
        ["combat-ui-phase2", "combat-ui-phase1", "mine"] ∧
      ((ofProject repeatedNames).find? "mine").map Preset.methods = some ["h"] ∧
      (ofProject repeatedNames).find? "combat-ui-phase3" = none := by
  obtain ⟨-, hfind, hpresets, -⟩ := ofProject_shadows repeatedNames
  rw [hpresets, hfind, hfind]
  decide

end Catalog

end Excision
