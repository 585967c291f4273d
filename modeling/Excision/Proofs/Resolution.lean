import Excision.Proofs.Declarations
import Excision.Proofs.Layers
import Excision.Proofs.NameLists

/-!
# What a catalog makes of a request

A request names a preset or none, sets some settings and gives further names. All that can be wrong
with it is known beforehand (`Catalog.faults`): the preset may be unknown, there may be no
modifiers, each modifier may be no keyword, each name may be none, and there may be no names at
all. The four steps of `Catalog.resolve` fail with the first fault of their own, and a later step is
taken only if the earlier ones found nothing wrong, so the request is refused with the first of all
its faults (`Catalog.resolve_failsWithFirst`).

A request without faults is selected with the settings of its layers and with the first occurrences
of the requested names (`Catalog.methods_of_resolve`). Both together say what becomes of every
request (`Catalog.resolve_exact`).
-/

set_option autoImplicit false

namespace Excision

/-! ## Keywords -/

/-- Whether a text is an identifier in ASCII: it has a first character, all its characters are
letters, digits or underscores, and the first is no digit. -/
def IsIdentifier (text : String) : Prop :=
  text ≠ "" ∧ (∀ c ∈ text.toList, c.isAlphanum = true ∨ c = '_') ∧
    ∀ c ∈ text.toList.head?, c.isDigit = false

theorem not_isDigit_of_isAlpha {c : Char} (h : c.isAlpha = true) : c.isDigit = false := by
  have hletter := (isAlpha_iff c).1 h
  apply Bool.eq_false_iff.2
  intro hdigit
  have hrange := (isDigit_iff c).1 hdigit
  omega

/-- A keyword starts with a character that may continue one and is no digit. -/
theorem startsKeyword_iff (c : Char) :
    startsKeyword c = true ↔ continuesKeyword c = true ∧ c.isDigit = false := by
  have halphanum : c.isAlphanum = (c.isAlpha || c.isDigit) := rfl
  simp only [startsKeyword, continuesKeyword, halphanum, Bool.or_eq_true, decide_eq_true_eq]
  constructor
  · rintro (halpha | rfl)
    · exact ⟨Or.inl (Or.inl halpha), not_isDigit_of_isAlpha halpha⟩
    · exact ⟨Or.inr rfl, rfl⟩
  · rintro ⟨(halpha | hdigit) | hunderscore, hno⟩
    · exact Or.inl halpha
    · rw [hdigit] at hno
      cases hno
    · exact Or.inr hunderscore

/-- The accepted keywords are the identifiers. -/
theorem isKeyword_iff (text : String) : isKeyword text = true ↔ IsIdentifier text := by
  have hcontinues (c : Char) : continuesKeyword c = true ↔ c.isAlphanum = true ∨ c = '_' := by
    simp [continuesKeyword]
  unfold isKeyword IsIdentifier
  cases htext : text.toList with
  | nil =>
      have hempty : text = "" := String.toList_inj.1 htext
      simp [hempty]
  | cons c cs =>
      have hne : text ≠ "" := by
        rintro rfl
        cases htext
      simp only [Bool.and_eq_true, startsKeyword_iff, List.all_eq_true, hcontinues,
        List.forall_mem_cons, List.head?_cons, Option.mem_some_iff, forall_eq']
      constructor
      · rintro ⟨⟨hfirst, hdigit⟩, hrest⟩
        exact ⟨hne, ⟨hfirst, hrest⟩, hdigit⟩
      · rintro ⟨-, ⟨hfirst, hrest⟩, hdigit⟩
        exact ⟨⟨hfirst, hdigit⟩, hrest⟩

/-! ## Faults -/

/-- All that is wrong with a list of modifiers. -/
def modifierFaults (modifiers : List String) : List RequestFault :=
  (if modifiers = [] then [.noModifiers] else []) ++
    (modifiers.filter (!isKeyword ·)).map .badModifier

/-- All that is wrong with a list of trimmed names. -/
def nameFaults (names : List String) : List RequestFault :=
  (names.filter (!MethodNames.isName ·)).map .badMethodName ++
    if names = [] then [.noMethods] else []

theorem modifierFaults_eq_nil_iff (modifiers : List String) :
    modifierFaults modifiers = [] ↔
      modifiers ≠ [] ∧ ∀ modifier ∈ modifiers, IsIdentifier modifier := by
  simp [modifierFaults, isKeyword_iff]

theorem nameFaults_eq_nil_iff (names : List String) :
    nameFaults names = [] ↔
      names ≠ [] ∧
        ∀ name ∈ names, name ≠ "" ∧ ∀ c ∈ name.toList, Text.isBlank c = false := by
  simp only [nameFaults, List.append_eq_nil_iff, List.map_eq_nil_iff, List.filter_eq_nil_iff,
    Bool.not_eq_true', Bool.not_eq_false, MethodNames.isName_iff, ite_eq_right_iff,
    reduceCtorEq, imp_false]
  exact and_comm

/-- Settings are refused with the first fault of their modifiers. -/
theorem Settings.check_failsWithFirst (settings : Settings) :
    FailsWithFirst settings.check (modifierFaults settings.modifiers) := by
  intro fault
  unfold check modifierFaults
  cases hmodifiers : settings.modifiers with
  | nil => simp
  | cons modifier modifiers =>
      rw [if_neg (by simp), if_neg (by simp), List.nil_append, List.head?_map, List.head?_filter]
      cases (modifier :: modifiers).find? (!isKeyword ·) with
      | none => simp
      | some bad => simp

namespace Catalog

variable (catalog : Catalog) (preset : Option String) (overrides : Layer) (further : List String)

/-- The settings of a request: all its layers over the built-in ones. -/
def layeredSettings (catalog : Catalog) (preset : Option String) (overrides : Layer) : Settings :=
  (catalog.layers preset overrides).foldl Settings.apply Settings.builtin

/-- The modifiers of a request: those that it sets itself, else those of the preset, else those of
the defaults, else the built-in ones. -/
def layeredModifiers (catalog : Catalog) (preset : Option String) (overrides : Layer) :
    List String :=
  (overrides.modifiers.or
    (((preset.bind catalog.find?).bind (·.settings.modifiers)).or
      catalog.defaults.modifiers)).getD ["private", "public"]

/-- The requested names, trimmed: those of the preset, then the further ones. -/
def requested (catalog : Catalog) (preset : Option String) (further : List String) : List String :=
  ((preset.bind catalog.find?).elim [] Preset.methods ++ further).map Text.trimmed

/-- A preset that is asked for and not there. -/
def presetFaults (catalog : Catalog) (preset : Option String) : List RequestFault :=
  (preset.toList.filter fun name => (catalog.find? name).isNone).map .unknownPreset

/-- All that is wrong with a request, in the order in which it is looked for. -/
def faults (catalog : Catalog) (preset : Option String) (overrides : Layer)
    (further : List String) : List RequestFault :=
  catalog.presetFaults preset ++
    (modifierFaults (catalog.layeredModifiers preset overrides) ++
      nameFaults (catalog.requested preset further))

theorem modifiers_layeredSettings :
    (catalog.layeredSettings preset overrides).modifiers =
      catalog.layeredModifiers preset overrides := by
  have hdecided := Settings.decidedBy_foldl_apply (catalog.layers preset overrides)
  have hmodifiers := hdecided.modifiers
  rw [layers, Layer.lastSet_three, Option.bind_map] at hmodifiers
  exact hmodifiers

/-! ## The steps -/

theorem presetFaults_eq_nil_iff :
    catalog.presetFaults preset = [] ↔
      ∀ name, preset = some name → ∃ known ∈ catalog.presets, known.name = name := by
  have hknown (name : String) : (catalog.find? name).isSome = true ↔
      ∃ known ∈ catalog.presets, known.name = name := by
    rw [find?, List.find?_isSome]
    simp
  cases preset with
  | none => simp [presetFaults]
  | some name =>
      simp only [presetFaults, List.map_eq_nil_iff, List.filter_eq_nil_iff, Option.toList_some,
        List.mem_singleton, forall_eq, Option.some.injEq, forall_eq', ← hknown]
      cases catalog.find? name <;> simp

theorem choose_failsWithFirst :
    FailsWithFirst (catalog.choose preset) (catalog.presetFaults preset) := by
  intro fault
  cases preset with
  | none => simp [choose, presetFaults]
  | some name =>
      simp only [choose, presetFaults, Option.toList_some]
      cases hfind : catalog.find? name with
      | none => simp [hfind]
      | some found => simp [hfind]

/-- The names of a request are refused with the first that is none, or because there are none. -/
theorem gather_failsWithFirst (settings : Settings) (names : List String) :
    FailsWithFirst (do
      match ← MethodNames.ofList names with
      | [] => .error RequestFault.noMethods
      | methods => .ok (⟨settings, methods⟩ : Selection))
      (nameFaults (names.map Text.trimmed)) := by
  apply FailsWithFirst.bind
  · exact MethodNames.ofList_eq_error_iff names
  · intro methods hmethods fault
    obtain ⟨-, hfirsts⟩ := (MethodNames.ofList_eq_ok_iff names methods).1 hmethods
    have hempty : methods = [] ↔ names.map Text.trimmed = [] := by
      rw [List.eq_nil_iff_forall_not_mem, List.eq_nil_iff_forall_not_mem]
      exact forall_congr' fun name => not_congr (hfirsts.mem_iff name)
    cases methods with
    | nil =>
        have hnone : names.map Text.trimmed = [] := hempty.1 rfl
        simp [hnone]
    | cons method methods =>
        have hsome : names.map Text.trimmed ≠ [] := fun hnone => by cases hempty.2 hnone
        rw [if_neg hsome]
        simp

/-- A request is refused with the first of its faults. -/
theorem resolve_failsWithFirst :
    FailsWithFirst (catalog.resolve preset overrides further)
      (catalog.faults preset overrides further) := by
  unfold resolve faults
  apply FailsWithFirst.bind
  · exact catalog.choose_failsWithFirst preset
  · rintro ⟨chosen, methods⟩ hchoose
    obtain ⟨hsettings, hmethods⟩ := choose_eq_ok hchoose overrides
    have hmodifiers : (chosen.apply overrides).modifiers =
        catalog.layeredModifiers preset overrides := by
      rw [hsettings]
      exact catalog.modifiers_layeredSettings preset overrides
    have hrequested : (methods ++ further).map Text.trimmed =
        catalog.requested preset further := by
      rw [hmethods]
      rfl
    rw [← hmodifiers, ← hrequested]
    apply FailsWithFirst.bind
    · exact Settings.check_failsWithFirst (chosen.apply overrides)
    · intro _ _
      exact gather_failsWithFirst (chosen.apply overrides) (methods ++ further)

/-- What is resolved has the methods of the preset and the further names, read as one list. -/
theorem ofList_of_resolve {catalog : Catalog} {preset : Option String} {overrides : Layer}
    {further : List String} {selection : Selection}
    (h : catalog.resolve preset overrides further = .ok selection) :
    MethodNames.ofList ((preset.bind catalog.find?).elim [] Preset.methods ++ further) =
      .ok selection.methods := by
  unfold resolve at h
  obtain ⟨⟨chosen, methods⟩, hchoose, h⟩ := exists_of_bind_eq_ok h
  obtain ⟨⟨⟩, -, h⟩ := exists_of_bind_eq_ok h
  obtain ⟨names, hnames, h⟩ := exists_of_bind_eq_ok h
  have hselected : selection.methods = names := by
    split at h
    · cases h
    · rw [← Except.ok.inj h]
  rw [hselected, ← (choose_eq_ok hchoose overrides).2]
  exact hnames

/-- What is resolved has the first occurrences of the requested names. -/
theorem methods_of_resolve {catalog : Catalog} {preset : Option String} {overrides : Layer}
    {further : List String} {selection : Selection}
    (h : catalog.resolve preset overrides further = .ok selection) :
    FirstOccurrences (catalog.requested preset further) selection.methods :=
  ((MethodNames.ofList_eq_ok_iff _ _).1 (ofList_of_resolve h)).2

theorem faults_eq_nil_iff :
    catalog.faults preset overrides further = [] ↔
      (∀ name, preset = some name → ∃ known ∈ catalog.presets, known.name = name) ∧
        (catalog.layeredModifiers preset overrides ≠ [] ∧
          ∀ modifier ∈ catalog.layeredModifiers preset overrides, IsIdentifier modifier) ∧
        catalog.requested preset further ≠ [] ∧
          ∀ name ∈ catalog.requested preset further,
            name ≠ "" ∧ ∀ c ∈ name.toList, Text.isBlank c = false := by
  rw [faults, List.append_eq_nil_iff, List.append_eq_nil_iff, presetFaults_eq_nil_iff,
    modifierFaults_eq_nil_iff, nameFaults_eq_nil_iff]

/-- **Requests are resolved exactly.** A request is resolved exactly if the preset that it names is
there, its layered modifiers are identifiers and at least one, and its requested names, trimmed, are
at least one, not empty and without blank characters. It then has the settings of its layers, and as
methods the requested names in the order of their first occurrences, each once. A request that is
not resolved is refused with its first fault: an unknown preset comes before missing modifiers,
these before the first modifier that is no keyword, this before the first name that is none, and
this before missing names. -/
theorem resolve_exact (catalog : Catalog) (preset : Option String) (overrides : Layer)
    (further : List String) :
    let modifiers := catalog.layeredModifiers preset overrides
    let requested := catalog.requested preset further
    ((∃ selection, catalog.resolve preset overrides further = .ok selection) ↔
        (∀ name, preset = some name → ∃ known ∈ catalog.presets, known.name = name) ∧
          (modifiers ≠ [] ∧ ∀ modifier ∈ modifiers, IsIdentifier modifier) ∧
          requested ≠ [] ∧
            ∀ name ∈ requested, name ≠ "" ∧ ∀ c ∈ name.toList, Text.isBlank c = false) ∧
      (∀ selection, catalog.resolve preset overrides further = .ok selection →
        selection.settings = catalog.layeredSettings preset overrides ∧
          selection.settings.modifiers = modifiers ∧
          selection.methods.Nodup ∧ FirstOccurrences requested selection.methods) ∧
      ∀ fault, catalog.resolve preset overrides further = .error fault ↔
        (catalog.faults preset overrides further).head? = some fault := by
  intro modifiers requested
  have hfails := catalog.resolve_failsWithFirst preset overrides further
  refine ⟨?_, ?_, hfails⟩
  · rw [hfails.exists_ok_iff]
    exact catalog.faults_eq_nil_iff preset overrides further
  · intro selection hresolve
    have hsettings : selection.settings = catalog.layeredSettings preset overrides :=
      settings_of_resolve hresolve
    have hmethods := methods_of_resolve hresolve
    refine ⟨hsettings, ?_, hmethods.nodup, hmethods⟩
    rw [hsettings]
    exact catalog.modifiers_layeredSettings preset overrides

/-- A file whose preset `rough` has bad modifiers and a bad name, and whose preset `fine` has the
same name in two forms. -/
def manyFaults : ProjectFile :=
  ⟨{}, [⟨"rough", none, [" f ", "g h"], { modifiers := some ["pri vate", "9"] }⟩,
    ⟨"fine", none, [" f", "g", "f\t"], { modifiers := some ["private"] }⟩]⟩

/-- Of all the faults of a request the first is told. A request without faults is resolved, its
repeated names dropped. -/
theorem resolve_exact_on_manyFaults :
    let catalog := ofProject manyFaults
    catalog.faults (some "rough") {} ["", "f"] =
        [.badModifier "pri vate", .badModifier "9", .badMethodName "g h", .badMethodName ""] ∧
      catalog.resolve (some "rough") {} ["", "f"] = .error (.badModifier "pri vate") ∧
      ∃ selection, catalog.resolve (some "fine") {} [" g", "k"] = .ok selection ∧
        selection.settings.modifiers = ["private"] ∧ selection.methods = ["f", "g", "k"] := by
  intro catalog
  have hfaults : catalog.faults (some "rough") {} ["", "f"] =
      [.badModifier "pri vate", .badModifier "9", .badMethodName "g h", .badMethodName ""] := by
    decide +kernel
  obtain ⟨-, -, hrefused⟩ := resolve_exact catalog (some "rough") {} ["", "f"]
  obtain ⟨hresolved, hselected, -⟩ := resolve_exact catalog (some "fine") {} [" g", "k"]
  have hfine : catalog.faults (some "fine") {} [" g", "k"] = [] := by decide +kernel
  obtain ⟨selection, hselection⟩ :=
    hresolved.2 ((catalog.faults_eq_nil_iff (some "fine") {} [" g", "k"]).1 hfine)
  obtain ⟨-, hmodifiers, -, hfirsts⟩ := hselected selection hselection
  refine ⟨hfaults, ?_, selection, hselection, ?_, ?_⟩
  · rw [hrefused, hfaults]
    rfl
  · rw [hmodifiers]
    decide +kernel
  · have hexpected : FirstOccurrences (catalog.requested (some "fine") [" g", "k"])
        ["f", "g", "k"] := by
      have hnames : catalog.requested (some "fine") [" g", "k"] = ["f", "g", "f", "g", "k"] := by
        decide +kernel
      rw [hnames]
      exact firstOccurrences_eraseDups ["f", "g", "f", "g", "k"]
    exact hfirsts.unique hexpected

end Catalog

end Excision
