import Excision.Proofs.PresetTables

/-!
# What the table of a project file says

The table of a document has two keys: `defaults`, and `preset` for the tables of presets in their
order. What it says is a relation between the table and a file (`ProjectFile.IsFile`), which does
not look at members of presets that have unknown keys. Reading finds such a file wherever there is
one, with the unknown keys of every preset (`ProjectFile.addAll_empty_eq_ok_iff`).

Then these keys decide. Without any the file is read, and in no other case
(`ProjectFile.ofTable_eq_ok_iff`). Otherwise the least one of the first preset that has any is told
(`ProjectFile.ofTable_eq_unknownPresetKey`).
-/

set_option autoImplicit false

namespace Excision

open Toml (Value Members)

namespace ProjectFile

variable {members table : Members} {tables : List Members} {file : ProjectFile} {layer : Layer}

/-! ## Lists of presets -/

/-- The unknown members of a table have values that can be passed over. -/
def PassesOver (table : Members) : Prop :=
  ∀ member ∈ table, member.1 ∉ presetKeys →
    checkWidth member.2 = .ok () ∧ checkLoose member.2 = .ok ()

theorem preset_eq_ok_iff {value : Value} {result : PresetEntry × List String}
    (hvalue : value.IsOrdered) :
    preset value = .ok result ↔
      ∃ table, value = .table table ∧ IsPreset table result.1 ∧ result.2 = unknownKeys table ∧
        PassesOver table := by
  cases hvalue with
  | @table table hkeys hmembers =>
      rw [preset, presetOfMembers_eq_ok_iff (Toml.nodup_of_pairwise_lt hkeys)]
      constructor
      · intro h
        exact ⟨table, rfl, h⟩
      · rintro ⟨_, heq, h⟩
        cases heq
        exact h
  | moment text =>
      -- a date or time is read as a table with one key, which lacks a name
      refine iff_of_false (fun h => ?_) nofun
      have hkeys : ([(momentKey, Value.string text)].map Prod.fst).Nodup := List.nodup_singleton _
      have hname := ((presetOfMembers_eq_ok_iff hkeys).1 h).1.name
      cases hname
  | string text => exact iff_of_false (wrongType_ne_ok (.string text) _ result) nofun
  | integer n => exact iff_of_false (wrongType_ne_ok (.integer n) _ result) nofun
  | float x => exact iff_of_false (wrongType_ne_ok (.float x) _ result) nofun
  | boolean b => exact iff_of_false (wrongType_ne_ok (.boolean b) _ result) nofun
  | @array items h => exact iff_of_false (wrongType_ne_ok (.array items) _ result) nofun

/-- Items that are each the image of something are images of a list. -/
theorem forall₂_exists_iff {α β γ : Type} {f : α → β} {R : α → γ → Prop} {items : List β}
    {results : List γ} :
    List.Forall₂ (fun item result => ∃ a, item = f a ∧ R a result) items results ↔
      ∃ as : List α, items = as.map f ∧ List.Forall₂ R as results := by
  constructor
  · intro h
    induction h with
    | nil => exact ⟨[], rfl, .nil⟩
    | cons h _ ih =>
        obtain ⟨a, rfl, ha⟩ := h
        obtain ⟨as, rfl, has⟩ := ih
        exact ⟨a :: as, rfl, .cons ha has⟩
  · rintro ⟨as, rfl, h⟩
    exact List.forall₂_map_left_iff.2 (h.imp fun a _ ha => ⟨a, rfl, ha⟩)

theorem presetList_eq_ok_iff {value : Value} {results : List (PresetEntry × List String)}
    (hvalue : value.IsOrdered) :
    presetList value = .ok results ↔
      ∃ tables : List Members, value = .array (tables.map .table) ∧
        List.Forall₂ (fun table result => IsPreset table result.1 ∧ result.2 = unknownKeys table ∧
          PassesOver table) tables results := by
  cases hvalue with
  | @array items hitems =>
      rw [presetList, mapM_eq_ok_iff]
      simp only [Value.array.injEq]
      constructor
      · intro h
        have h := (List.forall₂_and_left items results).2 ⟨hitems, h⟩
        exact forall₂_exists_iff.1 (h.imp fun item result h => (preset_eq_ok_iff h.1).1 h.2)
      · intro h
        have h := (List.forall₂_and_left items results).2 ⟨hitems, forall₂_exists_iff.2 h⟩
        exact h.imp fun item result h => (preset_eq_ok_iff h.1).2 h.2
  | @table table _ _ => exact iff_of_false (wrongType_ne_ok (.table table) _ results) nofun
  | moment text => exact iff_of_false (wrongType_ne_ok (.moment text) _ results) nofun
  | string text => exact iff_of_false (wrongType_ne_ok (.string text) _ results) nofun
  | integer n => exact iff_of_false (wrongType_ne_ok (.integer n) _ results) nofun
  | float x => exact iff_of_false (wrongType_ne_ok (.float x) _ results) nofun
  | boolean b => exact iff_of_false (wrongType_ne_ok (.boolean b) _ results) nofun

/-! ## The members of a file -/

/-- Whether something is read from a value, or is as before where there is none. -/
def ReadsOr {α : Type} (read : Value → Decoded α) (before : α) : Option Value → α → Prop
  | none, after => after = before
  | some value, after => read value = .ok after

/-- A file is made of what is under its two keys. -/
theorem addAll_eq_ok_iff {draft result : Draft} (hkeys : (members.map Prod.fst).Nodup) :
    draft.addAll members = .ok result ↔
      (∀ key ∈ members.map Prod.fst, key ∈ keys) ∧
        ReadsOr defaultSettings draft.defaults (members.lookup "defaults") result.defaults ∧
          ReadsOr presetList draft.presets (members.lookup "preset") result.presets := by
  induction members generalizing draft with
  | nil =>
      rw [Draft.addAll, Except.ok.injEq]
      constructor
      · rintro rfl
        exact ⟨List.forall_mem_nil _, rfl, rfl⟩
      · rintro ⟨-, hdefaults, hpresets⟩
        cases draft
        cases result
        exact congrArg₂ Draft.mk hdefaults.symm hpresets.symm
  | cons entry members ih =>
      obtain ⟨key, value⟩ := entry
      obtain ⟨hkey, hrest⟩ := List.nodup_cons.1 hkeys
      have hlater : members.lookup key = none := lookup_eq_none_iff_notMem.2 hkey
      rw [Draft.addAll, List.map_cons, List.forall_mem_cons]
      split
      · next h =>
        -- after this key nothing else is read into the defaults
        subst h
        simp only [bind_eq_ok_iff, ih hrest, hlater]
        constructor
        · rintro ⟨defaults, hread, hknown, rfl, hpresets⟩
          exact ⟨⟨by decide, hknown⟩, hread, hpresets⟩
        · rintro ⟨⟨-, hknown⟩, hread, hpresets⟩
          exact ⟨result.defaults, hread, hknown, rfl, hpresets⟩
      · split
        · next h =>
          subst h
          simp only [bind_eq_ok_iff, ih hrest, hlater]
          constructor
          · rintro ⟨presets, hread, hknown, hdefaults, rfl⟩
            exact ⟨⟨by decide, hknown⟩, hdefaults, hread⟩
          · rintro ⟨⟨-, hknown⟩, hdefaults, hread⟩
            exact ⟨result.presets, hread, hknown, hdefaults, rfl⟩
        · next hdefaults hpreset =>
          refine iff_of_false nofun ?_
          rintro ⟨⟨hknown, -⟩, -⟩
          simp [keys, hdefaults, hpreset] at hknown

/-- Whether the table of a document says what a file is, with tables of presets in their order.
Members of presets that have unknown keys are not looked at. -/
structure IsFile (members : Members) (tables : List Members) (file : ProjectFile) : Prop where
  known : ∀ key ∈ members.map Prod.fst, key ∈ keys
  defaults : IsDefaults (members.lookup "defaults") file.defaults
  listed : members.lookup "preset" = some (.array (tables.map .table)) ∨
    members.lookup "preset" = none ∧ tables = []
  presets : List.Forall₂ IsPreset tables file.presets

theorem lookup_isOrdered {key : String} {value : Value} (hmembers : Toml.IsOrdered members)
    (h : members.lookup key = some value) : value.IsOrdered :=
  hmembers.2 _ ((lookup_eq_some_iff_mem (Toml.nodup_of_pairwise_lt hmembers.1)).1 h)

/-- The results of reading presets, as two lists. -/
theorem forall₂_results_iff {results : List (PresetEntry × List String)} :
    List.Forall₂ (fun table result => IsPreset table result.1 ∧ result.2 = unknownKeys table ∧
        PassesOver table) tables results ↔
      List.Forall₂ IsPreset tables (results.map Prod.fst) ∧
        results.map Prod.snd = tables.map unknownKeys ∧ ∀ table ∈ tables, PassesOver table := by
  induction tables generalizing results with
  | nil => cases results <;> simp
  | cons table tables ih =>
      cases results with
      | nil => simp
      | cons result results =>
          rw [List.forall₂_cons, List.map_cons, List.forall₂_cons, List.map_cons, List.map_cons,
            List.cons.injEq, List.forall_mem_cons, ih]
          constructor
          · rintro ⟨⟨hpreset, hunknown, hpasses⟩, hpresets, hunknowns, hall⟩
            exact ⟨⟨hpreset, hpresets⟩, ⟨hunknown, hunknowns⟩, hpasses, hall⟩
          · rintro ⟨⟨hpreset, hpresets⟩, ⟨hunknown, hunknowns⟩, hpasses, hall⟩
            exact ⟨⟨hpreset, hunknown, hpasses⟩, hpresets, hunknowns, hall⟩

theorem readsOr_defaults_iff (hmembers : Toml.IsOrdered members) :
    ReadsOr defaultSettings {} (members.lookup "defaults") layer ↔
      IsDefaults (members.lookup "defaults") layer := by
  cases hlookup : members.lookup "defaults" with
  | none => exact Iff.rfl
  | some value => exact defaultSettings_eq_ok_iff (lookup_isOrdered hmembers hlookup)

theorem readsOr_presets_iff {results : List (PresetEntry × List String)}
    (hmembers : Toml.IsOrdered members) :
    ReadsOr presetList [] (members.lookup "preset") results ↔
      ∃ tables : List Members, (members.lookup "preset" = some (.array (tables.map .table)) ∨
          members.lookup "preset" = none ∧ tables = []) ∧
        List.Forall₂ IsPreset tables (results.map Prod.fst) ∧
          results.map Prod.snd = tables.map unknownKeys ∧ ∀ table ∈ tables, PassesOver table := by
  simp only [← forall₂_results_iff]
  cases hlookup : members.lookup "preset" with
  | none =>
      constructor
      · rintro rfl
        exact ⟨[], Or.inr ⟨rfl, rfl⟩, .nil⟩
      · rintro ⟨tables, h | ⟨-, rfl⟩, hresults⟩
        · cases h
        · cases hresults
          rfl
  | some value =>
      refine (presetList_eq_ok_iff (lookup_isOrdered hmembers hlookup)).trans ?_
      simp

/-- The members of a file are read exactly if they say what a file is, and unknown members of
presets have values that can be passed over. -/
theorem addAll_empty_eq_ok_iff {draft : Draft} (hmembers : Toml.IsOrdered members) :
    Draft.addAll {} members = .ok draft ↔
      ∃ tables, IsFile members tables ⟨draft.defaults, draft.presets.map Prod.fst⟩ ∧
        draft.presets.map Prod.snd = tables.map unknownKeys ∧
          ∀ table ∈ tables, PassesOver table := by
  rw [addAll_eq_ok_iff (Toml.nodup_of_pairwise_lt hmembers.1), readsOr_defaults_iff hmembers,
    readsOr_presets_iff hmembers]
  constructor
  · rintro ⟨hknown, hdefaults, tables, hlisted, hpresets, hunknown, hpasses⟩
    exact ⟨tables, ⟨hknown, hdefaults, hlisted, hpresets⟩, hunknown, hpasses⟩
  · rintro ⟨tables, ⟨hknown, hdefaults, hlisted, hpresets⟩, hunknown, hpasses⟩
    exact ⟨hknown, hdefaults, tables, hlisted, hpresets, hunknown, hpasses⟩

/-- A table that says what a file is can be read, with the unknown keys of every preset. -/
theorem exists_addAll_of_isFile (hmembers : Toml.IsOrdered members)
    (hfile : IsFile members tables file) (hpasses : ∀ table ∈ tables, PassesOver table) :
    Draft.addAll {} members = .ok ⟨file.defaults, file.presets.zip (tables.map unknownKeys)⟩ := by
  have hlength : file.presets.length = (tables.map unknownKeys).length := by
    rw [List.length_map, hfile.presets.length_eq]
  rw [addAll_empty_eq_ok_iff hmembers, List.map_fst_zip (Nat.le_of_eq hlength),
    List.map_snd_zip (Nat.le_of_eq hlength.symm)]
  exact ⟨tables, hfile, rfl, hpasses⟩

/-! ## Unknown keys of presets -/

theorem firstUnknown?_eq_none_iff {presets : List (PresetEntry × List String)} :
    firstUnknown? presets = none ↔ ∀ preset ∈ presets, preset.2 = [] := by
  induction presets with
  | nil => simp [firstUnknown?]
  | cons preset presets ih =>
      obtain ⟨entry, unknown⟩ := preset
      cases unknown with
      | nil => simp [firstUnknown?, ih]
      | cons key others => simp [firstUnknown?]

theorem passesOver_of_unknownKeys_eq_nil (h : unknownKeys table = []) : PassesOver table := by
  intro member hmember hkey
  have hmem : member.1 ∈ unknownKeys table :=
    List.mem_filter.2 ⟨List.mem_map_of_mem hmember, by simpa using hkey⟩
  rw [h] at hmem
  cases hmem

/-- **A table is read as a file exactly if it says what the file is and has no unknown keys.** -/
theorem ofTable_eq_ok_iff (hmembers : Toml.IsOrdered members) :
    ofTable members = .ok file ↔
      ∃ tables, IsFile members tables file ∧ ∀ table ∈ tables, unknownKeys table = [] := by
  constructor
  · intro h
    obtain ⟨draft, hdraft, h⟩ := exists_of_bind_eq_ok h
    obtain ⟨tables, hfile, hunknown, -⟩ := (addAll_empty_eq_ok_iff hmembers).1 hdraft
    split at h
    · cases h
    · next hnone =>
      cases h
      refine ⟨tables, hfile, fun table htable => ?_⟩
      -- the unknown keys of the table stand beside the preset that was read from it
      have hmem : unknownKeys table ∈ draft.presets.map Prod.snd := by
        rw [hunknown]
        exact List.mem_map_of_mem htable
      obtain ⟨preset, hpreset, heq⟩ := List.mem_map.1 hmem
      rw [← heq]
      exact firstUnknown?_eq_none_iff.1 hnone preset hpreset
  · rintro ⟨tables, hfile, hunknown⟩
    have hlength : file.presets.length ≤ (tables.map unknownKeys).length :=
      Nat.le_of_eq (by rw [List.length_map, hfile.presets.length_eq])
    have hnone : firstUnknown? (file.presets.zip (tables.map unknownKeys)) = none := by
      refine firstUnknown?_eq_none_iff.2 fun preset hpreset => ?_
      obtain ⟨table, htable, heq⟩ := List.mem_map.1 (List.of_mem_zip hpreset).2
      rw [← heq, hunknown table htable]
    have hdraft := exists_addAll_of_isFile hmembers hfile fun table htable =>
      passesOver_of_unknownKeys_eq_nil (hunknown table htable)
    simp only [ofTable, hdraft, Except.bind, bind, hnone, List.map_fst_zip hlength]

/-- The least of the unknown keys is the first one. -/
theorem exists_unknownKeys_eq_cons {key : String} (htable : Toml.IsOrdered table)
    (hkey : key ∈ unknownKeys table) (hleast : ∀ other ∈ unknownKeys table, key ≤ other) :
    ∃ others, unknownKeys table = key :: others := by
  have hsorted : (unknownKeys table).Pairwise (· < ·) := htable.1.sublist List.filter_sublist
  cases hkeys : unknownKeys table with
  | nil =>
      rw [hkeys] at hkey
      cases hkey
  | cons first others =>
      rw [hkeys] at hkey hleast hsorted
      rcases List.mem_cons.1 hkey with rfl | hother
      · exact ⟨others, rfl⟩
      · -- behind the first key the least one would be less than itself
        have hlt : first < key := (List.pairwise_cons.1 hsorted).1 key hother
        exact absurd hlt (String.not_lt.2 (hleast first List.mem_cons_self))

theorem isOrdered_of_mem_tables (hmembers : Toml.IsOrdered members)
    (hfile : IsFile members tables file) (htable : table ∈ tables) : Toml.IsOrdered table := by
  rcases hfile.listed with hlisted | ⟨-, rfl⟩
  · cases lookup_isOrdered hmembers hlisted with
    | array hitems =>
      cases hitems _ (List.mem_map_of_mem htable) with
      | table hkeys hmembers => exact ⟨hkeys, hmembers⟩
  · cases htable

/-- The first preset with an unknown key decides which one is told. -/
theorem firstUnknown?_eq_some {before after : List Members} {key : String} {others : List String}
    {entries : List PresetEntry}
    (hentries : List.Forall₂ IsPreset (before ++ table :: after) entries)
    (hbefore : ∀ earlier ∈ before, unknownKeys earlier = [])
    (hkey : unknownKeys table = key :: others) :
    ∃ name, table.lookup "name" = some (.string name) ∧
      firstUnknown? (entries.zip ((before ++ table :: after).map unknownKeys)) =
        some (key, name) := by
  induction before generalizing entries with
  | nil =>
      cases hentries with
      | @cons _ entry _ entries hentry hrest =>
          refine ⟨entry.name, hentry.name, ?_⟩
          rw [List.nil_append, List.map_cons, hkey]
          rfl
  | cons earlier before ih =>
      cases hentries with
      | @cons _ entry _ entries hentry hrest =>
          obtain ⟨hearlier, hbefore⟩ := List.forall_mem_cons.1 hbefore
          obtain ⟨name, hname, hfirst⟩ := ih hrest hbefore
          refine ⟨name, hname, ?_⟩
          rw [List.cons_append, List.map_cons, hearlier]
          exact hfirst

/-- If unknown keys of presets are the only faults, the least one of the first preset that has any
is told. -/
theorem ofTable_eq_unknownPresetKey (hmembers : Toml.IsOrdered members)
    {before after : List Members} {key : String}
    (hfile : IsFile members (before ++ table :: after) file)
    (hplain : ∀ other ∈ before ++ table :: after, ∀ member ∈ other,
      member.1 ∈ unknownKeys other → IsPlain member.2)
    (hbefore : ∀ earlier ∈ before, unknownKeys earlier = [])
    (hkey : key ∈ unknownKeys table) (hleast : ∀ other ∈ unknownKeys table, key ≤ other) :
    ∃ name, table.lookup "name" = some (.string name) ∧
      ofTable members = .error (.unknownPresetKey key name) := by
  have htable := isOrdered_of_mem_tables hmembers hfile (List.mem_append_right _ List.mem_cons_self)
  obtain ⟨others, hothers⟩ := exists_unknownKeys_eq_cons htable hkey hleast
  obtain ⟨name, hname, hfirst⟩ := firstUnknown?_eq_some hfile.presets hbefore hothers
  have hdraft := exists_addAll_of_isFile hmembers hfile fun other hother member hmember hunknown =>
    (hplain other hother member hmember
      (List.mem_filter.2 ⟨List.mem_map_of_mem hmember, by simpa using hunknown⟩)).check
  refine ⟨name, hname, ?_⟩
  simp only [ofTable, hdraft, bind, Except.bind, hfirst]

end ProjectFile

end Excision
