import Excision.Proofs.FileTables
import Mathlib

/-!
# Project files are read as they are written

What a text says, once it is understood as a table, decides what is read from it
(`ProjectFile.parse_as_written`). It is a project file exactly if its table says so
(`ProjectFile.IsFile`) and has no unknown keys: then every setting is set whose key is there, and no
other one is, and the presets stand in the order of the text. If unknown keys of presets are all
that is wrong, the least one of the first preset with any is told.

So a file can be written back as a table (`ProjectFile.toTable`), and reading this table gives the
file again (`ProjectFile.ofTable_toTable`). Every setting is found under its key there, since the
order of the keys does not matter for looking them up. A depth that was read from somewhere fits in
sixty-four bits.

There is one way to set settings without naming them: a row of values under `defaults`
(`ProjectFile.row_sets_without_keys`).
-/

set_option autoImplicit false

namespace Excision

open Toml (Value Members)

/-! ## Tables of files -/

/-- The settings of a layer as members of a table, in no order of their keys. -/
def Layer.toMembers (layer : Layer) : Members :=
  ProjectFile.Setting.all.filterMap fun setting => (layer.value? setting).map (setting.key, ·)

/-- The table of a layer. -/
def Layer.toTable (layer : Layer) : Members := Toml.sortMembers layer.toMembers

/-- A preset as members of a table, in no order of their keys. -/
def PresetEntry.toMembers (entry : PresetEntry) : Members :=
  ("name", .string entry.name) :: ("methods", .array (entry.methods.map .string)) ::
    ((entry.description.toList.map fun text => ("description", .string text)) ++
      entry.settings.toMembers)

/-- The table of a preset. -/
def PresetEntry.toTable (entry : PresetEntry) : Members := Toml.sortMembers entry.toMembers

/-- The table of a file. -/
def ProjectFile.toTable (file : ProjectFile) : Members :=
  [("defaults", .table file.defaults.toTable),
    ("preset", .array ((file.presets.map PresetEntry.toTable).map .table))]

namespace ProjectFile

variable {layer : Layer} {entry : PresetEntry} {file : ProjectFile} {setting : Setting}
  {value : Value} {key : String}

theorem isOrdered_of_value?_eq_some (h : layer.value? setting = some value) : value.IsOrdered := by
  cases setting <;> obtain ⟨written, -, rfl⟩ := Option.map_eq_some_iff.1 h
  · exact .string _
  · exact .integer _
  · refine .array fun item hitem => ?_
    obtain ⟨modifier, -, rfl⟩ := List.mem_map.1 hitem
    exact .string modifier
  · exact .boolean _
  · exact .boolean _

theorem mem_toMembers_iff : (key, value) ∈ layer.toMembers ↔
    ∃ setting : Setting, setting.key = key ∧ layer.value? setting = some value := by
  simp only [Layer.toMembers, List.mem_filterMap, Option.map_eq_some_iff, Prod.mk.injEq]
  constructor
  · rintro ⟨setting, -, _, hvalue, hkey, rfl⟩
    exact ⟨setting, hkey, hvalue⟩
  · rintro ⟨setting, hkey, hvalue⟩
    exact ⟨setting, Setting.mem_all setting, value, hvalue, hkey, rfl⟩

theorem map_fst_toMembers_sublist (settings : List Setting) :
    ((settings.filterMap fun setting => (layer.value? setting).map (setting.key, ·)).map
      Prod.fst).Sublist (settings.map Setting.key) := by
  induction settings with
  | nil => exact List.Sublist.slnil
  | cons setting settings ih =>
      cases hvalue : layer.value? setting with
      | none =>
          rw [List.filterMap_cons_none (by rw [hvalue]; rfl)]
          exact ih.cons _
      | some value =>
          rw [List.filterMap_cons_some (by rw [hvalue]; rfl)]
          exact ih.cons_cons _

theorem nodup_toMembers : (layer.toMembers.map Prod.fst).Nodup :=
  (show (Setting.all.map Setting.key).Nodup by decide).sublist (map_fst_toMembers_sublist _)

theorem lookup_toMembers : layer.toMembers.lookup setting.key = layer.value? setting := by
  ext value
  rw [lookup_eq_some_iff_mem nodup_toMembers, mem_toMembers_iff]
  constructor
  · rintro ⟨other, hkey, hvalue⟩
    rwa [← Setting.key_injective hkey]
  · intro hvalue
    exact ⟨setting, rfl, hvalue⟩

theorem isOrdered_layerTable : Toml.IsOrdered layer.toTable := by
  refine Toml.isOrdered_sortMembers nodup_toMembers fun member hmember => ?_
  obtain ⟨setting, -, hvalue⟩ := mem_toMembers_iff.1 hmember
  exact isOrdered_of_value?_eq_some hvalue

/-- A layer is written with all of its values, if its depth fits. -/
theorem isWritten_of_lookup_eq {Names : Value → Lookback → Prop}
    (hnames : ∀ strategy : Lookback, Names (.string strategy.name) strategy)
    (hdepth : ∀ depth ∈ layer.depth, depth < 2 ^ 64) {written : Setting → Option Value}
    (hwritten : ∀ setting, written setting = layer.value? setting) :
    layer.IsWritten Names written := by
  constructor
  · intro setting value h
    rw [hwritten] at h
    cases setting <;> obtain ⟨x, hx, rfl⟩ := Option.map_eq_some_iff.1 h
    · exact ⟨x, hx, hnames x⟩
    · exact ⟨x, hx, rfl, hdepth x hx⟩
    · exact ⟨x, hx, rfl⟩
    · exact ⟨x, hx, rfl⟩
    · exact ⟨x, hx, rfl⟩
  · intro setting h
    rw [hwritten] at h
    rw [h]
    cases setting <;> rfl

/-- A depth that is written fits. -/
theorem depth_lt_of_isWritten {Names : Value → Lookback → Prop} {written : Setting → Option Value}
    (h : layer.IsWritten Names written) : ∀ depth ∈ layer.depth, depth < 2 ^ 64 := by
  intro depth hdepth
  cases hwritten : written .depth with
  | none =>
      have hnone := h.keeps .depth hwritten
      rw [Layer.value?, hdepth] at hnone
      cases hnone
  | some value =>
      obtain ⟨other, hother, -, hlt⟩ := h.holds .depth value hwritten
      cases hother.symm.trans hdepth
      exact hlt

theorem isDefaults_toTable (hdepth : ∀ depth ∈ layer.depth, depth < 2 ^ 64) :
    IsDefaults (some (.table layer.toTable)) layer := by
  constructor
  · intro key hkey
    obtain ⟨member, hmember, rfl⟩ := List.mem_map.1 hkey
    have hmember := (Toml.sortMembers_perm layer.toMembers).mem_iff.1 hmember
    obtain ⟨setting, hsetting, -⟩ := mem_toMembers_iff.1 hmember
    exact ⟨setting, hsetting.symm⟩
  · refine isWritten_of_lookup_eq (fun _ => Or.inl rfl) hdepth fun setting => ?_
    rw [Layer.toTable, Toml.lookup_sortMembers nodup_toMembers, lookup_toMembers]

/-! ## Tables of presets -/

theorem map_fst_presetMembers_sublist : (entry.toMembers.map Prod.fst).Sublist
    ("name" :: "methods" :: (["description"] ++ Setting.all.map Setting.key)) := by
  rw [PresetEntry.toMembers, List.map_cons, List.map_cons, List.map_append]
  refine ((List.Sublist.append ?_ (map_fst_toMembers_sublist _)).cons_cons _).cons_cons _
  cases entry.description with
  | none => exact List.nil_sublist _
  | some text => exact List.Sublist.refl _

theorem nodup_presetMembers : (entry.toMembers.map Prod.fst).Nodup :=
  (show ("name" :: "methods" :: (["description"] ++ Setting.all.map Setting.key)).Nodup by
    decide).sublist map_fst_presetMembers_sublist

theorem key_notMem_typedKeys (setting : Setting) : setting.key ∉ typedKeys := by
  cases setting <;> decide

/-- A setting of a preset is found behind its other members. -/
theorem lookup_presetMembers_key :
    entry.toMembers.lookup setting.key = entry.settings.value? setting := by
  have hkey := key_notMem_typedKeys setting
  simp only [typedKeys, List.mem_cons, List.not_mem_nil, or_false, not_or] at hkey
  obtain ⟨hname, hdescription, hmethods⟩ := hkey
  rw [PresetEntry.toMembers, List.lookup_cons, beq_eq_false_iff_ne.2 hname, List.lookup_cons,
    beq_eq_false_iff_ne.2 hmethods, List.lookup_append, lookup_toMembers]
  cases entry.description with
  | none => rfl
  | some text =>
      rw [Option.toList_some, List.map_singleton, List.lookup_cons,
        beq_eq_false_iff_ne.2 hdescription]
      rfl

theorem lookup_presetMembers_description :
    entry.toMembers.lookup "description" = entry.description.map .string := by
  have hsettings : entry.settings.toMembers.lookup "description" = none := by
    refine lookup_eq_none_iff_notMem.2 fun h => ?_
    exact absurd ((map_fst_toMembers_sublist _).subset h) (by decide)
  have hlookup : entry.toMembers.lookup "description" =
      ((entry.description.toList.map fun text => ("description", Value.string text)) ++
        entry.settings.toMembers).lookup "description" := rfl
  rw [hlookup, List.lookup_append, hsettings]
  cases entry.description <;> rfl

theorem isPreset_toTable (hdepth : ∀ depth ∈ entry.settings.depth, depth < 2 ^ 64) :
    IsPreset entry.toTable entry := by
  have hlookup (key : String) : entry.toTable.lookup key = entry.toMembers.lookup key :=
    Toml.lookup_sortMembers nodup_presetMembers key
  refine ⟨(hlookup _).trans rfl, (hlookup _).trans lookup_presetMembers_description,
    Or.inl ((hlookup _).trans rfl), ?_⟩
  refine isWritten_of_lookup_eq (fun _ => Or.inl rfl) hdepth fun setting => ?_
  rw [hlookup, lookup_presetMembers_key]

theorem unknownKeys_presetTable : unknownKeys entry.toTable = [] := by
  refine List.filter_eq_nil_iff.2 fun key hkey => ?_
  have hkey := ((Toml.sortMembers_perm entry.toMembers).map Prod.fst).mem_iff.1 hkey
  have hknown : ∀ key ∈ "name" :: "methods" :: (["description"] ++ Setting.all.map Setting.key),
      key ∈ presetKeys := by decide
  simpa using hknown key (map_fst_presetMembers_sublist.subset hkey)

theorem isOrdered_presetTable : Toml.IsOrdered entry.toTable := by
  refine Toml.isOrdered_sortMembers nodup_presetMembers fun member hmember => ?_
  -- a name, methods, perhaps a description, and settings
  simp only [PresetEntry.toMembers, List.mem_cons, List.mem_append, List.mem_map] at hmember
  rcases hmember with rfl | rfl | ⟨text, -, rfl⟩ | hmember
  · exact .string _
  · refine .array fun item hitem => ?_
    obtain ⟨method, -, rfl⟩ := List.mem_map.1 hitem
    exact .string method
  · exact .string text
  · obtain ⟨setting, -, hvalue⟩ := mem_toMembers_iff.1 hmember
    exact isOrdered_of_value?_eq_some hvalue

/-! ## Tables of files -/

theorem isOrdered_toTable : Toml.IsOrdered file.toTable := by
  constructor
  · show ["defaults", "preset"].Pairwise (· < ·)
    decide
  · refine List.forall_mem_cons.2 ⟨?_, List.forall_mem_singleton.2 (.array fun item hitem => ?_)⟩
    · exact .table isOrdered_layerTable.1 isOrdered_layerTable.2
    · obtain ⟨table, htable, rfl⟩ := List.mem_map.1 hitem
      obtain ⟨entry, -, rfl⟩ := List.mem_map.1 htable
      exact .table isOrdered_presetTable.1 isOrdered_presetTable.2

theorem isFile_toTable (hdefaults : ∀ depth ∈ file.defaults.depth, depth < 2 ^ 64)
    (hpresets : ∀ entry ∈ file.presets, ∀ depth ∈ entry.settings.depth, depth < 2 ^ 64) :
    IsFile file.toTable (file.presets.map PresetEntry.toTable) file := by
  have hknown : ∀ key ∈ ["defaults", "preset"], key ∈ keys := by decide
  refine ⟨hknown, isDefaults_toTable hdefaults, Or.inl rfl, ?_⟩
  exact List.forall₂_map_left_iff.2 (List.forall₂_same.2 fun entry hentry =>
    isPreset_toTable (hpresets entry hentry))

/-- A file with depths that fit is read from its own table. -/
theorem ofTable_toTable (hdefaults : ∀ depth ∈ file.defaults.depth, depth < 2 ^ 64)
    (hpresets : ∀ entry ∈ file.presets, ∀ depth ∈ entry.settings.depth, depth < 2 ^ 64) :
    ofTable file.toTable = .ok file := by
  refine (ofTable_eq_ok_iff isOrdered_toTable).2 ⟨_, isFile_toTable hdefaults hpresets, ?_⟩
  intro table htable
  obtain ⟨entry, -, rfl⟩ := List.mem_map.1 htable
  exact unknownKeys_presetTable

theorem depth_lt_of_isDefaults {value : Option Value} (h : IsDefaults value layer) :
    ∀ depth ∈ layer.depth, depth < 2 ^ 64 := by
  unfold IsDefaults at h
  split at h
  · rw [h]
    exact nofun
  · exact depth_lt_of_isWritten h.2
  · exact depth_lt_of_isWritten h.2
  · exact h.elim

theorem depth_lt_of_forall₂_isPreset {tables : List Members} {entries : List PresetEntry}
    (h : List.Forall₂ IsPreset tables entries) :
    ∀ entry ∈ entries, ∀ depth ∈ entry.settings.depth, depth < 2 ^ 64 := by
  induction h with
  | nil => exact List.forall_mem_nil _
  | cons hpreset _ ih => exact List.forall_mem_cons.2 ⟨depth_lt_of_isWritten hpreset.settings, ih⟩

/-! ## Texts -/

theorem parse_eq_ofTable {text : String} {members : Members} (h : Toml.parse text = .ok members) :
    parse text = ofTable members := by
  rw [parse, h]

/-- **A project file is read exactly as it is written.** -/
theorem parse_as_written {text : String} {members : Members} (h : Toml.parse text = .ok members) :
    (∀ file, parse text = .ok file ↔
        ∃ tables, IsFile members tables file ∧ ∀ table ∈ tables, unknownKeys table = []) ∧
      (∀ file, parse text = .ok file → ofTable file.toTable = .ok file) ∧
      ∀ file before table after key, IsFile members (before ++ table :: after) file →
        (∀ other ∈ before ++ table :: after, ∀ member ∈ other,
          member.1 ∈ unknownKeys other → IsPlain member.2) →
        (∀ earlier ∈ before, unknownKeys earlier = []) →
        key ∈ unknownKeys table → (∀ other ∈ unknownKeys table, key ≤ other) →
        ∃ name, table.lookup "name" = some (.string name) ∧
          parse text = .error (.unknownPresetKey key name) := by
  have hmembers := Toml.isOrdered_of_parse h
  rw [parse_eq_ofTable h]
  refine ⟨fun file => ofTable_eq_ok_iff hmembers, fun file hfile => ?_, ?_⟩
  · obtain ⟨tables, hwritten, -⟩ := (ofTable_eq_ok_iff hmembers).1 hfile
    exact ofTable_toTable (depth_lt_of_isDefaults hwritten.defaults)
      (depth_lt_of_forall₂_isPreset hwritten.presets)
  · intro file before table after key hwritten hplain hbefore hkey hleast
    exact ofTable_eq_unknownPresetKey hmembers hwritten hplain hbefore hkey hleast

/-- Two presets, the second one with two unknown keys that are not in their order. -/
def strangeText : String := "preset = [\x7bname='o'\x7d, \x7bname='p', b='x', a='y'\x7d]"

/-- The table of the preset with unknown keys. -/
def strangeTable : Members := [("a", .string "y"), ("b", .string "x"), ("name", .string "p")]

/-- The values of the presets, as they are written. -/
def rawPresets : Toml.RawValue :=
  .array [.inline [([.word "name".toList], .scalar (.quoted .literal ['o']))],
    .inline [([.word "name".toList], .scalar (.quoted .literal ['p'])),
      ([.word ['b']], .scalar (.quoted .literal ['x'])),
      ([.word ['a']], .scalar (.quoted .literal ['y']))]]

theorem tomlParse_strangeText : Toml.parse strangeText =
    .ok [("preset", .array [.table [("name", .string "o")], .table strangeTable])] := by
  have htokens : Toml.tokens? strangeText.toList =
      some [.word "preset".toList, .blank ' ', .equals, .blank ' ', .openBracket,
        .openBrace, .word "name".toList, .equals, .quoted .literal ['o'], .closeBrace,
        .comma, .blank ' ',
        .openBrace, .word "name".toList, .equals, .quoted .literal ['p'], .comma, .blank ' ',
        .word ['b'], .equals, .quoted .literal ['x'], .comma, .blank ' ',
        .word ['a'], .equals, .quoted .literal ['y'], .closeBrace, .closeBracket] := by
    cbv
  have hstatements : (Toml.tokens? strangeText.toList).bind Toml.Statement.ofTokens? =
      some [.pair [.word "preset".toList] rawPresets] := by
    rw [htokens]
    rfl
  rw [Toml.parse, hstatements]
  cbv

theorem parse_as_written_on_unknown_keys :
    Toml.parse strangeText =
        .ok [("preset", .array [.table [("name", .string "o")], .table strangeTable])] ∧
      parse strangeText = .error (.unknownPresetKey "a" "p") := by
  have hparse := tomlParse_strangeText
  have hnothing (table : Members) (h : ∀ setting : Setting, table.lookup setting.key = none) :
      ({} : Layer).IsWritten NamesPresetLookback fun setting => table.lookup setting.key :=
    isWritten_of_lookup_eq (fun _ => Or.inl rfl) (fun _ hdepth => by cases hdepth) fun setting =>
      (h setting).trans (by cases setting <;> rfl)
  have hfile : IsFile [("preset", .array [.table [("name", .string "o")], .table strangeTable])]
      ([[("name", .string "o")]] ++ [strangeTable])
      ⟨{}, [⟨"o", none, [], {}⟩, ⟨"p", none, [], {}⟩]⟩ := by
    refine ⟨by decide, rfl, Or.inl rfl, ?_⟩
    refine .cons ⟨rfl, rfl, Or.inr ⟨rfl, rfl⟩, hnothing _ ?_⟩
      (.cons ⟨rfl, rfl, Or.inr ⟨rfl, rfl⟩, hnothing _ ?_⟩ .nil)
    · intro setting
      cases setting <;> rfl
    · intro setting
      cases setting <;> rfl
  have hplain : ∀ other ∈ [[("name", Value.string "o")]] ++ [strangeTable], ∀ member ∈ other,
      member.1 ∈ unknownKeys other → IsPlain member.2 := by
    have hfirst : ∀ member ∈ [("name", Value.string "o")], IsPlain member.2 :=
      List.forall_mem_singleton.2 (.string "o")
    have hsecond : ∀ member ∈ strangeTable, IsPlain member.2 :=
      List.forall_mem_cons.2 ⟨.string "y", List.forall_mem_cons.2 ⟨.string "x",
        List.forall_mem_singleton.2 (.string "p")⟩⟩
    intro other hother member hmember _
    rcases List.mem_append.1 hother with hother | hother
    · rw [List.mem_singleton.1 hother] at hmember
      exact hfirst member hmember
    · rw [List.mem_singleton.1 hother] at hmember
      exact hsecond member hmember
  have hknown : unknownKeys [("name", .string "o")] = [] := by decide
  have hunknown : unknownKeys strangeTable = ["a", "b"] := by decide
  have hleast : ∀ other ∈ ["a", "b"], "a" ≤ other := by decide
  obtain ⟨-, -, herror⟩ := parse_as_written hparse
  obtain ⟨name, hname, h⟩ := herror _ _ _ _ "a" hfile hplain (List.forall_mem_singleton.2 hknown)
    (by rw [hunknown]; decide) (by rw [hunknown]; exact hleast)
  cases hname
  exact ⟨hparse, h⟩

/-- A row of the settings in their order. -/
def rowText : String := "defaults = ['bounded', 3, ['a'], true, false]\n"

/-- The values of the row, as they are written. -/
def rawRow : Toml.RawValue :=
  .array [.scalar (.quoted .literal "bounded".toList), .scalar (.word ['3']),
    .array [.scalar (.quoted .literal ['a'])], .scalar (.word "true".toList),
    .scalar (.word "false".toList)]

/-- The values of the row. -/
def row : List Value :=
  [.string "bounded", .integer (some 3), .array [.string "a"], .boolean true, .boolean false]

theorem value_rawRow : rawRow.value = .ok (.array row) := by
  -- the names of floats are passed by without a look at the floats
  have hnamed : Toml.named? ['3'] = none := rfl
  have hthree : Toml.wordValue ['3'] = .ok (.integer (some 3)) := by
    unfold Toml.wordValue
    simp only [hnamed]
    cbv
  have htrue : Toml.wordValue "true".toList = .ok (.boolean true) := rfl
  have hfalse : Toml.wordValue "false".toList = .ok (.boolean false) := rfl
  simp only [rawRow, row, Toml.RawValue.value, Toml.RawValue.values, Toml.scalarValue, hthree,
    htrue, hfalse]
  cbv

theorem tomlParse_rowText : Toml.parse rowText = .ok [("defaults", .array row)] := by
  have htokens : Toml.tokens? rowText.toList =
      some [.word "defaults".toList, .blank ' ', .equals, .blank ' ', .openBracket,
        .quoted .literal "bounded".toList, .comma, .blank ' ', .word ['3'], .comma, .blank ' ',
        .openBracket, .quoted .literal ['a'], .closeBracket, .comma, .blank ' ',
        .word "true".toList, .comma, .blank ' ', .word "false".toList, .closeBracket,
        .newline] := by
    cbv
  have hstatements : (Toml.tokens? rowText.toList).bind Toml.Statement.ofTokens? =
      some [.pair [.word "defaults".toList] rawRow] := by
    rw [htokens]
    rfl
  rw [Toml.parse, hstatements]
  simp only [List.foldlM, Toml.Draft.carryOut, value_rawRow]
  cbv

/-- A row under `defaults` sets the settings, though there is no key of any of them. -/
theorem row_sets_without_keys : ∃ members file,
    Toml.parse rowText = .ok members ∧ parse rowText = .ok file ∧
      ¬ ∀ setting : Setting, (file.defaults.value? setting).isSome = true ↔
        ∃ table, members.lookup "defaults" = some (.table table) ∧
          setting.key ∈ table.map Prod.fst := by
  have hread : parse rowText =
      .ok ⟨⟨some .bounded, some 3, some ["a"], some true, some false⟩, []⟩ := by
    rw [parse_eq_ofTable tomlParse_rowText]
    cbv
  refine ⟨_, _, tomlParse_rowText, hread, fun h => ?_⟩
  obtain ⟨table, htable, -⟩ := (h .lookback).1 rfl
  cases htable

end ProjectFile

end Excision
