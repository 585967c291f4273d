import Excision.Proofs.Decoding

/-!
# What the presets of a project file say

The members of a preset with a type of their own are gathered first, and the other ones are kept
aside (`PresetDraft.Gathers`, with `PresetDraft.addAll_eq_ok_iff` for the walk over all members).
The settings among those kept are then read as in every table, and what is left are the members of
unknown keys.

So a preset is exactly what the known members of its table say (`ProjectFile.IsPreset`), and its
unknown keys come along (`ProjectFile.presetOfMembers_eq_ok_iff`). All that is asked of an unknown
member is a value that a table can hold, and every plain one will do
(`ProjectFile.IsPlain.check`).
-/

set_option autoImplicit false

namespace Excision

open Toml (Value Members)

namespace ProjectFile

variable {members : Members} {layer : Layer}

/-! ## Values that are not looked at -/

/-- Whether a table of values can hold a value: its integers fit in sixty-four bits with a sign, its
floats have a value, and none of its tables would be taken for a date or time. -/
inductive IsPlain : Value → Prop where
  | string (text : String) : IsPlain (.string text)
  | boolean (choice : Bool) : IsPlain (.boolean choice)
  | moment (text : String) : IsPlain (.moment text)
  | float (x : Float) : IsPlain (.float (some x))
  | integer (n : Int) (hlow : -2 ^ 63 ≤ n) (hhigh : n < 2 ^ 63) : IsPlain (.integer (some n))
  | array {items : List Value} (hitems : ∀ item ∈ items, IsPlain item) : IsPlain (.array items)
  | table {members : List (String × Value)} (hfirst : (members.map Prod.fst).head? ≠ some momentKey)
      (hmembers : ∀ entry ∈ members, IsPlain entry.2) : IsPlain (.table members)

theorem checkItems_eq_ok_iff {items : List Value} :
    checkItems items = .ok () ↔ ∀ item ∈ items, checkWidth item = .ok () := by
  induction items with
  | nil => simp [checkItems]
  | cons item items ih =>
      rw [checkItems, check_bind_eq_ok_iff, ih, List.forall_mem_cons]

theorem checkMembers_eq_ok_iff :
    checkMembers members = .ok () ↔ ∀ entry ∈ members, checkWidth entry.2 = .ok () := by
  induction members with
  | nil => simp [checkMembers]
  | cons entry members ih =>
      rw [checkMembers, check_bind_eq_ok_iff, ih, List.forall_mem_cons]

theorem checkLooseItems_eq_ok_iff {items : List Value} :
    checkLooseItems items = .ok () ↔ ∀ item ∈ items, checkLoose item = .ok () := by
  induction items with
  | nil => simp [checkLooseItems]
  | cons item items ih =>
      rw [checkLooseItems, check_bind_eq_ok_iff, ih, List.forall_mem_cons]

theorem checkLooseMembers_eq_ok_iff :
    checkLooseMembers members = .ok () ↔ ∀ entry ∈ members, checkLoose entry.2 = .ok () := by
  induction members with
  | nil => simp [checkLooseMembers]
  | cons entry members ih =>
      rw [checkLooseMembers, check_bind_eq_ok_iff, ih, List.forall_mem_cons]

/-- A value that a table can hold is passed over. -/
theorem IsPlain.check {value : Value} (h : IsPlain value) :
    checkWidth value = .ok () ∧ checkLoose value = .ok () := by
  induction h with
  | string text => exact ⟨rfl, rfl⟩
  | boolean choice => exact ⟨rfl, rfl⟩
  | moment text => exact ⟨rfl, rfl⟩
  | float x => exact ⟨rfl, rfl⟩
  | integer n hlow hhigh =>
      have hwide : Int.pow 2 64 = 2 ^ 63 + 2 ^ 63 := rfl
      have hpow : Int.pow 2 63 = 2 ^ 63 := rfl
      rw [checkWidth, checkLoose, hpow, hwide, if_pos ⟨hlow, by omega⟩, if_pos hhigh]
      exact ⟨rfl, rfl⟩
  | array hitems ih =>
      rw [checkWidth, checkLoose, checkItems_eq_ok_iff, checkLooseItems_eq_ok_iff]
      exact ⟨fun item hitem => (ih item hitem).1, fun item hitem => (ih item hitem).2⟩
  | @table members hfirst hmembers ih =>
      rw [checkWidth, checkLoose, checkMembers_eq_ok_iff]
      refine ⟨fun entry hentry => (ih entry hentry).1, ?_⟩
      -- only the first key could make a date or time of the table
      cases members with
      | nil => rfl
      | cons entry members =>
          obtain ⟨key, value⟩ := entry
          have hkey : key ≠ momentKey := fun h => hfirst (congrArg some h)
          obtain ⟨hvalue, hothers⟩ := List.forall_mem_cons.1 ih
          rw [checkLooseTable, if_neg hkey, check_bind_eq_ok_iff, checkLooseMembers_eq_ok_iff]
          exact ⟨hvalue.2, fun entry hentry => (hothers entry hentry).2⟩

/-! ## Drafts of presets -/

/-- The keys of a preset whose members have a type of their own. -/
def typedKeys : List String := ["name", "description", "methods"]

/-- The members of a preset without those with a type of their own. -/
def othersOf (members : Members) : Members := members.filter (·.1 ∉ typedKeys)

namespace PresetDraft

/-- The value of a member with a type of its own, as one writes it. -/
def value? (draft : PresetDraft) (key : String) : Option Value :=
  if key = "name" then draft.name.map .string
  else if key = "description" then draft.description.map .string
  else draft.methods.map fun methods => .array (methods.map .string)

/-- Whether a draft has the members of a table, and what another draft has where the table has
nothing. The other members are kept, the last one first, and each of them has been checked. -/
structure Gathers (draft : PresetDraft) (members : Members) (result : PresetDraft) : Prop where
  typed : ∀ key ∈ typedKeys, result.value? key = (members.lookup key).or (draft.value? key)
  others : result.others = (othersOf members).reverse ++ draft.others
  checked : ∀ entry ∈ othersOf members, checkWidth entry.2 = .ok ()

variable {draft next result : PresetDraft} {key other : String} {value : Value}
  {members : Members}

theorem eq_of_value?_eq (h : ∀ key ∈ typedKeys, draft.value? key = result.value? key)
    (hothers : draft.others = result.others) : draft = result := by
  have hname : draft.name = result.name :=
    Option.map_injective (fun _ _ h => Value.string.inj h) (h "name" (by decide))
  have hdescription : draft.description = result.description :=
    Option.map_injective (fun _ _ h => Value.string.inj h) (h "description" (by decide))
  have hmethods : draft.methods = result.methods :=
    Option.map_injective (fun _ _ h => List.map_injective_iff.2 (fun _ _ h => Value.string.inj h)
      (Value.array.inj h)) (h "methods" (by decide))
  cases draft
  cases result
  simp_all

/-- A value that a draft has under a key is read. -/
theorem exists_add_of_value? (hkey : key ∈ typedKeys) (h : result.value? key = some value)
    (draft : PresetDraft) : ∃ next, draft.add key value = .ok next := by
  simp only [typedKeys, List.mem_cons, List.not_mem_nil, or_false] at hkey
  rcases hkey with rfl | rfl | rfl <;> obtain ⟨read, -, rfl⟩ := Option.map_eq_some_iff.1 h
  · exact ⟨_, rfl⟩
  · exact ⟨_, rfl⟩
  · exact ⟨_, bind_eq_ok_iff.2 ⟨read, texts_eq_ok_iff.2 rfl, rfl⟩⟩

theorem value?_of_add (hkey : key ∈ typedKeys) (h : draft.add key value = .ok next) :
    next.value? key = some value := by
  simp only [typedKeys, List.mem_cons, List.not_mem_nil, or_false] at hkey
  rcases hkey with rfl | rfl | rfl <;> obtain ⟨read, hread, h⟩ := exists_of_bind_eq_ok h <;> cases h
  · exact congrArg some (text_eq_ok_iff.1 hread).symm
  · exact congrArg some (text_eq_ok_iff.1 hread).symm
  · exact congrArg some (texts_eq_ok_iff.1 hread).symm

/-- A member of no type of its own is checked and kept. -/
theorem add_of_not_typed (hkey : key ∉ typedKeys) : draft.add key value = .ok next ↔
    checkWidth value = .ok () ∧ next = { draft with others := (key, value) :: draft.others } := by
  simp only [typedKeys, List.mem_cons, List.not_mem_nil, or_false, not_or] at hkey
  rw [add, if_neg hkey.1, if_neg hkey.2.1, if_neg hkey.2.2, check_bind_eq_ok_iff]
  refine and_congr_right fun _ => ⟨fun h => ?_, fun h => ?_⟩
  · cases h
    rfl
  · rw [h]
    rfl

theorem value?_of_add_of_ne (hother : other ∈ typedKeys) (hne : other ≠ key)
    (h : draft.add key value = .ok next) : next.value? other = draft.value? other := by
  by_cases hkey : key ∈ typedKeys
  · simp only [typedKeys, List.mem_cons, List.not_mem_nil, or_false] at hkey hother
    rcases hkey with rfl | rfl | rfl <;> obtain ⟨read, hread, h⟩ := exists_of_bind_eq_ok h <;>
      cases h <;> rcases hother with rfl | rfl | rfl <;> first | rfl | exact absurd rfl hne
  · obtain ⟨-, rfl⟩ := (add_of_not_typed hkey).1 h
    rfl

theorem others_of_add (h : draft.add key value = .ok next) :
    next.others = (othersOf [(key, value)]).reverse ++ draft.others := by
  by_cases hkey : key ∈ typedKeys
  · rw [othersOf, List.filter_cons_of_neg (by simpa using hkey)]
    simp only [typedKeys, List.mem_cons, List.not_mem_nil, or_false] at hkey
    rcases hkey with rfl | rfl | rfl <;> obtain ⟨read, hread, h⟩ := exists_of_bind_eq_ok h <;>
      cases h <;> rfl
  · obtain ⟨-, rfl⟩ := (add_of_not_typed hkey).1 h
    rw [othersOf, List.filter_cons_of_pos (by simpa using hkey)]
    rfl

theorem checked_of_add (h : draft.add key value = .ok next) :
    ∀ entry ∈ othersOf [(key, value)], checkWidth entry.2 = .ok () := by
  by_cases hkey : key ∈ typedKeys
  · rw [othersOf, List.filter_cons_of_neg (by simpa using hkey)]
    exact List.forall_mem_nil _
  · rw [othersOf, List.filter_cons_of_pos (by simpa using hkey)]
    exact List.forall_mem_singleton.2 ((add_of_not_typed hkey).1 h).1

theorem othersOf_cons (entry : String × Value) :
    othersOf (entry :: members) = othersOf [entry] ++ othersOf members :=
  List.filter_append [entry] members

theorem gathers_nil_iff : Gathers draft [] result ↔ draft = result := by
  constructor
  · rintro ⟨htyped, hothers, -⟩
    exact eq_of_value?_eq (fun key hkey => (htyped key hkey).symm) hothers.symm
  · rintro rfl
    exact ⟨fun _ _ => rfl, rfl, List.forall_mem_nil _⟩

/-- After a member is gathered, the others are left to gather. -/
theorem gathers_cons_iff_of_add (hkey : key ∉ members.map Prod.fst)
    (hadd : draft.add key value = .ok next) :
    Gathers draft ((key, value) :: members) result ↔ Gathers next members result := by
  -- the key does not come again, so the next draft has its value from now on
  have hvalues (other : String) (hother : other ∈ typedKeys) :
      (((key, value) :: members).lookup other).or (draft.value? other) =
        (members.lookup other).or (next.value? other) := by
    by_cases hne : other = key
    · subst hne
      rw [List.lookup_cons_self, lookup_eq_none_iff_notMem.2 hkey, value?_of_add hother hadd]
      rfl
    · rw [List.lookup_cons, beq_eq_false_iff_ne.2 hne, value?_of_add_of_ne hother hne hadd]
  have hothers : (othersOf ((key, value) :: members)).reverse ++ draft.others =
      (othersOf members).reverse ++ next.others := by
    rw [othersOf_cons, List.reverse_append, List.append_assoc, others_of_add hadd]
  constructor
  · rintro ⟨htyped, hkept, hchecked⟩
    rw [othersOf_cons] at hchecked
    exact ⟨fun other hother => (htyped other hother).trans (hvalues other hother),
      hkept.trans hothers, (List.forall_mem_append.1 hchecked).2⟩
  · rintro ⟨htyped, hkept, hchecked⟩
    refine ⟨fun other hother => (htyped other hother).trans (hvalues other hother).symm,
      hkept.trans hothers.symm, ?_⟩
    rw [othersOf_cons]
    exact List.forall_mem_append.2 ⟨checked_of_add hadd, hchecked⟩

/-- A member that a draft has gathered is one that can be gathered. -/
theorem exists_add_of_gathers (h : Gathers draft ((key, value) :: members) result) :
    ∃ next, draft.add key value = .ok next := by
  by_cases hkey : key ∈ typedKeys
  · refine exists_add_of_value? hkey ((h.typed key hkey).trans ?_) draft
    rw [List.lookup_cons_self]
    rfl
  · have hmem : (key, value) ∈ othersOf ((key, value) :: members) :=
      List.mem_filter.2 ⟨List.mem_cons_self, by simpa using hkey⟩
    exact ⟨_, (add_of_not_typed hkey).2 ⟨h.checked _ hmem, rfl⟩⟩

/-- **The members of a preset are gathered as they are written.** -/
theorem addAll_eq_ok_iff (hkeys : (members.map Prod.fst).Nodup) :
    draft.addAll members = .ok result ↔ Gathers draft members result := by
  induction members generalizing draft with
  | nil => rw [addAll, gathers_nil_iff, Except.ok.injEq]
  | cons entry members ih =>
      obtain ⟨hkey, hkeys⟩ := List.nodup_cons.1 hkeys
      rw [addAll, bind_eq_ok_iff]
      constructor
      · rintro ⟨next, hadd, hnext⟩
        exact (gathers_cons_iff_of_add hkey hadd).2 ((ih hkeys).1 hnext)
      · intro h
        obtain ⟨next, hadd⟩ := exists_add_of_gathers h
        exact ⟨next, hadd, (ih hkeys).2 ((gathers_cons_iff_of_add hkey hadd).1 h)⟩

/-- From nothing a draft gathers what the table has. -/
theorem Gathers.value?_eq (h : Gathers {} members result) (hkey : key ∈ typedKeys) :
    result.value? key = members.lookup key := by
  have hnothing : ({} : PresetDraft).value? key = none := by
    unfold value?
    split
    · rfl
    · split <;> rfl
  rw [h.typed key hkey, hnothing, Option.or_none]

theorem Gathers.reverse_others (h : Gathers {} members result) :
    result.others.reverse = othersOf members := by
  rw [h.others, List.append_nil, List.reverse_reverse]

end PresetDraft

/-! ## Presets -/

/-- The keys of the members that a preset may have. -/
def presetKeys : List String := typedKeys ++ Setting.all.map Setting.key

/-- The keys of a table that no member of a preset has. -/
def unknownKeys (members : Members) : List String := (members.map Prod.fst).filter (· ∉ presetKeys)

/-- Whether the members of a table say what a preset is. Other members are not looked at. -/
structure IsPreset (members : Members) (entry : PresetEntry) : Prop where
  name : members.lookup "name" = some (.string entry.name)
  description : members.lookup "description" = entry.description.map .string
  methods : members.lookup "methods" = some (.array (entry.methods.map .string)) ∨
    members.lookup "methods" = none ∧ entry.methods = []
  settings : entry.settings.IsWritten NamesPresetLookback fun setting => members.lookup setting.key

theorem isUnknown_iff {key : String} :
    isUnknown key = true ↔ key ∉ Setting.all.map Setting.key := by
  rw [isUnknown, Option.isNone_iff_eq_none, List.mem_map, Option.eq_none_iff_forall_ne_some]
  constructor
  · rintro h ⟨setting, -, rfl⟩
    exact h setting (Setting.ofKey?_key setting)
  · intro h setting hsetting
    exact h ⟨setting, Setting.mem_all setting, (Setting.ofKey?_eq_some_iff.1 hsetting).symm⟩

/-- No setting has the key of a member with a type of its own. -/
theorem isUnknown_of_mem_typedKeys {key : String} (h : key ∈ typedKeys) : isUnknown key = true := by
  simp only [typedKeys, List.mem_cons, List.not_mem_nil, or_false] at h
  rcases h with rfl | rfl | rfl <;> decide

theorem pairsOf_othersOf : pairsOf (othersOf members) = pairsOf members := by
  rw [pairsOf, othersOf, List.filterMap_filter, pairsOf]
  refine List.filterMap_congr fun entry _ => ?_
  split
  · rfl
  · next hkey =>
    have htyped : entry.1 ∈ typedKeys := by simpa using hkey
    rw [pair?, Option.isNone_iff_eq_none.1 (isUnknown_of_mem_typedKeys htyped)]
    rfl

theorem filter_isUnknown_othersOf :
    (othersOf members).filter (isUnknown ·.1) = members.filter (·.1 ∉ presetKeys) := by
  rw [othersOf, List.filter_filter]
  refine List.filter_congr fun entry _ => ?_
  rw [Bool.eq_iff_iff, Bool.and_eq_true, isUnknown_iff, decide_eq_true_eq, decide_eq_true_eq,
    presetKeys, List.mem_append, not_or, and_comm]

/-- A value that a setting of a preset can have is passed over. -/
theorem checkWidth_of_holds {setting : Setting} {value : Value}
    (h : layer.Holds NamesPresetLookback setting value) : checkWidth value = .ok () := by
  cases setting
  · obtain ⟨strategy, -, rfl | rfl⟩ := h
    · rfl
    · rfl
  · obtain ⟨depth, -, rfl, hdepth⟩ := h
    have hlow : Int.pow 2 63 = 2 ^ 63 := rfl
    have hwide : Int.pow 2 64 = 2 ^ 64 := rfl
    rw [checkWidth, hlow, hwide, if_pos ⟨by omega, by omega⟩]
  · obtain ⟨modifiers, -, rfl⟩ := h
    rw [checkWidth, checkItems_eq_ok_iff]
    intro item hitem
    obtain ⟨modifier, -, rfl⟩ := List.mem_map.1 hitem
    rfl
  · obtain ⟨choice, -, rfl⟩ := h
    rfl
  · obtain ⟨choice, -, rfl⟩ := h
    rfl

/-- The settings of a preset are read from what is left after its other members. -/
theorem presetSettings_othersOf_eq_ok_iff (hkeys : (members.map Prod.fst).Nodup) :
    presetSettings {} (othersOf members) = .ok layer ↔
      layer.IsWritten NamesPresetLookback fun setting => members.lookup setting.key := by
  have hpairs := nodup_pairsOf hkeys
  rw [presetSettings_eq_setAll, pairsOf_othersOf,
    setAll_eq_ok_iff (fun _ _ => presetLookback_eq_ok_iff) hpairs, Layer.IsWritten]
  simp only [lookup_pairsOf]

/-- All kept members are passed over if those of unknown keys are. -/
theorem checkWidth_of_mem_othersOf (hkeys : (members.map Prod.fst).Nodup)
    (hsettings : layer.IsWritten NamesPresetLookback fun setting => members.lookup setting.key)
    (hunknown : ∀ member ∈ members, member.1 ∉ presetKeys → checkWidth member.2 = .ok ()) :
    ∀ member ∈ othersOf members, checkWidth member.2 = .ok () := by
  intro member hmember
  obtain ⟨hmember, htyped⟩ := List.mem_filter.1 hmember
  by_cases hkey : member.1 ∈ presetKeys
  · rcases List.mem_append.1 hkey with hkey | hkey
    · simp [hkey] at htyped
    · -- a setting is kept too, and what it holds is narrow enough
      obtain ⟨setting, -, hsetting⟩ := List.mem_map.1 hkey
      have hlookup : members.lookup setting.key = some member.2 :=
        (lookup_eq_some_iff_mem hkeys).2 (hsetting ▸ hmember)
      exact checkWidth_of_holds (hsettings.holds setting member.2 hlookup)
  · exact hunknown member hmember hkey

/-- What a draft has gathered from a table, this table says. -/
theorem isPreset_of_gathers {draft : PresetDraft} {name : String}
    (h : PresetDraft.Gathers {} members draft) (hname : draft.name = some name)
    (hsettings : layer.IsWritten NamesPresetLookback fun setting => members.lookup setting.key) :
    IsPreset members ⟨name, draft.description, draft.methods.getD [], layer⟩ where
  name := by
    rw [← h.value?_eq (by decide)]
    exact congrArg (Option.map Value.string) hname
  description := (h.value?_eq (by decide)).symm
  methods := by
    rw [← h.value?_eq (by decide)]
    cases hmethods : draft.methods with
    | none => exact Or.inr ⟨by rw [PresetDraft.value?, hmethods]; rfl, rfl⟩
    | some methods => exact Or.inl (by rw [PresetDraft.value?, hmethods]; rfl)
  settings := hsettings

/-- From a table that says what a preset is, this preset is gathered. -/
theorem exists_gathers_of_isPreset {entry : PresetEntry} (h : IsPreset members entry)
    (hchecked : ∀ member ∈ othersOf members, checkWidth member.2 = .ok ()) :
    ∃ methods : Option (List String), methods.getD [] = entry.methods ∧
      PresetDraft.Gathers {} members
        ⟨some entry.name, entry.description, methods, (othersOf members).reverse⟩ := by
  -- methods that are not there are told apart from an empty list of them
  obtain ⟨methods, hmethods, hdefault⟩ : ∃ methods : Option (List String),
      (methods.map fun methods => Value.array (methods.map .string)) = members.lookup "methods" ∧
        methods.getD [] = entry.methods := by
    rcases h.methods with hlisted | ⟨hmissing, hnone⟩
    · exact ⟨some entry.methods, hlisted.symm, rfl⟩
    · exact ⟨none, hmissing.symm, hnone.symm⟩
  refine ⟨methods, hdefault, fun key hkey => ?_, (List.append_nil _).symm, hchecked⟩
  simp only [typedKeys, List.mem_cons, List.not_mem_nil, or_false] at hkey
  rcases hkey with rfl | rfl | rfl
  · rw [h.name]
    rfl
  · rw [h.description]
    exact (Option.or_none).symm
  · rw [← hmethods]
    exact (Option.or_none).symm

/-- **A preset is what the known members of its table say.** Its other members must have values that
can be passed over, and their keys come along. -/
theorem presetOfMembers_eq_ok_iff {entry : PresetEntry} {unknown : List String}
    (hkeys : (members.map Prod.fst).Nodup) :
    presetOfMembers members = .ok (entry, unknown) ↔
      IsPreset members entry ∧ unknown = unknownKeys members ∧
        ∀ member ∈ members, member.1 ∉ presetKeys →
          checkWidth member.2 = .ok () ∧ checkLoose member.2 = .ok () := by
  have hunknown : (members.filter (·.1 ∉ presetKeys)).map Prod.fst = unknownKeys members := by
    rw [unknownKeys, List.filter_map]
    rfl
  have hloose : checkLooseMembers (members.filter (·.1 ∉ presetKeys)) = .ok () ↔
      ∀ member ∈ members, member.1 ∉ presetKeys → checkLoose member.2 = .ok () := by
    simp only [checkLooseMembers_eq_ok_iff, List.mem_filter, decide_eq_true_eq, and_imp]
  rw [presetOfMembers, bind_eq_ok_iff]
  simp only [PresetDraft.addAll_eq_ok_iff hkeys]
  constructor
  · rintro ⟨draft, hgathers, h⟩
    cases hname : draft.name with
    | none =>
        rw [hname] at h
        cases h
    | some name =>
        rw [hname, hgathers.reverse_others] at h
        obtain ⟨settings, hsettings, h⟩ := exists_of_bind_eq_ok h
        obtain ⟨⟨⟩, hpassed, h⟩ := exists_of_bind_eq_ok h
        cases h
        rw [filter_isUnknown_othersOf, hloose] at hpassed
        have hwritten := (presetSettings_othersOf_eq_ok_iff hkeys).1 hsettings
        refine ⟨isPreset_of_gathers hgathers hname hwritten, ?_, ?_⟩
        · rw [filter_isUnknown_othersOf, hunknown]
        · intro member hmember hkey
          have hkept : member ∈ othersOf members :=
            List.mem_filter.2 ⟨hmember, by simpa using fun h => hkey (List.mem_append_left _ h)⟩
          exact ⟨hgathers.checked member hkept, hpassed member hmember hkey⟩
  · rintro ⟨hpreset, rfl, hchecked⟩
    have hkept := checkWidth_of_mem_othersOf hkeys hpreset.settings fun member hmember hkey =>
      (hchecked member hmember hkey).1
    obtain ⟨methods, hmethods, hgathers⟩ := exists_gathers_of_isPreset hpreset hkept
    refine ⟨_, hgathers, ?_⟩
    have hsettings := (presetSettings_othersOf_eq_ok_iff hkeys).2 hpreset.settings
    have hpassed := hloose.2 fun member hmember hkey => (hchecked member hmember hkey).2
    simp only [List.reverse_reverse, filter_isUnknown_othersOf, hunknown, hsettings, hpassed,
      hmethods]
    rfl

end ProjectFile

end Excision
