import Excision.ProjectFile.Decode
import Excision.Proofs.Lookup
import Excision.Proofs.Sequence
import Excision.Proofs.Tables
import Mathlib.Algebra.Group.Int.Defs
import Mathlib.Algebra.Group.Nat.Defs

/-!
# What the settings of a project file say

A setting of a table is set exactly if its key is there, and then it has the value that is written
there (`Layer.IsWritten`). Settings are read in three ways: from a table that may hold nothing
else, from a table with other members among them, and from a row of values. All three read a list
of settings with values, one after the other (`ProjectFile.setAll`), so there is one proof that the
settings end as written (`ProjectFile.setAll_eq_ok_iff`): a setting that is read is as written, and
the other ones stay.

For `[defaults]` this says exactly what it may hold and what it means
(`ProjectFile.defaultSettings_eq_ok_iff`).
-/

set_option autoImplicit false

namespace Excision

open Toml (Value Members)

theorem Lookback.name_injective : Function.Injective Lookback.name := by
  intro a b h
  cases a <;> cases b <;> first | rfl | exact absurd h (by decide)

/-! ## Layers as written -/

namespace Layer

/-- The value of a setting, as one writes it. -/
def value? (layer : Layer) : ProjectFile.Setting → Option Value
  | .lookback => layer.lookback.map fun strategy => .string strategy.name
  | .depth => layer.depth.map fun (depth : Nat) => .integer (some (depth : Int))
  | .modifiers => layer.modifiers.map fun modifiers => .array (modifiers.map .string)
  | .trimsBlank => layer.trimsBlank.map .boolean
  | .allowsMissing => layer.allowsMissing.map .boolean

/-- Whether a setting has a written value. A strategy may be written in more than one way, and a
depth must fit in sixty-four bits. -/
def Holds (Names : Value → Lookback → Prop) (layer : Layer) :
    ProjectFile.Setting → Value → Prop
  | .lookback, value => ∃ strategy, layer.lookback = some strategy ∧ Names value strategy
  | .depth, value => ∃ depth : Nat, layer.depth = some depth ∧ value = .integer (some depth) ∧
      depth < 2 ^ 64
  | .modifiers, value => ∃ modifiers, layer.modifiers = some modifiers ∧
      value = .array (modifiers.map .string)
  | .trimsBlank, value => ∃ choice, layer.trimsBlank = some choice ∧ value = .boolean choice
  | .allowsMissing, value => ∃ choice, layer.allowsMissing = some choice ∧ value = .boolean choice

/-- Whether a layer has the written settings, and the others of another layer. -/
structure Follows (Names : Value → Lookback → Prop) (written : ProjectFile.Setting → Option Value)
    (before layer : Layer) : Prop where
  holds : ∀ setting value, written setting = some value → layer.Holds Names setting value
  keeps : ∀ setting, written setting = none → layer.value? setting = before.value? setting

/-- Whether a layer has the written settings and no others. -/
def IsWritten (Names : Value → Lookback → Prop) (written : ProjectFile.Setting → Option Value)
    (layer : Layer) : Prop :=
  Follows Names written {} layer

/-! A setting is what it is written as. -/

variable {layer other : Layer}

theorem lookback_eq_of_value?_eq (h : layer.value? .lookback = other.value? .lookback) :
    layer.lookback = other.lookback :=
  Option.map_injective (fun _ _ h => Lookback.name_injective (Value.string.inj h)) h

theorem depth_eq_of_value?_eq (h : layer.value? .depth = other.value? .depth) :
    layer.depth = other.depth :=
  Option.map_injective (fun _ _ h => Int.natCast_inj.1 (Option.some.inj (Value.integer.inj h))) h

theorem modifiers_eq_of_value?_eq (h : layer.value? .modifiers = other.value? .modifiers) :
    layer.modifiers = other.modifiers :=
  Option.map_injective (fun _ _ h =>
    List.map_injective_iff.2 (fun _ _ h => Value.string.inj h) (Value.array.inj h)) h

theorem trimsBlank_eq_of_value?_eq (h : layer.value? .trimsBlank = other.value? .trimsBlank) :
    layer.trimsBlank = other.trimsBlank :=
  Option.map_injective (fun _ _ h => Value.boolean.inj h) h

theorem allowsMissing_eq_of_value?_eq
    (h : layer.value? .allowsMissing = other.value? .allowsMissing) :
    layer.allowsMissing = other.allowsMissing :=
  Option.map_injective (fun _ _ h => Value.boolean.inj h) h

theorem eq_of_value?_eq (h : ∀ setting, layer.value? setting = other.value? setting) :
    layer = other := by
  have hlookback := lookback_eq_of_value?_eq (h .lookback)
  have hdepth := depth_eq_of_value?_eq (h .depth)
  have hmodifiers := modifiers_eq_of_value?_eq (h .modifiers)
  have htrims := trimsBlank_eq_of_value?_eq (h .trimsBlank)
  have hallows := allowsMissing_eq_of_value?_eq (h .allowsMissing)
  cases layer
  cases other
  simp_all

theorem holds_congr {Names : Value → Lookback → Prop} {setting : ProjectFile.Setting}
    {value : Value} (h : layer.value? setting = other.value? setting) :
    layer.Holds Names setting value ↔ other.Holds Names setting value := by
  cases setting
  · rw [Holds, Holds, lookback_eq_of_value?_eq h]
  · rw [Holds, Holds, depth_eq_of_value?_eq h]
  · rw [Holds, Holds, modifiers_eq_of_value?_eq h]
  · rw [Holds, Holds, trimsBlank_eq_of_value?_eq h]
  · rw [Holds, Holds, allowsMissing_eq_of_value?_eq h]

end Layer

namespace ProjectFile

/-! ## Single values -/

theorem wrongType_ne_ok {α : Type} (value : Value) (expected : String) (a : α) :
    wrongType value expected ≠ .ok a := by
  unfold wrongType
  split <;> exact nofun

theorem text_eq_ok_iff {value : Value} {word : String} :
    text value = .ok word ↔ value = .string word := by
  cases value <;> simp [text, wrongType_ne_ok]

theorem flag_eq_ok_iff {value : Value} {choice : Bool} :
    flag value = .ok choice ↔ value = .boolean choice := by
  cases value <;> simp [flag, wrongType_ne_ok]

theorem count_eq_ok_iff {value : Value} {n : Nat} :
    count value = .ok n ↔ value = .integer (some n) ∧ n < 2 ^ 64 := by
  unfold count
  split
  · next m =>
    have hpow : Int.pow 2 64 = ((2 ^ 64 : Nat) : Int) := rfl
    split
    · next hm =>
      -- in these bounds the count is the integer itself
      rw [Except.ok.injEq, Value.integer.injEq, Option.some.injEq]
      omega
    · next hm =>
      have hother : ¬ (Value.integer (some m) = .integer (some n) ∧ n < 2 ^ 64) := by
        rintro ⟨h, hn⟩
        cases h
        exact hm ⟨Int.natCast_nonneg n, by omega⟩
      split
      · exact iff_of_false nofun hother
      · exact iff_of_false (wrongType_ne_ok _ _ _) hother
  · next hvalue =>
    refine iff_of_false (wrongType_ne_ok _ _ _) ?_
    rintro ⟨rfl, -⟩
    exact hvalue _ rfl

theorem texts_eq_ok_iff {value : Value} {words : List String} :
    texts value = .ok words ↔ value = .array (words.map .string) := by
  unfold texts
  split
  · next items =>
    have hitems : List.Forall₂ (fun item word => text item = .ok word) items words ↔
        List.Forall₂ (· = ·) items (words.map .string) := by
      simp only [text_eq_ok_iff, List.forall₂_map_right_iff]
    rw [mapM_eq_ok_iff, hitems, List.forall₂_eq_eq_eq, Value.array.injEq]
  · next hvalue =>
    refine iff_of_false (wrongType_ne_ok _ _ _) ?_
    rintro rfl
    exact hvalue _ rfl

theorem lookbackOfName_eq_ok_iff {word : String} {strategy : Lookback} :
    lookbackOfName word = .ok strategy ↔ word = strategy.name := by
  unfold lookbackOfName
  split
  · next h =>
    subst h
    rw [Except.ok.injEq, Lookback.name_injective.eq_iff]
  · next hbounded =>
    split
    · next h =>
      subst h
      rw [Except.ok.injEq, Lookback.name_injective.eq_iff]
    · next hdoc =>
      refine iff_of_false nofun ?_
      rintro rfl
      cases strategy with
      | bounded => exact hbounded rfl
      | docBlock => exact hdoc rfl

/-- Whether a value of `[defaults]` names a strategy. -/
def NamesLookback (value : Value) (strategy : Lookback) : Prop :=
  value = .string strategy.name ∨ value = .table [(strategy.name, .table [])] ∨
    value = .table [(strategy.name, .array [])]

/-- Whether a value of a preset names a strategy. -/
def NamesPresetLookback (value : Value) (strategy : Lookback) : Prop :=
  value = .string strategy.name ∨ value = .table [(strategy.name, .table [])]

theorem lookback_eq_ok_iff {value : Value} {strategy : Lookback} :
    lookback value = .ok strategy ↔ NamesLookback value strategy := by
  unfold lookback NamesLookback
  split
  · simp [lookbackOfName_eq_ok_iff]
  · next word inner =>
    rw [bind_eq_ok_iff]
    simp only [lookbackOfName_eq_ok_iff]
    split <;> simp_all [and_comm]
  · next hstring htable =>
    refine iff_of_false nofun ?_
    rintro (rfl | rfl | rfl)
    · exact hstring _ rfl
    · exact htable _ _ rfl
    · exact htable _ _ rfl

theorem presetLookback_eq_ok_iff {value : Value} {strategy : Lookback} :
    presetLookback value = .ok strategy ↔ NamesPresetLookback value strategy := by
  unfold presetLookback NamesPresetLookback
  split
  · simp [lookbackOfName_eq_ok_iff]
  · next moment =>
    -- the word is read, but what stands under it is never a table
    refine iff_of_false (fun h => ?_) (by simp)
    obtain ⟨_, -, h⟩ := exists_of_bind_eq_ok h
    exact wrongType_ne_ok _ _ _ h
  · next word inner =>
    rw [bind_eq_ok_iff]
    simp only [lookbackOfName_eq_ok_iff]
    split
    · simp [and_comm]
    · next hinner =>
      have hne : inner ≠ .table [] := hinner
      simp [wrongType_ne_ok, hne]
  · next htable =>
    refine iff_of_false nofun ?_
    rintro (h | h)
    · cases h
    · cases h
      exact htable _ _ rfl
  · next hstring hmoment hsingle htable =>
    refine iff_of_false (wrongType_ne_ok _ _ _) ?_
    rintro (rfl | rfl)
    · exact hstring _ rfl
    · exact hsingle _ _ rfl

/-! ## Settings -/

namespace Setting

theorem key_injective : Function.Injective key := by
  intro a b h
  cases a <;> cases b <;> first | rfl | exact absurd h (by decide)

theorem mem_all (setting : Setting) : setting ∈ all := by
  cases setting <;> decide

theorem ofKey?_eq_some_iff {key : String} {setting : Setting} :
    ofKey? key = some setting ↔ key = setting.key := by
  constructor
  · intro h
    unfold ofKey? at h
    have hkey := List.find?_some h
    exact (of_decide_eq_true hkey).symm
  · rintro rfl
    cases setting <;> decide

theorem ofKey?_key (setting : Setting) : ofKey? setting.key = some setting :=
  ofKey?_eq_some_iff.2 rfl

end Setting

/-- A layer with settings one after the other. -/
def setAll (strategy : Value → Decoded Lookback) (layer : Layer)
    (pairs : List (Setting × Value)) : Decoded Layer :=
  pairs.foldlM (fun layer pair => set strategy layer pair.1 pair.2) layer

section Strategies

variable {strategy : Value → Decoded Lookback} {Names : Value → Lookback → Prop}
  {layer result : Layer} {setting : Setting} {value : Value}

theorem holds_of_set (hstrategy : ∀ value lookback, strategy value = .ok lookback ↔
      Names value lookback) (h : set strategy layer setting value = .ok result) :
    result.Holds Names setting value := by
  cases setting <;> obtain ⟨read, hread, h⟩ := exists_of_bind_eq_ok h <;> cases h
  · exact ⟨read, rfl, (hstrategy value read).1 hread⟩
  · exact ⟨read, rfl, count_eq_ok_iff.1 hread⟩
  · exact ⟨read, rfl, texts_eq_ok_iff.1 hread⟩
  · exact ⟨read, rfl, flag_eq_ok_iff.1 hread⟩
  · exact ⟨read, rfl, flag_eq_ok_iff.1 hread⟩

theorem value?_of_set_of_ne {other : Setting} (hother : other ≠ setting)
    (h : set strategy layer setting value = .ok result) :
    result.value? other = layer.value? other := by
  cases setting <;> obtain ⟨read, hread, h⟩ := exists_of_bind_eq_ok h <;> cases h <;>
    cases other <;> first | rfl | exact absurd rfl hother

/-- A value that a layer has for a setting is read as that layer has it. -/
theorem exists_set_of_holds (hstrategy : ∀ value lookback, strategy value = .ok lookback ↔
      Names value lookback) (layer : Layer) (h : result.Holds Names setting value) :
    ∃ next, set strategy layer setting value = .ok next ∧
      next.value? setting = result.value? setting := by
  cases setting <;> obtain ⟨read, heq, hread⟩ := h <;> simp only [Layer.value?, heq]
  · exact ⟨_, bind_eq_ok_iff.2 ⟨read, (hstrategy value read).2 hread, rfl⟩, rfl⟩
  · exact ⟨_, bind_eq_ok_iff.2 ⟨read, count_eq_ok_iff.2 hread, rfl⟩, rfl⟩
  · exact ⟨_, bind_eq_ok_iff.2 ⟨read, texts_eq_ok_iff.2 hread, rfl⟩, rfl⟩
  · exact ⟨_, bind_eq_ok_iff.2 ⟨read, flag_eq_ok_iff.2 hread, rfl⟩, rfl⟩
  · exact ⟨_, bind_eq_ok_iff.2 ⟨read, flag_eq_ok_iff.2 hread, rfl⟩, rfl⟩

/-- **Settings that are read one after the other end as they are written.** -/
theorem setAll_eq_ok_iff (hstrategy : ∀ value lookback, strategy value = .ok lookback ↔
      Names value lookback) {pairs : List (Setting × Value)}
    (hdistinct : (pairs.map Prod.fst).Nodup) :
    setAll strategy layer pairs = .ok result ↔
      Layer.Follows Names (fun setting => pairs.lookup setting) layer result := by
  induction pairs generalizing layer with
  | nil =>
      constructor
      · intro h
        cases h
        exact ⟨nofun, fun _ _ => rfl⟩
      · intro h
        exact congrArg Except.ok (Layer.eq_of_value?_eq fun setting => (h.keeps setting rfl).symm)
  | cons pair pairs ih =>
      obtain ⟨setting, value⟩ := pair
      obtain ⟨hnotin, hdistinct⟩ := List.nodup_cons.1 hdistinct
      have hlater : pairs.lookup setting = none := lookup_eq_none_iff_notMem.2 hnotin
      have hself : ((setting, value) :: pairs).lookup setting = some value := List.lookup_cons_self
      have hothers (other : Setting) (hother : other ≠ setting) :
          ((setting, value) :: pairs).lookup other = pairs.lookup other := by
        rw [List.lookup_cons, beq_eq_false_iff_ne.2 hother]
      rw [setAll, List.foldlM_cons, bind_eq_ok_iff]
      constructor
      · rintro ⟨next, hnext, hrest⟩
        have hfollows := (ih hdistinct).1 hrest
        -- what is set first stays, since its setting does not come again
        have hkept : result.Holds Names setting value :=
          (Layer.holds_congr (hfollows.keeps setting hlater)).2 (holds_of_set hstrategy hnext)
        constructor
        · intro other written hwritten
          by_cases hother : other = setting
          · subst hother
            rw [hself] at hwritten
            cases hwritten
            exact hkept
          · rw [hothers other hother] at hwritten
            exact hfollows.holds other written hwritten
        · intro other hunwritten
          have hother : other ≠ setting := by
            rintro rfl
            rw [hself] at hunwritten
            cases hunwritten
          rw [hothers other hother] at hunwritten
          exact (hfollows.keeps other hunwritten).trans (value?_of_set_of_ne hother hnext)
      · intro h
        -- the result tells that the first value can be read, and the others are read from there
        obtain ⟨next, hnext, hvalue⟩ :=
          exists_set_of_holds hstrategy layer (h.holds setting value hself)
        refine ⟨next, hnext, (ih hdistinct).2 ⟨fun other written hwritten => ?_, ?_⟩⟩
        · have hother : other ≠ setting := by
            rintro rfl
            rw [hlater] at hwritten
            cases hwritten
          exact h.holds other written ((hothers other hother).trans hwritten)
        · intro other hunwritten
          by_cases hother : other = setting
          · subst hother
            exact hvalue.symm
          · rw [h.keeps other ((hothers other hother).trans hunwritten),
              value?_of_set_of_ne hother hnext]

end Strategies

/-! ## Settings of tables and rows -/

/-- The member of a table as a setting with a value, if it is one. -/
def pair? (entry : String × Value) : Option (Setting × Value) :=
  (Setting.ofKey? entry.1).map (·, entry.2)

/-- The settings among the members of a table. -/
def pairsOf (members : Members) : List (Setting × Value) := members.filterMap pair?

variable {members : Members} {layer result : Layer}

theorem pairsOf_cons_of_eq_none {entry : String × Value} (h : Setting.ofKey? entry.1 = none) :
    pairsOf (entry :: members) = pairsOf members := by
  rw [pairsOf, List.filterMap_cons_none (by rw [pair?, h]; rfl), pairsOf]

theorem pairsOf_cons_of_eq_some {entry : String × Value} {setting : Setting}
    (h : Setting.ofKey? entry.1 = some setting) :
    pairsOf (entry :: members) = (setting, entry.2) :: pairsOf members := by
  rw [pairsOf, List.filterMap_cons_some (by rw [pair?, h]; rfl), pairsOf]

theorem key_mem_of_mem_map_fst_pairsOf {setting : Setting}
    (h : setting ∈ (pairsOf members).map Prod.fst) : setting.key ∈ members.map Prod.fst := by
  obtain ⟨pair, hpair, rfl⟩ := List.mem_map.1 h
  obtain ⟨entry, hentry, heq⟩ := List.mem_filterMap.1 hpair
  obtain ⟨setting, hsetting, rfl⟩ := Option.map_eq_some_iff.1 heq
  exact List.mem_map.2 ⟨entry, hentry, Setting.ofKey?_eq_some_iff.1 hsetting⟩

theorem nodup_pairsOf (h : (members.map Prod.fst).Nodup) :
    ((pairsOf members).map Prod.fst).Nodup := by
  induction members with
  | nil => exact List.nodup_nil
  | cons entry members ih =>
      obtain ⟨hnotin, hrest⟩ := List.nodup_cons.1 h
      cases hsetting : Setting.ofKey? entry.1 with
      | none =>
          rw [pairsOf_cons_of_eq_none hsetting]
          exact ih hrest
      | some setting =>
          rw [pairsOf_cons_of_eq_some hsetting, List.map_cons, List.nodup_cons]
          refine ⟨fun hmem => hnotin ?_, ih hrest⟩
          rw [Setting.ofKey?_eq_some_iff.1 hsetting]
          exact key_mem_of_mem_map_fst_pairsOf hmem

/-- A setting is found under its key. -/
theorem lookup_pairsOf (setting : Setting) :
    (pairsOf members).lookup setting = members.lookup setting.key := by
  induction members with
  | nil => rfl
  | cons entry members ih =>
      obtain ⟨key, value⟩ := entry
      rw [List.lookup_cons]
      cases hsetting : Setting.ofKey? key with
      | none =>
          have hkey : (setting.key == key) = false := by
            refine beq_eq_false_iff_ne.2 ?_
            rintro rfl
            rw [Setting.ofKey?_key] at hsetting
            cases hsetting
          rw [pairsOf_cons_of_eq_none hsetting, ih, hkey]
      | some first =>
          obtain rfl := Setting.ofKey?_eq_some_iff.1 hsetting
          rw [pairsOf_cons_of_eq_some hsetting, List.lookup_cons, ih]
          by_cases hsame : setting = first
          · rw [hsame, beq_self_eq_true, beq_self_eq_true]
          · rw [beq_eq_false_iff_ne.2 hsame,
              beq_eq_false_iff_ne.2 fun h => hsame (Setting.key_injective h)]

theorem settingsOfMembers_eq_ok_iff :
    settingsOfMembers layer members = .ok result ↔
      (∀ key ∈ members.map Prod.fst, ∃ setting : Setting, key = setting.key) ∧
        setAll lookback layer (pairsOf members) = .ok result := by
  induction members generalizing layer with
  | nil =>
      rw [settingsOfMembers]
      exact (and_iff_right (List.forall_mem_nil _)).symm
  | cons entry members ih =>
      obtain ⟨key, value⟩ := entry
      rw [settingsOfMembers, List.map_cons, List.forall_mem_cons]
      cases hsetting : Setting.ofKey? key with
      | none =>
          refine iff_of_false nofun ?_
          rintro ⟨⟨⟨setting, rfl⟩, -⟩, -⟩
          rw [Setting.ofKey?_key] at hsetting
          cases hsetting
      | some setting =>
          obtain rfl := Setting.ofKey?_eq_some_iff.1 hsetting
          rw [pairsOf_cons_of_eq_some hsetting, setAll, List.foldlM_cons]
          simp only [bind_eq_ok_iff, ih]
          constructor
          · rintro ⟨next, hnext, hkeys, hrest⟩
            exact ⟨⟨⟨setting, rfl⟩, hkeys⟩, next, hnext, hrest⟩
          · rintro ⟨⟨-, hkeys⟩, next, hnext, hrest⟩
            exact ⟨next, hnext, hkeys, hrest⟩

theorem settingsOfItems_eq_ok_iff {settings : List Setting} {items : List Value} :
    settingsOfItems layer settings items = .ok result ↔
      settings.length ≤ items.length ∧
        setAll lookback layer (settings.zip items) = .ok result := by
  induction settings generalizing layer items with
  | nil => simp [settingsOfItems, setAll, pure, Except.pure]
  | cons setting settings ih =>
      cases items with
      | nil => simp [settingsOfItems]
      | cons value items =>
          rw [settingsOfItems, List.zip_cons_cons, setAll, List.foldlM_cons]
          simp only [bind_eq_ok_iff, ih, List.length_cons, Nat.add_le_add_iff_right]
          constructor
          · rintro ⟨next, hnext, hlength, hrest⟩
            exact ⟨hlength, next, hnext, hrest⟩
          · rintro ⟨hlength, next, hnext, hrest⟩
            exact ⟨next, hnext, hlength, hrest⟩

theorem presetSettings_eq_setAll :
    presetSettings layer members = setAll presetLookback layer (pairsOf members) := by
  induction members generalizing layer with
  | nil => rfl
  | cons entry members ih =>
      obtain ⟨key, value⟩ := entry
      rw [presetSettings]
      cases hsetting : Setting.ofKey? key with
      | none => rw [ih, pairsOf_cons_of_eq_none hsetting]
      | some setting =>
          rw [pairsOf_cons_of_eq_some hsetting, setAll, List.foldlM_cons]
          simp only [ih]
          rfl

/-! ## `[defaults]` -/

/-- Whether `[defaults]` says what a layer is: nothing, a table of settings, or a row of at least
five values, which are the settings in their order. -/
def IsDefaults : Option Value → Layer → Prop
  | none, layer => layer = {}
  | some (.table members), layer =>
    (∀ key ∈ members.map Prod.fst, ∃ setting : Setting, key = setting.key) ∧
      layer.IsWritten NamesLookback fun setting => members.lookup setting.key
  | some (.array items), layer =>
    Setting.all.length ≤ items.length ∧
      layer.IsWritten NamesLookback fun setting => (Setting.all.zip items).lookup setting
  | some _, _ => False

theorem defaultSettings_eq_ok_iff {value : Value} (hvalue : value.IsOrdered) :
    defaultSettings value = .ok layer ↔ IsDefaults (some value) layer := by
  cases hvalue with
  | @table members hkeys hmembers =>
      have hpairs := nodup_pairsOf (Toml.nodup_of_pairwise_lt hkeys)
      rw [defaultSettings, settingsOfMembers_eq_ok_iff, setAll_eq_ok_iff (fun _ _ =>
        lookback_eq_ok_iff) hpairs, IsDefaults, Layer.IsWritten]
      simp only [lookup_pairsOf]
  | @array items hitems =>
      rw [defaultSettings, settingsOfItems_eq_ok_iff, IsDefaults, Layer.IsWritten]
      refine and_congr_right fun hlength => setAll_eq_ok_iff (fun _ _ => lookback_eq_ok_iff) ?_
      -- the row is long enough, so its values stand under all settings once
      rw [List.map_fst_zip hlength]
      decide
  | moment text => exact iff_of_false nofun id
  | string text => exact iff_of_false (wrongType_ne_ok (.string text) _ layer) id
  | integer n => exact iff_of_false (wrongType_ne_ok (.integer n) _ layer) id
  | float x => exact iff_of_false (wrongType_ne_ok (.float x) _ layer) id
  | boolean b => exact iff_of_false (wrongType_ne_ok (.boolean b) _ layer) id

end ProjectFile

end Excision
