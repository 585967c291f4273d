import Excision.Decimal.Layout
import Excision.ProjectFile
import Excision.Text.Quoted
import Excision.Toml.Document

/-!
# Reading project files

A project file is a TOML document with a table `defaults` and an array of tables `preset`. The
members of every table are looked at in the byte order of their keys, and the first fault is
the one reported.

* `[defaults]` may have the five settings and nothing else. It may also be written as an array
  of at least five values, which are the five settings in their order.
* A preset has a name, may have a description and methods, and may have the five settings.
  Members that are none of these are kept until the whole document has been looked at; then the
  first preset that has one is refused.

The settings of a preset are looked at after its other members, and some of their faults are
told in other words than those of `[defaults]`.
-/

set_option autoImplicit false

namespace Excision

/-- What was found where something else was expected. -/
inductive Found where
  | integer (value : Int)
  /-- An integer that is too large for the usual sixty-four bits. -/
  | wideInteger (value : Int) (width : String)
  | float (value : Float)
  | boolean (value : Bool)
  | string (text : String)
  | sequence
  | map
deriving Repr

/-- How what was found is told. -/
def Found.text : Found → String
  | integer value => s!"integer `{value}`"
  | wideInteger value width => s!"integer `{value}` as {width}"
  | float value => s!"floating point `{Decimal.plainText value}`"
  | boolean value => s!"boolean `{value}`"
  | string text => s!"string {Text.quoted text}"
  | sequence => "sequence"
  | map => "map"

/-- How a document fails to have the shape of a project file. -/
inductive ShapeFault where
  | unknownField (key : String) (expected : List String)
  | unknownVariant (word : String) (expected : List String)
  | missingField (key : String)
  | wrongType (found : Found) (expected : String)
  | wrongValue (found : Found) (expected : String)
  | badCodePoint
deriving Repr

/-- A word between backquotes. -/
def backquoted (word : String) : String := "`" ++ word ++ "`"

/-- What would have been accepted. -/
def expectation (words : List String) : String :=
  match words.map backquoted with
  | [first, second] => s!"expected {first} or {second}"
  | words => "expected one of " ++ ", ".intercalate words

/-- How a fault of shape is told. -/
def ShapeFault.message : ShapeFault → String
  | unknownField key expected => s!"unknown field {backquoted key}, {expectation expected}"
  | unknownVariant word expected => s!"unknown variant {backquoted word}, {expectation expected}"
  | missingField key => s!"missing field {backquoted key}"
  | wrongType found expected => s!"invalid type: {found.text}, expected {expected}"
  | wrongValue found expected => s!"invalid value: {found.text}, expected {expected}"
  | badCodePoint => "invalid value, expected unicode hexadecimal value"

/-- Why a text is no project file. -/
inductive ProjectFault where
  /-- The text is no TOML document, or its shape is wrong in a way that is not told further. -/
  | malformed
  /-- The shape of the document is wrong. -/
  | shape (fault : ShapeFault)
  /-- A preset has a member of an unknown key. -/
  | unknownPresetKey (key preset : String)
deriving Repr

/-- How a fault is told. Faults of the document itself start with the same words. -/
def ProjectFault.message : ProjectFault → String
  | malformed => "TOML parse error"
  | shape fault => "TOML parse error\n" ++ fault.message
  | unknownPresetKey key preset =>
    s!"unknown field {backquoted key} in preset {backquoted preset}"

namespace ProjectFile

open Toml (Value Members)

/-- What reading a part of a project file gives. -/
abbrev Decoded (α : Type) := Except ProjectFault α

/-- A fault of shape. -/
def refuse {α : Type} (fault : ShapeFault) : Decoded α := .error (.shape fault)

/-! ## Values where something else was expected -/

/-- How an integer is told, if it is not too large even for that. -/
def foundInteger? (n : Int) : Option Found :=
  if -Int.pow 2 63 ≤ n ∧ n < Int.pow 2 64 then some (.integer n)
  else if -Int.pow 2 127 ≤ n ∧ n < Int.pow 2 127 then some (.wideInteger n "i128")
  else if 0 ≤ n ∧ n < Int.pow 2 128 then some (.wideInteger n "u128")
  else none

/-- How a value is told, unless it is a number that is too large for that or has no value. -/
def found? : Value → Option Found
  | .string text => some (.string text)
  | .integer n => n.bind foundInteger?
  | .float x => x.map .float
  | .boolean b => some (.boolean b)
  | .moment _ => some .map
  | .array _ => some .sequence
  | .table _ => some .map

/-- A value of the wrong type. -/
def wrongType {α : Type} (value : Value) (expected : String) : Decoded α :=
  match found? value with
  | some found => refuse (.wrongType found expected)
  | none => .error .malformed

/-! ## Single values -/

/-- A text. -/
def text (value : Value) : Decoded String :=
  match value with
  | .string text => .ok text
  | value => wrongType value "a string"

/-- A boolean. -/
def flag (value : Value) : Decoded Bool :=
  match value with
  | .boolean b => .ok b
  | value => wrongType value "a boolean"

/-- What a number of lines is called. -/
def countType : String := "usize"

/-- A number of lines, which fits in sixty-four bits. -/
def count (value : Value) : Decoded Nat :=
  match value with
  | .integer (some n) =>
    if 0 ≤ n ∧ n < Int.pow 2 64 then .ok n.toNat
    else if -Int.pow 2 63 ≤ n ∧ n < 0 then refuse (.wrongValue (.integer n) countType)
    else wrongType value countType
  | value => wrongType value countType

/-- A list of texts. -/
def texts (value : Value) : Decoded (List String) :=
  match value with
  | .array items => items.mapM text
  | value => wrongType value "a sequence"

/-- The names of the lookback strategies. -/
def lookbackWords : List String := [Lookback.bounded.name, Lookback.docBlock.name]

/-- The strategy of a name, which must be written exactly so. -/
def lookbackOfName (word : String) : Decoded Lookback :=
  if word = Lookback.bounded.name then .ok .bounded
  else if word = Lookback.docBlock.name then .ok .docBlock
  else refuse (.unknownVariant word lookbackWords)

/-- The key under which a date or time is seen by those who expect a table. -/
def momentKey : String := "$__toml_private_datetime"

/-- A strategy in `[defaults]`: its name, or a table whose only key is its name and whose only
value is empty. -/
def lookback (value : Value) : Decoded Lookback :=
  match value with
  | .string word => lookbackOfName word
  | .table [(word, inner)] => do
    let strategy ← lookbackOfName word
    match inner with
    | .table [] => .ok strategy
    | .array [] => .ok strategy
    | _ => .error .malformed
  | _ => .error .malformed

/-- A strategy in a preset. -/
def presetLookback (value : Value) : Decoded Lookback :=
  match value with
  | .string word => lookbackOfName word
  | .moment _ => do
    let _ ← lookbackOfName momentKey
    wrongType value "unit"
  | .table [(word, inner)] => do
    let strategy ← lookbackOfName word
    match inner with
    | .table [] => .ok strategy
    | inner => wrongType inner "unit"
  | .table _ => refuse (.wrongValue .map "map with a single key")
  | value => wrongType value "string or map"

/-! ## Settings -/

/-- The five settings. -/
inductive Setting where
  | lookback
  | depth
  | modifiers
  | trimsBlank
  | allowsMissing
deriving DecidableEq, Repr

namespace Setting

/-- The settings in their order. -/
def all : List Setting := [.lookback, .depth, .modifiers, .trimsBlank, .allowsMissing]

/-- The key of a setting. -/
def key : Setting → String
  | lookback => "lookback"
  | depth => "lookback_depth"
  | modifiers => "modifiers"
  | trimsBlank => "trim_blank"
  | allowsMissing => "allow_missing"

/-- The setting of a key. -/
def ofKey? (key : String) : Option Setting := all.find? (·.key = key)

end Setting

/-- A layer with one setting more. The way to read a strategy is given. -/
def set (strategy : Value → Decoded Lookback) (layer : Layer) (setting : Setting)
    (value : Value) : Decoded Layer :=
  match setting with
  | .lookback => do return { layer with lookback := some (← strategy value) }
  | .depth => do return { layer with depth := some (← count value) }
  | .modifiers => do return { layer with modifiers := some (← texts value) }
  | .trimsBlank => do return { layer with trimsBlank := some (← flag value) }
  | .allowsMissing => do return { layer with allowsMissing := some (← flag value) }

/-- A layer with the members of a table, which must all be settings. -/
def settingsOfMembers (layer : Layer) : Members → Decoded Layer
  | [] => .ok layer
  | (key, value) :: members =>
    match Setting.ofKey? key with
    | none => refuse (.unknownField key (Setting.all.map Setting.key))
    | some setting => do settingsOfMembers (← set lookback layer setting value) members

/-- A layer with values that are settings by their position. -/
def settingsOfItems (layer : Layer) : List Setting → List Value → Decoded Layer
  | [], _ => .ok layer
  | _ :: _, [] => .error .malformed
  | setting :: settings, value :: values => do
    settingsOfItems (← set lookback layer setting value) settings values

/-- The settings of `[defaults]`. -/
def defaultSettings (value : Value) : Decoded Layer :=
  match value with
  | .table members => settingsOfMembers {} members
  | .moment text => settingsOfMembers {} [(momentKey, .string text)]
  | .array items => settingsOfItems {} Setting.all items
  | value => wrongType value "struct SettingsEntry"

/-! ## Presets -/

mutual

/-- Refuses a value that holds an integer of more than sixty-four bits, or a number without a
value. -/
def checkWidth : Value → Decoded Unit
  | .integer (some n) =>
    if -Int.pow 2 63 ≤ n ∧ n < Int.pow 2 64 then .ok ()
    else wrongType (.integer (some n)) "any value"
  | .integer none => .error .malformed
  | .float none => .error .malformed
  | .array items => checkItems items
  | .table members => checkMembers members
  | _ => .ok ()

/-- Refuses items that hold a number that is too large or has no value. -/
def checkItems : List Value → Decoded Unit
  | [] => .ok ()
  | item :: items => do
    checkWidth item
    checkItems items

/-- Refuses members that hold a number that is too large or has no value. -/
def checkMembers : List (String × Value) → Decoded Unit
  | [] => .ok ()
  | (_, value) :: members => do
    checkWidth value
    checkMembers members

end

/-- Refuses a value that is no date or time written as a string. -/
def checkMoment (value : Value) : Decoded Unit :=
  match value with
  | .string text => if Toml.isMoment text.toList then .ok () else .error .malformed
  | value => wrongType value "string containing a datetime"

mutual

/-- Refuses a value that holds an integer that is too large for a signed one, or a table that
claims to be a date or time and is none. -/
def checkLoose : Value → Decoded Unit
  | .integer (some n) => if n < Int.pow 2 63 then .ok () else .error .malformed
  | .array items => checkLooseItems items
  | .table members => checkLooseTable members
  | _ => .ok ()

/-- Refuses items that are refused by themselves. -/
def checkLooseItems : List Value → Decoded Unit
  | [] => .ok ()
  | item :: items => do
    checkLoose item
    checkLooseItems items

/-- Refuses a table that claims to be a date or time by its first key, unless it is one, and
otherwise a table with a member that is refused. -/
def checkLooseTable : List (String × Value) → Decoded Unit
  | [] => .ok ()
  | (key, value) :: members =>
    if key = momentKey then do
      checkMoment value
      if members.isEmpty then .ok () else .error .malformed
    else do
      checkLoose value
      checkLooseMembers members

/-- Refuses members whose values are refused by themselves. -/
def checkLooseMembers : List (String × Value) → Decoded Unit
  | [] => .ok ()
  | (_, value) :: members => do
    checkLoose value
    checkLooseMembers members

end

/-- A preset while its members are looked at: those with a type of their own, and the others. -/
structure PresetDraft where
  name : Option String := none
  description : Option String := none
  methods : Option (List String) := none
  others : Members := []
deriving Repr

/-- A draft with one member more. The others come last one first. -/
def PresetDraft.add (draft : PresetDraft) (key : String) (value : Value) :
    Decoded PresetDraft :=
  if key = "name" then do return { draft with name := some (← text value) }
  else if key = "description" then do return { draft with description := some (← text value) }
  else if key = "methods" then do return { draft with methods := some (← texts value) }
  else do
    checkWidth value
    return { draft with others := (key, value) :: draft.others }

/-- A draft with the members of a table. -/
def PresetDraft.addAll (draft : PresetDraft) : Members → Decoded PresetDraft
  | [] => .ok draft
  | (key, value) :: members => do (← draft.add key value).addAll members

/-- A layer with those members of a table that are settings. -/
def presetSettings (layer : Layer) : Members → Decoded Layer
  | [] => .ok layer
  | (key, value) :: members =>
    match Setting.ofKey? key with
    | none => presetSettings layer members
    | some setting => do presetSettings (← set presetLookback layer setting value) members

/-- Whether a key is no setting. -/
def isUnknown (key : String) : Bool := (Setting.ofKey? key).isNone

/-- A preset with the members of its table, and its unknown keys. -/
def presetOfMembers (members : Members) : Decoded (PresetEntry × List String) := do
  let draft ← PresetDraft.addAll {} members
  match draft.name with
  | none => refuse (.missingField "name")
  | some name =>
    let others := draft.others.reverse
    let settings ← presetSettings {} others
    let unknown := others.filter (isUnknown ·.1)
    checkLooseMembers unknown
    let entry : PresetEntry :=
      ⟨name, draft.description, draft.methods.getD [], settings⟩
    return (entry, unknown.map Prod.fst)

/-- A preset, and its unknown keys. -/
def preset (value : Value) : Decoded (PresetEntry × List String) :=
  match value with
  | .table members => presetOfMembers members
  | .moment text => presetOfMembers [(momentKey, .string text)]
  | value => wrongType value "struct PresetEntry"

/-- The presets of a file, each with its unknown keys. -/
def presetList (value : Value) : Decoded (List (PresetEntry × List String)) :=
  match value with
  | .array items => items.mapM preset
  | value => wrongType value "a sequence"

/-! ## Files -/

/-- A file while its members are looked at. -/
structure Draft where
  defaults : Layer := {}
  presets : List (PresetEntry × List String) := []
deriving Repr

/-- The keys of a project file. -/
def keys : List String := ["defaults", "preset"]

/-- A draft with the members of the table of a document. -/
def Draft.addAll (draft : Draft) : Members → Decoded Draft
  | [] => .ok draft
  | (key, value) :: members =>
    if key = "defaults" then do
      let defaults ← defaultSettings value
      Draft.addAll { draft with defaults := defaults } members
    else if key = "preset" then do
      let presets ← presetList value
      Draft.addAll { draft with presets := presets } members
    else refuse (.unknownField key keys)

/-- The first unknown key of the first preset that has one. -/
def firstUnknown? : List (PresetEntry × List String) → Option (String × String)
  | [] => none
  | (_, []) :: presets => firstUnknown? presets
  | (entry, key :: _) :: _ => some (key, entry.name)

/-- The project file that the table of a document is. -/
def ofTable (members : Members) : Decoded ProjectFile := do
  let draft ← Draft.addAll {} members
  match firstUnknown? draft.presets with
  | some (key, preset) => .error (.unknownPresetKey key preset)
  | none => .ok ⟨draft.defaults, draft.presets.map Prod.fst⟩

/-- The project file that a text is. -/
def parse (text : String) : Decoded ProjectFile :=
  match Toml.parse text with
  | .ok members => ofTable members
  | .error .malformed => .error .malformed
  | .error .badCodePoint => refuse .badCodePoint

end ProjectFile

end Excision
