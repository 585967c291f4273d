import Excision.Path
import Excision.Plan
import Excision.Text.Quoted

/-!
# Layered settings

Settings come in layers: the built-in values, the defaults of a project file, a preset, and
the command line. Each layer sets some fields and leaves the others. A field ends as the last
layer that sets it says.

The lookback depth is the one field with a twist. As long as no layer sets it, it follows the
strategy: each change of the strategy moves it to the usual depth of the new one. Once a layer
sets it, it is pinned and stays through later changes of the strategy. So settings remember
whether their depth is pinned.
-/

set_option autoImplicit false

namespace Excision

/-- The settings that one layer sets. -/
structure Layer where
  lookback : Option Lookback := none
  depth : Option Nat := none
  modifiers : Option (List String) := none
  trimsBlank : Option Bool := none
  allowsMissing : Option Bool := none
deriving DecidableEq, Repr

/-- Settings with every field decided. -/
structure Settings where
  lookback : Lookback
  /-- How many lines above a declaration are inspected. -/
  depth : Nat
  /-- Whether some layer has set the depth. -/
  depthIsPinned : Bool
  modifiers : List String
  trimsBlank : Bool
  allowsMissing : Bool
deriving DecidableEq, Repr

/-- Why a request cannot be carried out. -/
inductive RequestFault where
  | unknownPreset (name : String)
  | unknownLookback (word : String)
  | badModifier (modifier : String)
  | noModifiers
  | badMethodName (name : String)
  | noMethods
  | outputIsInput (output : Path)
deriving DecidableEq, Repr

namespace RequestFault

/-- What a person is told about a fault. -/
def message : RequestFault → String
  | unknownPreset name => s!"unknown preset: {name}"
  | unknownLookback word => Lookback.unknownWord word
  | badModifier modifier => s!"invalid access modifier: {Text.quoted modifier}"
  | noModifiers => "at least one access modifier is required"
  | badMethodName name => s!"invalid method name: {Text.quoted name}"
  | noMethods => "no methods given; use --method, --methods-file or --preset"
  | outputIsInput output => s!"output path must differ from the input: {output.text}"

end RequestFault

namespace Settings

/-- The settings before any layer. -/
def builtin : Settings where
  lookback := .docBlock
  depth := Lookback.docBlock.defaultDepth
  depthIsPinned := false
  modifiers := ["private", "public"]
  trimsBlank := false
  allowsMissing := false

/-- Settings with another strategy. The depth goes along unless it is pinned. -/
def changeLookback (settings : Settings) (lookback : Lookback) : Settings :=
  { settings with
    lookback := lookback
    depth := if settings.depthIsPinned then settings.depth else lookback.defaultDepth }

/-- Settings with a depth that later changes of the strategy leave alone. -/
def pinDepth (settings : Settings) (depth : Nat) : Settings :=
  { settings with depth := depth, depthIsPinned := true }

/-- Settings with a layer over them. The strategy is changed before the depth is pinned, so the
depth of a layer that sets both is the one it names. -/
def apply (settings : Settings) (layer : Layer) : Settings :=
  let moved := layer.lookback.elim settings settings.changeLookback
  let pinned := layer.depth.elim moved moved.pinDepth
  { pinned with
    modifiers := layer.modifiers.getD settings.modifiers
    trimsBlank := layer.trimsBlank.getD settings.trimsBlank
    allowsMissing := layer.allowsMissing.getD settings.allowsMissing }

section Fields

variable (settings : Settings) (layer : Layer)

@[simp]
theorem lookback_apply :
    (settings.apply layer).lookback = layer.lookback.getD settings.lookback := by
  unfold apply
  cases layer.depth <;> cases layer.lookback <;> rfl

@[simp]
theorem modifiers_apply :
    (settings.apply layer).modifiers = layer.modifiers.getD settings.modifiers := rfl

@[simp]
theorem trimsBlank_apply :
    (settings.apply layer).trimsBlank = layer.trimsBlank.getD settings.trimsBlank := rfl

@[simp]
theorem allowsMissing_apply :
    (settings.apply layer).allowsMissing = layer.allowsMissing.getD settings.allowsMissing := rfl

end Fields

/-- The cutter that the settings describe, with the standard engine. -/
def cutter (settings : Settings) : Cutter :=
  ⟨⟨settings.modifiers, settings.lookback, settings.depth, .standard⟩, settings.trimsBlank⟩

end Settings

/-! ## Accepted modifiers -/

/-- Whether a character may start a keyword: an ASCII letter or an underscore. -/
def startsKeyword (c : Char) : Bool := c.isAlpha || c = '_'

/-- Whether a character may continue a keyword: an ASCII letter, digit or underscore. -/
def continuesKeyword (c : Char) : Bool := c.isAlphanum || c = '_'

/-- Whether a text is a plain keyword. -/
def isKeyword (text : String) : Bool :=
  match text.toList with
  | [] => false
  | c :: cs => startsKeyword c && cs.all continuesKeyword

/-- Refuses settings without modifiers, and the first modifier that is no keyword. -/
def Settings.check (settings : Settings) : Except RequestFault Unit :=
  if settings.modifiers.isEmpty then .error .noModifiers
  else
    match settings.modifiers.find? (!isKeyword ·) with
    | some modifier => .error (.badModifier modifier)
    | none => .ok ()

end Excision
