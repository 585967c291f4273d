import Excision.CommandLine.Invocation

/-!
# Options

The options by their long names and letters, where each of them is known, and what is gathered
from the arguments. An option that stands alone can be given once, and so can an option with a
value unless its values add up to a list. The general options count once among the arguments
of the program and once among those of its command.
-/

set_option autoImplicit false

namespace Excision

/-- The options that stand alone. -/
inductive Switch where
  | help
  | version
  | verbose
  | json
  | dryRun
  | trimBlank
  | keepBlank
  | allowMissing
deriving DecidableEq, Repr

/-- The options that take a value. -/
inductive Slot where
  | config
  | output
  | preset
  | method
  | methodsFile
  | lookback
  | depth
  | modifier
deriving DecidableEq, Repr

/-- An option. -/
inductive Choice where
  | switch (switch : Switch)
  | slot (slot : Slot)
deriving DecidableEq, Repr

/-- An option under its long name and its letter, if it has one. -/
structure Listed where
  choice : Choice
  name : String
  letter : Option Char
deriving DecidableEq, Repr

/-- The places where arguments are read: before the command, or after it. -/
inductive Scope where
  | program
  | command (verb : Verb)
deriving DecidableEq, Repr

/-- The options that are known everywhere. -/
def generalOptions : List Listed :=
  [⟨.switch .help, "help", some 'h'⟩,
    ⟨.switch .verbose, "verbose", some 'v'⟩,
    ⟨.switch .json, "json", none⟩,
    ⟨.slot .config, "config", none⟩]

/-- The options of the commands that look for methods. -/
def selectionOptions : List Listed :=
  [⟨.slot .preset, "preset", some 'p'⟩,
    ⟨.slot .method, "method", some 'm'⟩,
    ⟨.slot .methodsFile, "methods-file", none⟩,
    ⟨.slot .lookback, "lookback", none⟩,
    ⟨.slot .depth, "lookback-depth", none⟩,
    ⟨.slot .modifier, "modifier", none⟩,
    ⟨.switch .trimBlank, "trim-blank", none⟩,
    ⟨.switch .keepBlank, "keep-blank", none⟩,
    ⟨.switch .allowMissing, "allow-missing", none⟩]

namespace Scope

/-- The options that are known in a place. -/
def options : Scope → List Listed
  | program => ⟨.switch .version, "version", some 'V'⟩ :: generalOptions
  | command .prune =>
    [⟨.slot .output, "output", some 'o'⟩, ⟨.switch .dryRun, "dry-run", none⟩]
      ++ selectionOptions ++ generalOptions
  | command .locate => selectionOptions ++ generalOptions
  | command .presets => generalOptions

/-- The option of a long name. -/
def named? (scope : Scope) (name : String) : Option Choice :=
  (scope.options.find? (·.name = name)).map Listed.choice

/-- The option of a letter. -/
def lettered? (scope : Scope) (letter : Char) : Option Choice :=
  (scope.options.find? (·.letter = some letter)).map Listed.choice

end Scope

/-- What is gathered from the arguments in one place. -/
structure Given where
  verbose : Bool := false
  json : Bool := false
  config : Option Path := none
  output : Option Path := none
  dryRun : Bool := false
  selection : SelectionRequest := {}
  operands : List String := []
deriving DecidableEq, Repr

/-- A path is not empty. -/
def readPath (text : String) : Except Halt Path :=
  if text = "" then .error .badValue else .ok ⟨text⟩

/-- The number that decimal digits write. -/
def valueOfDigits (digits : List Char) : Nat :=
  digits.foldl (fun n c => 10 * n + (c.toNat - '0'.toNat)) 0

/-- The digits of a number, after a plus sign if there is one. -/
def withoutPlus : List Char → List Char
  | '+' :: digits => digits
  | digits => digits

/-- A depth is written in decimal digits, with a plus sign or without, and has at most 64 bits. -/
def readDepth (text : String) : Except Halt Nat :=
  let digits := withoutPlus text.toList
  if digits ≠ [] ∧ digits.all Char.isDigit ∧ valueOfDigits digits < Nat.pow 2 64 then
    .ok (valueOfDigits digits)
  else .error .badNumber

/-- Refuses what is already there. -/
def refuseIf (present : Bool) : Except Halt Unit :=
  if present then .error .conflict else .ok ()

namespace Given

/-- The arguments with one more option that stands alone. -/
def set (given : Given) : Switch → Except Halt Given
  | .help => .error .help
  | .version => .error .version
  | .verbose => do
    refuseIf given.verbose
    return { given with verbose := true }
  | .json => do
    refuseIf given.json
    return { given with json := true }
  | .dryRun => do
    refuseIf given.dryRun
    return { given with dryRun := true }
  | .trimBlank => do
    refuseIf given.selection.trimsBlank
    return { given with selection := { given.selection with trimsBlank := true } }
  | .keepBlank => do
    refuseIf given.selection.keepsBlank
    return { given with selection := { given.selection with keepsBlank := true } }
  | .allowMissing => do
    refuseIf given.selection.allowsMissing
    return { given with selection := { given.selection with allowsMissing := true } }

/-- The arguments with the value of one more option. A repeated option is refused before its
value is looked at. -/
def fill (given : Given) (text : String) : Slot → Except Halt Given
  | .config => do
    refuseIf given.config.isSome
    return { given with config := some (← readPath text) }
  | .output => do
    refuseIf given.output.isSome
    return { given with output := some (← readPath text) }
  | .preset => do
    refuseIf given.selection.preset.isSome
    return { given with selection := { given.selection with preset := some text } }
  | .methodsFile => do
    refuseIf given.selection.methodsFile.isSome
    let path ← readPath text
    return { given with selection := { given.selection with methodsFile := some path } }
  | .lookback => do
    refuseIf given.selection.lookback.isSome
    return { given with selection := { given.selection with lookback := some text } }
  | .depth => do
    refuseIf given.selection.depth.isSome
    let depth ← readDepth text
    return { given with selection := { given.selection with depth := some depth } }
  | .method =>
    let methods := given.selection.methods ++ [text]
    .ok { given with selection := { given.selection with methods := methods } }
  | .modifier =>
    let modifiers := given.selection.modifiers ++ [text]
    .ok { given with selection := { given.selection with modifiers := modifiers } }

end Given

end Excision
