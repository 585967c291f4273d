import Excision.Report.Rendering

/-!
# Invocations

What the arguments of the program ask for: a command with its operands and options, and the
general options that go with every command. `Halt` says why no command comes out of some
arguments, and with which status the program then ends.
-/

set_option autoImplicit false

namespace Excision

/-- The version of the program. -/
def version : String := "0.1.0"

/-- The words that name commands. -/
inductive Verb where
  | prune
  | locate
  | presets
deriving DecidableEq, Repr

namespace Verb

/-- The word of a command. -/
def word : Verb → String
  | prune => "prune"
  | locate => "locate"
  | presets => "presets"

/-- The command of a word. -/
def ofWord? (word : String) : Option Verb := [prune, locate, presets].find? (·.word = word)

theorem ofWord?_word (verb : Verb) : ofWord? verb.word = some verb := by
  cases verb <;> decide

/-- The most operands that a command takes; `none` if there is no limit. -/
def operandLimit? : Verb → Option Nat
  | prune => some 1
  | locate => none
  | presets => some 1

/-- Whether the first operand of a command is the path of its input. -/
def takesInput : Verb → Bool
  | prune => true
  | locate => true
  | presets => false

end Verb

/-- What the command line says about the methods to look for and how to look for them. -/
structure SelectionRequest where
  preset : Option String := none
  methods : List String := []
  methodsFile : Option Path := none
  lookback : Option String := none
  depth : Option Nat := none
  modifiers : List String := []
  trimsBlank : Bool := false
  keepsBlank : Bool := false
  allowsMissing : Bool := false
deriving DecidableEq, Repr

/-- A request to remove methods. -/
structure PruneRequest where
  input : Path
  output : Option Path
  dryRun : Bool
  selection : SelectionRequest
deriving DecidableEq, Repr

/-- A request to tell where methods stand; `names` are further methods. -/
structure LocateRequest where
  input : Path
  names : List String
  selection : SelectionRequest
deriving DecidableEq, Repr

/-- What the program is asked to do. -/
inductive Command where
  | prune (request : PruneRequest)
  | locate (request : LocateRequest)
  | presets (name : Option String)
deriving DecidableEq, Repr

/-- A command and the general options. -/
structure Invocation where
  verbose : Bool
  rendering : Rendering
  config : Option Path
  command : Command
deriving DecidableEq, Repr

/-- Why no command comes out of some arguments. -/
inductive Halt where
  /-- The help page is asked for. -/
  | help
  /-- The version is asked for. -/
  | version
  /-- Nothing is asked for. -/
  | nothingGiven
  /-- There are options but no command. -/
  | missingCommand
  | unknownCommand
  | unknownArgument
  /-- The input is missing. -/
  | missingArgument
  /-- An option is repeated, or excluded by another one. -/
  | conflict
  /-- The value of an option is missing, or a path is empty. -/
  | badValue
  | badNumber
  /-- A value is attached to an option that takes none. -/
  | surplusValue
deriving DecidableEq, Repr

/-- The status with which the program ends without a command. -/
def Halt.status : Halt → Nat
  | help => 0
  | version => 0
  | _ => 2

end Excision
