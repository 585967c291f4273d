import Excision.CommandLine.Options

/-!
# Reading arguments

Arguments are read from left to right, first those of the program up to the command word, then
those of the command. An option may get its value attached (`--name=value`, `-xvalue`,
`-x=value`) or as the next argument, which then must not look like an option. Several letters
may share one dash. After `--` every argument is an operand.

A value is looked at when the next option or operand shows that it is complete, or at the end.
So an unknown option is refused before the value in front of it. The command is read to its
end before a pending value of the program is looked at.
-/

set_option autoImplicit false

namespace Excision

/-- What an option still waits for. -/
inductive Pending where
  | nothing
  /-- The value of the option is the next argument. -/
  | awaiting (slot : Slot)
  /-- The value is there and not looked at yet. -/
  | filled (slot : Slot) (text : String)
deriving DecidableEq, Repr

/-- How far the reading has come. -/
structure Reading where
  given : Given := {}
  pending : Pending := .nothing
  /-- Whether every further argument is an operand. -/
  trailing : Bool := false
deriving DecidableEq, Repr

/-- How an argument looks. -/
inductive Look where
  /-- Two dashes. -/
  | escape
  /-- A long name after two dashes, and the value after an equals sign. -/
  | long (name : String) (value : Option String)
  /-- Letters after one dash. -/
  | letters (letters : List Char)
  /-- Anything else, a single dash included. -/
  | plain
deriving DecidableEq, Repr

/-- A text cut at its first equals sign. -/
def cutAtEquals (cs : List Char) : String × Option String :=
  (String.ofList (cs.takeWhile (· ≠ '=')),
    match cs.dropWhile (· ≠ '=') with
    | [] => none
    | _ :: value => some (String.ofList value))

/-- How an argument looks. -/
def Look.ofArgument (argument : String) : Look :=
  match argument.toList with
  | ['-', '-'] => .escape
  | '-' :: '-' :: cs => .long (cutAtEquals cs).1 (cutAtEquals cs).2
  | '-' :: c :: cs => .letters (c :: cs)
  | _ => .plain

/-- What the letters after the letter of an option say about its value, if they are any. -/
def attachedValue? : List Char → Option String
  | [] => none
  | '=' :: cs => some (String.ofList cs)
  | cs => some (String.ofList cs)

/-- The word that asks for the help page of the program or of a command. -/
def helpWord : String := "help"

/-- Whether a word stands for a command or asks for help. -/
def isCommandWord (word : String) : Bool := (Verb.ofWord? word).isSome || word = helpWord

namespace Scope

/-- Whether one more operand is too many. -/
def isFull (operands : List String) : Scope → Bool
  | program => true
  | command verb => verb.operandLimit?.any (· ≤ operands.length)

/-- Why an operand is too many. -/
def surplus (trailing : Bool) (word : String) : Scope → Halt
  | program => if trailing && isCommandWord word then .unknownArgument else .unknownCommand
  | command _ => .unknownArgument

/-- Refuses an input with an empty path. -/
def checkInput (operands : List String) : Scope → Except Halt Unit
  | program => .ok ()
  | command verb =>
    if verb.takesInput && operands.head? == some "" then .error .badValue else .ok ()

end Scope

namespace Reading

/-- The reading with the pending value and the input looked at. -/
def settle (reading : Reading) (scope : Scope) : Except Halt Reading := do
  match reading.pending with
  | .nothing =>
    scope.checkInput reading.given.operands
    return reading
  | .awaiting _ => .error .badValue
  | .filled slot text =>
    return { reading with given := ← reading.given.fill text slot, pending := .nothing }

/-- Meets an option that stands alone. -/
def meetSwitch (reading : Reading) (scope : Scope) (switch : Switch) : Except Halt Reading := do
  let reading ← reading.settle scope
  return { reading with given := ← reading.given.set switch }

/-- Meets an option with a value, attached or still to come. -/
def meetSlot (reading : Reading) (scope : Scope) (slot : Slot) :
    Option String → Except Halt Reading
  | some text => do
    let reading ← reading.settle scope
    return { reading with given := ← reading.given.fill text slot }
  | none => do
    let reading ← reading.settle scope
    return { reading with pending := .awaiting slot }

/-- Meets a long name. -/
def meetName (reading : Reading) (scope : Scope) (name : String) (value : Option String) :
    Except Halt Reading :=
  match scope.named? name, value with
  | none, _ => .error .unknownArgument
  | some (.switch _), some _ => .error .surplusValue
  | some (.switch switch), none => reading.meetSwitch scope switch
  | some (.slot slot), value => reading.meetSlot scope slot value

/-- Meets letters after one dash. The first option with a value takes the rest as its value. -/
def meetLetters (reading : Reading) (scope : Scope) : List Char → Except Halt Reading
  | [] => .ok reading
  | letter :: letters =>
    match scope.lettered? letter with
    | none => .error .unknownArgument
    | some (.switch switch) => do
      let reading ← reading.meetSwitch scope switch
      reading.meetLetters scope letters
    | some (.slot slot) => reading.meetSlot scope slot (attachedValue? letters)

/-- Meets an operand. -/
def meetOperand (reading : Reading) (scope : Scope) (word : String) : Except Halt Reading := do
  if scope.isFull reading.given.operands then .error (scope.surplus reading.trailing word)
  else
    let reading ← reading.settle scope
    let operands := reading.given.operands ++ [word]
    return { reading with given := { reading.given with operands := operands } }

/-- Meets an argument that is no option: a value if one is awaited, else an operand. -/
def meetPlain (reading : Reading) (scope : Scope) (word : String) : Except Halt Reading :=
  match reading.pending with
  | .awaiting slot => .ok { reading with pending := .filled slot word }
  | _ => reading.meetOperand scope word

/-- Meets the next argument. -/
def meet (reading : Reading) (scope : Scope) (argument : String) : Except Halt Reading :=
  if reading.trailing then reading.meetOperand scope argument
  else
    match Look.ofArgument argument with
    | .escape => .ok { reading with trailing := true }
    | .long name value => reading.meetName scope name value
    | .letters letters => reading.meetLetters scope letters
    | .plain => reading.meetPlain scope argument

/-- Whether the next argument can be a command word. -/
def awaitsCommand (reading : Reading) : Bool :=
  match reading.pending with
  | .awaiting _ => false
  | _ => !reading.trailing

end Reading

/-! ## Commands -/

namespace Given

/-- The command that the arguments after its word describe. -/
def command (given : Given) (verb : Verb) : Except Halt Command :=
  if given.selection.trimsBlank && given.selection.keepsBlank then .error .conflict
  else
    match verb, given.operands with
    | .presets, operands => .ok (.presets operands.head?)
    | .prune, input :: _ =>
      .ok (.prune ⟨⟨input⟩, given.output, given.dryRun, given.selection⟩)
    | .locate, input :: names => .ok (.locate ⟨⟨input⟩, names, given.selection⟩)
    | _, [] => .error .missingArgument

/-- The general options on both sides of the command word; of two project files that of the
command counts. -/
def invocation (outer inner : Given) (command : Command) : Invocation where
  verbose := outer.verbose || inner.verbose
  rendering := if outer.json || inner.json then .json else .human
  config := inner.config.or outer.config
  command := command

end Given

/-- Why the arguments after the help word lead to no command. -/
def Halt.ofHelp : List String → Halt
  | [] => .help
  | [word] => if isCommandWord word then .help else .unknownCommand
  | _ => .unknownCommand

namespace Invocation

/-- Reads the arguments after a command word. -/
def readCommand (verb : Verb) (arguments : List String) : Except Halt (Given × Command) := do
  let reading ← arguments.foldlM (fun reading => reading.meet (.command verb)) ({} : Reading)
  let reading ← reading.settle (.command verb)
  return (reading.given, ← reading.given.command verb)

/-- Reads the arguments from a reading of some of them on. -/
def readFrom (reading : Reading) : List String → Except Halt Invocation
  | [] => do
    let reading ← reading.settle .program
    .error (if reading.given = {} then .nothingGiven else .missingCommand)
  | argument :: arguments => do
    if reading.awaitsCommand && argument = helpWord then .error (Halt.ofHelp arguments)
    else
      match if reading.awaitsCommand then Verb.ofWord? argument else none with
      | some verb =>
        let (inner, command) ← readCommand verb arguments
        let reading ← reading.settle .program
        return reading.given.invocation inner command
      | none => readFrom (← reading.meet .program argument) arguments

/-- Reads the arguments of the program. -/
def ofArguments (arguments : List String) : Except Halt Invocation := readFrom {} arguments

end Invocation

end Excision
