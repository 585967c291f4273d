import Excision.Pattern.CharClass

/-!
# Reading written patterns

A pattern is written as branches between bars, each a row of items. An item is a character, a
point for any character but a newline, an escape, a class, an edge (`^` and `$`) or a group
between parentheses, and a repetition (`?`, `*`, `+`, or counts between braces) applies to the
item before it. Flags between parentheses hold up to the end of the group they stand in.

The reader keeps the groups that are open. The first fault from left to right is the one
reported; a group that is not closed is found at the end, and the innermost one is meant.
-/

set_option autoImplicit false

namespace Excision.Pattern

/-! ## Repetitions -/

/-- How often an item is repeated. -/
structure Count where
  least : Nat
  most : Option Nat
deriving DecidableEq, Repr

/-- The number at the start of a text, which must fit in thirty-two bits, and the text after it.
Blanks may stand around it. -/
def number (flags : Flags) (text : List Char) : Except Fault Nat × List Char :=
  let cs := text.dropWhile Text.isBlank
  let digits := cs.takeWhile Char.isDigit
  let afterDigits := cs.dropWhile Char.isDigit
  let span := Span.between cs afterDigits
  let value := digits.foldl (fun n c => 10 * n + (c.toNat - '0'.toNat)) 0
  let result :=
    if digits.isEmpty then refuse .repetitionEmpty span
    else if Nat.pow 2 32 ≤ value then refuse .numberTooLarge span
    else .ok value
  (result, flags.skip (afterDigits.dropWhile Text.isBlank))

/-- Reads the brace that closes the counts of a repetition, and a question mark after it. The
text from the opening brace on is given. -/
def closeCounts (flags : Flags) (whole : List Char) (count : Count) :
    List Char → Except Fault (Count × List Char)
  | '\x7d' :: cs =>
    let cs := flags.skip cs
    let cs := if cs.head? = some '?' then cs.tail else cs
    if count.most.any (· < count.least) then refuse .repetitionReversed (.between whole cs)
    else .ok (count, cs)
  | cs => refuse .repetitionUnclosed (.between whole cs)

/-- Reads the counts of a repetition after its brace. A text that ends here is told before a
number that is missing. The text from the brace on is given. -/
def counts (flags : Flags) (whole text : List Char) : Except Fault (Count × List Char) :=
  let (least, afterLeast) := number flags (flags.skip text)
  match afterLeast with
  | [] => refuse .repetitionUnclosed (.between whole [])
  | ',' :: cs =>
    match flags.skip cs with
    | [] => refuse .repetitionUnclosed (.between whole [])
    | '\x7d' :: cs => do closeCounts flags whole ⟨← least, none⟩ ('\x7d' :: cs)
    | cs => do
      let least ← least
      let (most, cs) := number flags cs
      closeCounts flags whole ⟨least, some (← most)⟩ cs
  | cs => do
    let least ← least
    closeCounts flags whole ⟨least, some least⟩ cs

/-! ## Groups and flags -/

/-- A flag, and the place where it is written. -/
structure FlagItem where
  letter : Char
  place : Span
deriving DecidableEq, Repr

/-- Whether a letter is a flag. Greed and Unicode make no difference to whether there is a match
of ASCII letters. -/
def isFlag (c : Char) : Bool := "imsUuRx".toList.contains c

/-- Flags with one of them set or unset. -/
def Flags.set (flags : Flags) (letter : Char) (value : Bool) : Flags :=
  match letter with
  | 'i' => { flags with ignoresCase := value }
  | 'm' => { flags with byLine := value }
  | 's' => { flags with dotMatchesNewline := value }
  | 'R' => { flags with carriageEndsLine := value }
  | 'x' => { flags with skipsBlanks := value }
  | _ => flags

/-- Flags after the items of a list, of which those behind a hyphen are unset. -/
def Flags.setAll (flags : Flags) (items : List FlagItem) : Flags :=
  let letters := items.map FlagItem.letter
  let setOnes := (letters.takeWhile (· ≠ '-')).foldl (fun flags c => flags.set c true) flags
  (letters.dropWhile (· ≠ '-')).foldl (fun flags c => flags.set c false) setOnes

/-- Reads flags up to a colon or a parenthesis, which is left. Those before come last one
first. -/
def flagItems (items : List FlagItem) : List Char → Except Fault (List FlagItem × List Char)
  | [] => refuse .flagUnclosed ⟨0, 0⟩
  | c :: cs =>
    let place := Span.ofHead (c :: cs)
    if c = ':' ∨ c = ')' then
      match items with
      | ⟨'-', hyphen⟩ :: _ => refuse .flagDangling hyphen
      | items => .ok (items.reverse, c :: cs)
    else if c ≠ '-' ∧ !isFlag c then refuse .flagUnknown place
    else
      match items.find? (·.letter = c) with
      | some other =>
        .error ⟨if c = '-' then .negationRepeated else .flagRepeated, [other.place, place]⟩
      | none => flagItems (⟨c, place⟩ :: items) cs

/-- The name of a group, and the place where it is written. -/
structure GroupName where
  text : List Char
  place : Span
deriving DecidableEq, Repr

/-- Whether a character may stand in the name of a group. -/
def isNameChar (isFirst : Bool) (c : Char) : Bool :=
  c = '_' || c.isAlpha || (!isFirst && (c.isDigit || c = '.' || c = '[' || c = ']'))

/-- Whether all characters of a name may stand there, or the first place where one may not. -/
def badNamePlace? (isFirst : Bool) : List Char → Option Span
  | [] => none
  | c :: cs =>
    if c = '>' then none
    else if isNameChar isFirst c then badNamePlace? false cs
    else some (.ofHead (c :: cs))

/-- Reads the name of a group up to the bracket that closes it, given the names before. -/
def groupName (names : List GroupName) (text : List Char) :
    Except Fault (GroupName × List Char) :=
  match badNamePlace? true text with
  | some place => refuse .nameInvalid place
  | none =>
    let stop := text.dropWhile (· ≠ '>')
    let name : GroupName := ⟨text.takeWhile (· ≠ '>'), .between text stop⟩
    if stop.isEmpty then refuse .nameUnclosed ⟨0, 0⟩
    else if name.text.isEmpty then refuse .nameEmpty (.between text text)
    else
      match names.find? (·.text = name.text) with
      | some other => .error ⟨.nameRepeated, [other.place, name.place]⟩
      | none => .ok (name, stop.tail)

/-- What a parenthesis opens: a group, with its name if it has one, or flags that hold from here
on. -/
inductive Opening where
  | group (flags : Flags) (name : Option GroupName)
  | flags (flags : Flags)
deriving DecidableEq, Repr

/-- The text after the start of a look-around. -/
def afterLookAround? : List Char → Option (List Char)
  | '?' :: '=' :: cs => some cs
  | '?' :: '!' :: cs => some cs
  | '?' :: '<' :: '=' :: cs => some cs
  | '?' :: '<' :: '!' :: cs => some cs
  | _ => none

/-- Reads what a parenthesis opens. The text from the parenthesis on is given. -/
def opening (flags : Flags) (names : List GroupName) (whole text : List Char) :
    Except Fault (Opening × List Char) := do
  let cs := flags.skip text
  match afterLookAround? cs with
  | some rest => refuse .lookAround (.between whole rest)
  | none =>
    match cs with
    | '?' :: 'P' :: '<' :: cs => do
      let (name, cs) ← groupName names cs
      return (.group flags (some name), cs)
    | '?' :: '<' :: cs => do
      let (name, cs) ← groupName names cs
      return (.group flags (some name), cs)
    | ['?'] => refuse .groupUnclosed (.ofHead whole)
    | '?' :: rest => do
      let (items, rest) ← flagItems [] rest
      let changed := flags.setAll items
      if rest.head? = some ':' then return (.group changed none, rest.tail)
      else if items.isEmpty then refuse .repetitionMissing (.between cs cs)
      else return (.flags changed, rest.tail)
    | cs => return (.group flags none, cs)

/-! ## The reader -/

/-- A group that is open, or the whole pattern: the place of its parenthesis, the flags that
hold, its finished branches, and the items of the last one. Branches and items come last one
first; an item without a pattern stands for flags. -/
structure OpenGroup where
  place : Span
  flags : Flags
  branches : List Pattern
  items : List (Option Pattern)
deriving Repr

namespace OpenGroup

/-- A group with another item. -/
def add (group : OpenGroup) (pattern : Pattern) : OpenGroup :=
  { group with items := some pattern :: group.items }

/-- The branch that is not finished yet. -/
def branch (group : OpenGroup) : Pattern := .ofList (group.items.reverse.filterMap id)

/-- A group in which the next branch begins. -/
def divided (group : OpenGroup) : OpenGroup :=
  { group with branches := group.branch :: group.branches, items := [] }

/-- The pattern of a group that closes. -/
def closed (group : OpenGroup) : Pattern := .anyOf group.branch group.branches

/-- A group whose last item is repeated. The place of the repetition is given. -/
def repeatLast (group : OpenGroup) (count : Count) (place : Span) : Except Fault OpenGroup :=
  match group.items with
  | some item :: items =>
    .ok { group with items := some (.repeated item count.least count.most) :: items }
  | _ => refuse .repetitionMissing place

/-- Whether there is an item to repeat. -/
def hasLast (group : OpenGroup) : Bool :=
  match group.items with
  | some _ :: _ => true
  | _ => false

end OpenGroup

/-- The characters that a point stands for. -/
def Flags.dot (flags : Flags) : CharSet :=
  if flags.dotMatchesNewline then .complement .empty
  else if flags.carriageEndsLine then .complement (.ofList ['\n', '\r'])
  else .complement (.one '\n')

/-- The edge that a caret stands for. -/
def Flags.caret (flags : Flags) : Edge :=
  if flags.byLine then .lineStart flags.carriageEndsLine else .textStart

/-- The edge that a dollar sign stands for. -/
def Flags.dollar (flags : Flags) : Edge :=
  if flags.byLine then .lineEnd flags.carriageEndsLine else .textEnd

/-- What an escape matches under flags. -/
def Escape.pattern (flags : Flags) : Escape → Pattern
  | literal c => .char (flags.fold (.one c))
  | set chars => .char (flags.fold chars)
  | edge kind => .edge kind

/-- The count that a sign for a repetition means. -/
def countOf? : Char → Option Count
  | '?' => some ⟨0, some 1⟩
  | '*' => some ⟨0, none⟩
  | '+' => some ⟨1, none⟩
  | _ => none

/-- Reads one item that is no parenthesis, no bar and no repetition. -/
def item (flags : Flags) (text : List Char) : Except Fault (Pattern × List Char) :=
  match text with
  | [] => .ok (.empty, [])
  | '[' :: cs => do
    let (set, rest) ← charClass flags ('[' :: cs) cs
    return (.char set, rest)
  | '\\' :: cs => do
    let (meaning, rest) ← escape ('\\' :: cs) cs
    return (meaning.pattern flags, rest)
  | '.' :: cs => .ok (.char flags.dot, cs)
  | '^' :: cs => .ok (.edge flags.caret, cs)
  | '$' :: cs => .ok (.edge flags.dollar, cs)
  | c :: cs => .ok (.char (flags.fold (.one c)), cs)

/-- Reads the rest of a pattern inside of the groups that are open, the innermost first. Every
step takes a character at least, so as many steps are enough as there are characters. -/
def readRest : Nat → List GroupName → OpenGroup → List OpenGroup → List Char →
    Except Fault Pattern
  | 0, _, group, _, _ => .ok group.closed
  | steps + 1, names, group, outer, text =>
    let text := group.flags.skip text
    match text with
    | [] =>
      match outer with
      | [] => .ok group.closed
      | _ :: _ => refuse .groupUnclosed group.place
    | '(' :: cs => do
      match ← opening group.flags names text cs with
      | (.flags flags, cs) =>
        readRest steps names { group with flags := flags, items := none :: group.items } outer cs
      | (.group flags name, cs) =>
        readRest steps (name.toList ++ names) ⟨.ofHead text, flags, [], []⟩ (group :: outer) cs
    | ')' :: cs =>
      match outer with
      | [] => refuse .groupUnopened (.ofHead text)
      | parent :: outer => readRest steps names (parent.add group.closed) outer cs
    | '|' :: cs => readRest steps names group.divided outer cs
    | '\x7b' :: cs =>
      if !group.hasLast then refuse .repetitionMissing (.between text text)
      else do
        let (count, rest) ← counts group.flags text cs
        readRest steps names (← group.repeatLast count (.ofHead text)) outer rest
    | c :: cs =>
      match countOf? c with
      | some count => do
        let group ← group.repeatLast count (.between text text)
        readRest steps names group outer (if cs.head? = some '?' then cs.tail else cs)
      | none => do
        let (pattern, rest) ← item group.flags text
        readRest steps names (group.add pattern) outer rest

/-- The pattern that a text is. -/
def read (text : String) : Except Fault Pattern :=
  readRest (text.length + 1) [] ⟨⟨0, 0⟩, {}, [], []⟩ [] text.toList

end Excision.Pattern
