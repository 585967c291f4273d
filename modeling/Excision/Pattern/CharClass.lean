import Excision.Pattern
import Excision.Pattern.Fault
import Excision.Text.CodePoint

/-!
# Escapes and character classes of written patterns

What stands for one character in a written pattern, or for the empty text at an edge: a
character itself, an escape after a backslash, and a class between brackets. A class is a union
of characters, ranges, escapes and other classes; two classes may be combined by `&&` (both),
`--` (only the first) and `~~` (exactly one), which are read from the left.

Properties of characters by their name are not known here, so every name is refused as one that
is not found. Letters, digits and words are those of ASCII.
-/

set_option autoImplicit false

namespace Excision.Pattern

/-- How a pattern is read. -/
structure Flags where
  ignoresCase : Bool := false
  /-- Whether line edges are meant where the edges of the text are. -/
  byLine : Bool := false
  dotMatchesNewline : Bool := false
  carriageEndsLine : Bool := false
  skipsBlanks : Bool := false
deriving DecidableEq, Repr

/-- A set of characters under flags. -/
def Flags.fold (flags : Flags) (set : CharSet) : CharSet :=
  if flags.ignoresCase then .anyCase set else set

/-- The text after blanks and comments, which go from a number sign to the end of its line. -/
def afterBlanks (inComment : Bool) : List Char → List Char
  | [] => []
  | c :: cs =>
    if inComment then afterBlanks (c ≠ '\n') cs
    else if c = '#' then afterBlanks true cs
    else if Text.isBlank c then afterBlanks false cs
    else c :: cs

/-- The text after what flags say to skip. -/
def Flags.skip (flags : Flags) (text : List Char) : List Char :=
  if flags.skipsBlanks then afterBlanks false text else text

/-! ## Escapes -/

/-- What an escape means. -/
inductive Escape where
  | literal (c : Char)
  | set (set : CharSet)
  | edge (kind : Edge)
deriving DecidableEq, Repr

/-- The set that a letter means after a backslash. -/
def setOf? : Char → Option CharSet
  | 'd' => some .digit
  | 'D' => some (.complement .digit)
  | 's' => some .blank
  | 'S' => some (.complement .blank)
  | 'w' => some .word
  | 'W' => some (.complement .word)
  | _ => none

/-- The edge that a letter or sign means after a backslash. -/
def edgeOf? : Char → Option Edge
  | 'A' => some .textStart
  | 'z' => some .textEnd
  | 'b' => some .word
  | 'B' => some .noWord
  | '<' => some .wordStart
  | '>' => some .wordEnd
  | _ => none

/-- The control character that a letter means after a backslash. -/
def controlOf? : Char → Option Char
  | 'a' => some '\x07'
  | 'f' => some '\x0c'
  | 't' => some '\t'
  | 'n' => some '\n'
  | 'r' => some '\r'
  | 'v' => some '\x0b'
  | _ => none

/-- How many hexadecimal digits follow a letter after a backslash. -/
def pointDigits? : Char → Option Nat
  | 'x' => some 2
  | 'u' => some 4
  | 'U' => some 8
  | _ => none

/-- Whether a character that is no letter and no digit means itself after a backslash. -/
def meansItself (c : Char) : Bool := c.toNat < 0x80 && !c.isAlphanum

/-- A character by a fixed number of hexadecimal digits. The start of the digits and the value
of those before are given. -/
def pointOfDigits (start : List Char) : Nat → Nat → List Char → Except Fault (Escape × List Char)
  | 0, value, cs =>
    match Text.charOfPoint? value with
    | some c => .ok (.literal c, cs)
    | none => refuse .pointInvalid (.between start cs)
  | _ + 1, _, [] => refuse .escapeUnclosed ⟨0, 0⟩
  | count + 1, value, c :: cs =>
    match Text.hexValue? c with
    | some digit => pointOfDigits start count (16 * value + digit) cs
    | none => refuse .pointDigit (.ofHead (c :: cs))

/-- A character by hexadecimal digits between braces. The start of the digits and the value of
those before are given, and whether there were any. -/
def pointOfBraces (start : List Char) (any : Bool) (value : Nat) :
    List Char → Except Fault (Escape × List Char)
  | [] => refuse .escapeUnclosed ⟨start.length + 1, 0⟩
  | c :: cs =>
    if c = '\x7d' then
      if !any then refuse .pointEmpty ⟨start.length + 1, cs.length⟩
      else
        match Text.charOfPoint? value with
        | some c => .ok (.literal c, cs)
        | none => refuse .pointInvalid (.between start (c :: cs))
    else
      match Text.hexValue? c with
      | some digit => pointOfBraces start true (16 * value + digit) cs
      | none => refuse .pointDigit (.ofHead (c :: cs))

/-- A property of characters by its name. The text from the backslash on is given. -/
def property (whole : List Char) : List Char → Except Fault (Escape × List Char)
  | [] => refuse .escapeUnclosed ⟨0, 0⟩
  | c :: cs =>
    if c = '\\' then refuse .propertyInvalid (.ofHead (c :: cs))
    else if c = '\x7b' then
      match cs.dropWhile (· ≠ '\x7d') with
      | [] => refuse .escapeUnclosed ⟨0, 0⟩
      | _ :: cs => refuse .propertyUnknown (.between whole cs)
    else refuse .propertyUnknown (.between whole cs)

/-- Reads an escape after its backslash. The text from the backslash on is given. -/
def escape (whole : List Char) : List Char → Except Fault (Escape × List Char)
  | [] => refuse .escapeUnclosed (.between whole [])
  | c :: cs =>
    if c.isDigit then refuse .backreference (.between whole cs)
    else if c = 'p' ∨ c = 'P' then property whole cs
    else
      match pointDigits? c, cs, setOf? c, edgeOf? c, controlOf? c with
      | some _, [], _, _, _ => refuse .escapeUnclosed ⟨0, 0⟩
      | some digits, d :: ds, _, _, _ =>
        if d = '\x7b' then pointOfBraces ds false 0 ds else pointOfDigits cs digits 0 cs
      | none, _, some set, _, _ => .ok (.set set, cs)
      | none, _, none, some kind, _ => .ok (.edge kind, cs)
      | none, _, none, none, some control => .ok (.literal control, cs)
      | none, _, none, none, none =>
        if meansItself c then .ok (.literal c, cs) else refuse .escapeUnknown (.between whole cs)

/-! ## Classes -/

/-- How two classes are combined. -/
inductive ClassOperator where
  | both
  | onlyFirst
  | exactlyOne
deriving DecidableEq, Repr

/-- The combination of two sets. -/
def ClassOperator.apply : ClassOperator → CharSet → CharSet → CharSet
  | both, left, right => .common left right
  | onlyFirst, left, right => left.without right
  | exactlyOne, left, right => .union (left.without right) (right.without left)

/-- A class that is open: the place of its opening, whether it is a complement, what stands
before the last operator, and the union of what came after that. -/
structure OpenClass where
  opening : Span
  isComplement : Bool
  before : Option (CharSet × ClassOperator)
  union : CharSet
deriving DecidableEq, Repr

namespace OpenClass

/-- A class with more characters. -/
def add (cls : OpenClass) (set : CharSet) : OpenClass := { cls with union := cls.union.union set }

/-- What stands before the place where one reads. -/
def combined (cls : OpenClass) : CharSet :=
  match cls.before with
  | some (left, operator) => operator.apply left cls.union
  | none => cls.union

/-- A class after an operator. -/
def operate (cls : OpenClass) (operator : ClassOperator) : OpenClass :=
  { cls with before := some (cls.combined, operator), union := .empty }

/-- The set of a class that closes. -/
def closed (cls : OpenClass) : CharSet :=
  if cls.isComplement then .complement cls.combined else cls.combined

end OpenClass

/-- The named classes of ASCII characters. -/
def namedClasses : List (String × CharSet) :=
  [("alnum", .union .letter .digit), ("alpha", .letter), ("ascii", .range 0 0x7F),
    ("blank", .ofList ['\t', ' ']), ("cntrl", .union (.range 0 0x1F) (.one '\x7f')),
    ("digit", .digit), ("graph", .range 0x21 0x7E), ("lower", .range 0x61 0x7A),
    ("print", .range 0x20 0x7E),
    ("punct", CharSet.without (.range 0x21 0x7E) (.union .letter .digit)),
    ("space", .union (.range 9 13) (.one ' ')), ("upper", .range 0x41 0x5A), ("word", .word),
    ("xdigit", .union .digit (.union (.range 0x41 0x46) (.range 0x61 0x66)))]

/-- A named class after its bracket and colon, and the text after it, if there is one. -/
def namedClass? (text : List Char) : Option (CharSet × List Char) :=
  let isComplement := text.head? = some '^'
  let name := if isComplement then text.tail else text
  let word := name.takeWhile (· ≠ ':')
  match name.dropWhile (· ≠ ':') with
  | ':' :: ']' :: cs =>
    (namedClasses.lookup (String.ofList word)).map fun set =>
      (if isComplement then .complement set else set, cs)
  | _ => none

/-- Opens a class after its bracket. Hyphens at its start and a bracket that would close it at
once mean themselves. The text from the bracket on is given. -/
def openClass (flags : Flags) (whole text : List Char) :
    Except Fault (OpenClass × List Char) :=
  let cs := flags.skip text
  let isComplement := cs.head? = some '^'
  let cs := if isComplement then flags.skip cs.tail else cs
  let hyphens := cs.takeWhile (· = '-')
  let cs := cs.dropWhile (· = '-')
  let set := if hyphens.isEmpty then .empty else CharSet.one '-'
  let isBracket := hyphens.isEmpty ∧ cs.head? = some ']'
  let set := if isBracket then .one ']' else set
  let cs := if isBracket then flags.skip cs.tail else cs
  if cs.isEmpty then
    refuse .classUnclosed (if hyphens.isEmpty then .between whole [] else .between whole whole)
  else .ok (⟨.between whole cs, isComplement, none, set⟩, cs)

/-- Reads a character or an escape in a class. -/
def classItem : List Char → Except Fault (Escape × List Char)
  | [] => refuse .escapeUnclosed ⟨0, 0⟩
  | c :: cs => if c = '\\' then escape (c :: cs) cs else .ok (.literal c, cs)

/-- The character of an item that is one end of a range. -/
def boundary (item : Escape) (span : Span) : Except Fault Char :=
  match item with
  | .literal c => .ok c
  | _ => refuse .classBoundary span

/-- Reads an item or a range in a class. -/
def classRange (flags : Flags) (cls : OpenClass) (text : List Char) :
    Except Fault (OpenClass × List Char) := do
  let (first, afterFirst) ← classItem text
  let cs := flags.skip afterFirst
  let next := (flags.skip cs.tail).head?
  if cs.isEmpty then refuse .classUnclosed cls.opening
  else if cs.head? ≠ some '-' ∨ next = some ']' ∨ next = some '-' then
    match first with
    | .literal c => return (cls.add (flags.fold (.one c)), cs)
    | .set set => return (cls.add (flags.fold set), cs)
    | .edge _ => refuse .classEscape (.between text afterFirst)
  else
    let second := flags.skip cs.tail
    if second.isEmpty then refuse .classUnclosed cls.opening
    else
      let (last, cs) ← classItem second
      let low ← boundary first (.between text afterFirst)
      let high ← boundary last (.between second cs)
      if high < low then refuse .classReversed (.between text cs)
      else return (cls.add (flags.fold (.range low.toNat high.toNat)), cs)

/-- The operator at the start of a text. -/
def operator? : List Char → Option ClassOperator
  | '&' :: '&' :: _ => some .both
  | '-' :: '-' :: _ => some .onlyFirst
  | '~' :: '~' :: _ => some .exactlyOne
  | _ => none

/-- Reads the rest of a class inside of others, the innermost of which comes first. Every step
takes a character at least, so as many steps are enough as there are characters. -/
def classRest (flags : Flags) : Nat → OpenClass → List OpenClass → List Char →
    Except Fault (CharSet × List Char)
  | 0, cls, _, _ => refuse .classUnclosed cls.opening
  | steps + 1, cls, outer, text =>
    match flags.skip text with
    | [] => refuse .classUnclosed cls.opening
    | '[' :: ':' :: cs =>
      match namedClass? cs with
      | some (set, cs) => classRest flags steps (cls.add (flags.fold set)) outer cs
      | none => do
        let (inner, cs) ← openClass flags ('[' :: ':' :: cs) (':' :: cs)
        classRest flags steps inner (cls :: outer) cs
    | '[' :: cs => do
      let (inner, cs) ← openClass flags ('[' :: cs) cs
      classRest flags steps inner (cls :: outer) cs
    | ']' :: cs =>
      match outer with
      | [] => .ok (cls.closed, cs)
      | parent :: outer => classRest flags steps (parent.add cls.closed) outer cs
    | cs =>
      match operator? cs with
      | some operator => classRest flags steps (cls.operate operator) outer (cs.drop 2)
      | none => do
        let (cls, cs) ← classRange flags cls cs
        classRest flags steps cls outer cs

/-- Reads a class after its bracket. The text from the bracket on is given. -/
def charClass (flags : Flags) (whole text : List Char) :
    Except Fault (CharSet × List Char) := do
  let (cls, cs) ← openClass flags whole text
  classRest flags whole.length cls [] cs

end Excision.Pattern
