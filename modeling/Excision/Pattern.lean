import Excision.Text.Blank

/-!
# Patterns

A pattern is a regular expression whose only question is whether a text holds a match of it
somewhere, so there are no groups to take out and no order among the ways to match. Between two
characters it may ask for an edge: the start or the end of the text, of a line or of a word.

A search keeps the patterns of which one must match what is left. A character takes each of them
to the patterns that may come next (`rest`). Whether a pattern matches the empty text depends on
the characters before and after the place (`isSatisfied`).
-/

set_option autoImplicit false

namespace Excision

/-- A set of characters. -/
inductive CharSet where
  /-- The code points from the first to the second. -/
  | range (low high : Nat)
  | blank
  | union (left right : CharSet)
  | common (left right : CharSet)
  | complement (set : CharSet)
  /-- The characters that differ only in their case from one of the set. -/
  | anyCase (set : CharSet)
deriving DecidableEq, Repr

namespace CharSet

/-- No character. -/
def empty : CharSet := .range 1 0

/-- One character. -/
def one (c : Char) : CharSet := .range c.toNat c.toNat

/-- The characters of a list. -/
def ofList (cs : List Char) : CharSet := cs.foldl (fun set c => set.union (one c)) empty

/-- The ASCII digits. -/
def digit : CharSet := .range 0x30 0x39

/-- The ASCII letters. -/
def letter : CharSet := .union (.range 0x41 0x5A) (.range 0x61 0x7A)

/-- The ASCII characters of words: letters, digits and the underscore. -/
def word : CharSet := .union letter (.union digit (one '_'))

/-- The characters of the first set that are not in the second. -/
def without (left right : CharSet) : CharSet := .common left (.complement right)

/-- The characters that differ only in their case from a given one: of ASCII letters the small
one and the capital one, with the long s and the Kelvin sign. -/
def caseVariants (c : Char) : List Char :=
  match c.toLower with
  | 's' => ['s', 'S', 'ſ']
  | 'ſ' => ['s', 'S', 'ſ']
  | 'k' => ['k', 'K', '\u212A']
  | '\u212A' => ['k', 'K', '\u212A']
  | small => [small, c.toUpper]

/-- Whether a character is in a set. -/
def contains : CharSet → Char → Bool
  | range low high, c => low ≤ c.toNat && c.toNat ≤ high
  | blank, c => Text.isBlank c
  | union left right, c => left.contains c || right.contains c
  | common left right, c => left.contains c && right.contains c
  | complement set, c => !set.contains c
  | anyCase set, c => (caseVariants c).any set.contains

end CharSet

/-- What a pattern may ask for between two characters. -/
inductive Edge where
  | textStart
  | textEnd
  /-- The start of a line; whether a carriage return ends lines too. -/
  | lineStart (carriage : Bool)
  | lineEnd (carriage : Bool)
  | word
  | noWord
  | wordStart
  | wordEnd
deriving DecidableEq, Repr

namespace Edge

/-- Whether a character that may be missing belongs to a word. -/
def isWord (c : Option Char) : Bool := c.any CharSet.word.contains

/-- Whether there is such an edge between two characters, either of which may be missing at the
end of the text. A carriage return and the newline after it end one line together. -/
def lies (edge : Edge) (before after : Option Char) : Bool :=
  match edge with
  | textStart => before.isNone
  | textEnd => after.isNone
  | lineStart false => before.all (· = '\n')
  | lineStart true => before.all (· = '\n') || (before = some '\r' && after ≠ some '\n')
  | lineEnd false => after.all (· = '\n')
  | lineEnd true => after.all (· = '\r') || (after = some '\n' && before ≠ some '\r')
  | word => isWord before != isWord after
  | noWord => isWord before == isWord after
  | wordStart => !isWord before && isWord after
  | wordEnd => isWord before && !isWord after

end Edge

/-- A regular expression. -/
inductive Pattern where
  /-- Matches the empty text. -/
  | empty
  | char (set : CharSet)
  | edge (kind : Edge)
  | seq (first second : Pattern)
  | either (left right : Pattern)
  /-- The pattern at least and at most so many times. -/
  | repeated (pattern : Pattern) (least : Nat) (most : Option Nat)
deriving DecidableEq, Repr

namespace Pattern

/-- One pattern after the other. -/
def andThen : Pattern → Pattern → Pattern
  | empty, second => second
  | first, second => seq first second

/-- Patterns one after the other. -/
def ofList (patterns : List Pattern) : Pattern := patterns.foldr andThen empty

/-- Any of the patterns of a list and one more. -/
def anyOf (pattern : Pattern) (patterns : List Pattern) : Pattern :=
  patterns.foldl either pattern

/-- Whether a pattern matches the empty text between two characters. -/
def isSatisfied (before after : Option Char) : Pattern → Bool
  | empty => true
  | char _ => false
  | edge kind => kind.lies before after
  | seq first second => first.isSatisfied before after && second.isSatisfied before after
  | either left right => left.isSatisfied before after || right.isSatisfied before after
  | repeated pattern least _ => least = 0 || pattern.isSatisfied before after

/-- The patterns of which one must match the rest of a text after a character. A repetition of a
pattern that is satisfied without the character has as many rounds behind it as it needs. -/
def rest (before : Option Char) (c : Char) : Pattern → List Pattern
  | empty => []
  | char set => if set.contains c then [empty] else []
  | edge _ => []
  | seq first second =>
    let after := (first.rest before c).map (·.andThen second)
    if first.isSatisfied before (some c) then after ++ second.rest before c else after
  | either left right => left.rest before c ++ right.rest before c
  | repeated pattern least most =>
    if most = some 0 then []
    else
      let least := if pattern.isSatisfied before (some c) then 0 else least - 1
      let others := repeated pattern least (most.map (· - 1))
      (pattern.rest before c).map (·.andThen others)

/-- Whether a match of one of some patterns, or of a pattern that may begin anywhere, ends in a
text. The character before the text is given. -/
def endsIn (pattern : Pattern) (before : Option Char) (begun : List Pattern) :
    List Char → Bool
  | [] => (pattern :: begun).any (isSatisfied before none)
  | c :: cs =>
    let all := pattern :: begun
    all.any (isSatisfied before (some c))
      || endsIn pattern (some c) (all.flatMap (rest before c)).eraseDups cs

/-- Whether a text holds a match of a pattern. -/
def matchesIn (pattern : Pattern) (text : String) : Bool :=
  pattern.endsIn none [] text.toList

end Pattern

end Excision
