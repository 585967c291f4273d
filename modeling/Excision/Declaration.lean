import Excision.Text.Blank

/-!
# Declarations of methods

A line declares a method if it is, up to the opening parenthesis of the parameters,

    blanks modifier blanks name blanks (

where the blanks between modifier and name are not empty, and the modifier is one of an
accepted list, taken literally. With no accepted modifier at all the modifier is empty.

`Declaration.declares` decides this for any line, modifiers and name, also for those that hold
blank characters themselves. `Declaration.pattern` writes the same condition as a regular
expression, with every character of a modifier or name that has a meaning there escaped.
-/

set_option autoImplicit false

namespace Excision.Declaration

/-- The rest of a text after a given beginning. -/
def after? : List Char → List Char → Option (List Char)
  | [], text => some text
  | _ :: _, [] => none
  | c :: word, d :: text => if c = d then after? word text else none

/-- The rests of a text after zero or more of its leading blank characters. -/
def afterBlanks : List Char → List (List Char)
  | [] => [[]]
  | c :: cs => (c :: cs) :: if Text.isBlank c then afterBlanks cs else []

/-- The rests of a text after one or more leading blank characters. -/
def afterSomeBlanks : List Char → List (List Char)
  | [] => []
  | c :: cs => if Text.isBlank c then afterBlanks cs else []

/-- Whether a text continues with an opening parenthesis after leading blank characters. -/
def opensParameters (text : List Char) : Bool := (Text.trimStart text).head? == some '('

/-- The texts that may stand in the place of the modifier. -/
def alternatives (modifiers : List String) : List (List Char) :=
  if modifiers.isEmpty then [[]] else modifiers.map String.toList

/-- Whether a text, from the modifier on, declares a name with one of the given modifiers. -/
def declaresFrom (modifiers : List (List Char)) (name text : List Char) : Bool :=
  modifiers.any fun modifier =>
    (after? modifier text).any fun spaced =>
      (afterSomeBlanks spaced).any fun named =>
        (after? name named).any opensParameters

/-- Whether a line declares the method `name`. -/
def declares (modifiers : List String) (name line : String) : Bool :=
  (afterBlanks line.toList).any (declaresFrom (alternatives modifiers) name.toList)

/-- Whether a character has a meaning of its own in a regular expression. -/
def isMeta (c : Char) : Bool :=
  c ∈ ['\\', '.', '+', '*', '?', '(', ')', '|', '[', ']', '\x7b', '\x7d', '^', '$', '#', '&', '-',
    '~']

/-- A text as a regular expression that matches it literally. -/
def escape : List Char → List Char
  | [] => []
  | c :: cs => if isMeta c then '\\' :: c :: escape cs else c :: escape cs

/-- Texts with a bar between neighbours. -/
def joinAlternatives : List (List Char) → List Char
  | [] => []
  | [text] => text
  | text :: texts => text ++ '|' :: joinAlternatives texts

/-- The declaration condition as a regular expression. -/
def pattern (modifiers : List String) (name : String) : String :=
  String.ofList <| "^\\s*(?:".toList
    ++ joinAlternatives (modifiers.map fun modifier => escape modifier.toList)
    ++ ")\\s+".toList ++ escape name.toList ++ "\\s*\\(".toList

end Excision.Declaration
