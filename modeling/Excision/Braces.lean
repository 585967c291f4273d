/-!
# Brace balance

The body of a method ends where its braces balance: at the first closing brace that leaves as
many closing as opening braces behind it, at least one of them opening. Counting starts with
the text of the declaration line. Every brace character counts, whatever it stands in.
-/

set_option autoImplicit false

namespace Excision

/-- The braces read so far: how many more opened than closed, and whether any opened. -/
structure Braces where
  balance : Int
  opened : Bool
deriving DecidableEq, Repr

namespace Braces

/-- Before any character is read. -/
def unread : Braces := ⟨0, false⟩

/-- The braces after one more character, or nothing if that character closes the body. -/
def read (b : Braces) (c : Char) : Option Braces :=
  if c = '\x7b' then some ⟨b.balance + 1, true⟩
  else if c = '\x7d' then
    if b.opened ∧ b.balance = 1 then none else some ⟨b.balance - 1, b.opened⟩
  else some b

/-- The braces after a text, or nothing if the body closes within it. -/
def readAll (b : Braces) : List Char → Option Braces
  | [] => some b
  | c :: cs =>
    match b.read c with
    | some b => b.readAll cs
    | none => none

/-- The position of the line within which the body closes, if there is one. -/
def closingLine (b : Braces) : List String → Option Nat
  | [] => none
  | line :: lines =>
    match b.readAll line.toList with
    | none => some 0
    | some b => (b.closingLine lines).map (· + 1)

end Braces

/-- The line that holds the closing brace of a body, for a declaration on the given line. -/
def bodyEnd (lines : List String) (declaration : Nat) : Option Nat :=
  (Braces.unread.closingLine (lines.drop declaration)).map (declaration + ·)

end Excision
