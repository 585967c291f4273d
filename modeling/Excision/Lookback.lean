/-!
# Lookback strategies

Above the declaration of a method may stand its doc comment. A lookback strategy says how
the lines above a declaration are walked to find where that comment opens. This module holds
the two strategies, their names and their usual depths; the walks themselves are in
`Excision.Lookback.Walk`.
-/

set_option autoImplicit false

namespace Excision

/-- How the lines above a declaration are walked. -/
inductive Lookback where
  /-- A few lines up, to the furthest opener in reach. -/
  | bounded
  /-- Up to the nearest opener. -/
  | docBlock
deriving DecidableEq, Repr

namespace Lookback

/-- The name under which a strategy is written and shown. -/
def name : Lookback → String
  | .bounded => "bounded"
  | .docBlock => "doc-block"

/-- The number of lines above a declaration that are inspected unless told otherwise. -/
def defaultDepth : Lookback → Nat
  | .bounded => 3
  | .docBlock => 20

/-- The lower-case form of a character, as far as it can matter for the name of a strategy:
the Kelvin sign is the only character outside ASCII whose lower-case form is an ASCII letter. -/
def lower (c : Char) : Char := if c.toNat = 0x212A then 'k' else c.toLower

/-- The strategy that a word names, without regard to case. -/
def ofWord? (word : String) : Option Lookback :=
  let lowered := String.ofList (word.toList.map lower)
  if lowered = "bounded" then some .bounded
  else if lowered = "doc-block" ∨ lowered = "docblock" ∨ lowered = "doc_block" then some .docBlock
  else none

/-- The complaint about a word that names no strategy. -/
def unknownWord (word : String) : String :=
  s!"Invalid lookback strategy: {word}. Use: bounded, doc-block"

theorem ofWord?_name (strategy : Lookback) : ofWord? strategy.name = some strategy := by
  cases strategy <;> decide

end Lookback

end Excision
