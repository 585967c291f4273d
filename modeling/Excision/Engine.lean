/-!
# Engines of patterns

The condition under which a line declares a method is written as a regular expression, and an
engine that is not part of this program builds the expression. It does not build all of them: the
expression for a very long name takes more room than the engine gives it. Whoever asks an engine
for the pattern of a name is given the pattern, or what the engine says against it.

An engine is a parameter of the searches that use it. `Engine.standard` is the one that the program
runs with. It gives a pattern ten megabytes. How much room a pattern takes is the engine's own
affair and is only estimated here: a state of 32 bytes for every byte of the name, about as many
for the accepted modifiers, and some for the rest. With the modifiers `private` and `public` the
names of at most 327579 bytes have a pattern.
-/

set_option autoImplicit false

namespace Excision

/-- What builds the patterns of declarations. -/
structure Engine where
  /-- What the engine says against the pattern for a name behind one of some modifiers, if it does
  not build it. -/
  refusal? : List String → String → Option String

namespace Engine

/-- The most bytes of a pattern. -/
def sizeLimit : Nat := 10485760

/-- The bytes of a state of a pattern. -/
def stateSize : Nat := 32

/-- The states that the alternatives take: one for each byte of a single modifier, and two where
there are several to choose from. -/
def modifierStates : List String → Nat
  | [modifier] => modifier.utf8ByteSize
  | modifiers => 2 * (String.join modifiers).utf8ByteSize + 1

/-- The bytes of a pattern, as estimated. -/
def patternSize (modifiers : List String) (name : String) : Nat :=
  stateSize * (74 + modifierStates modifiers + name.utf8ByteSize)

/-- What is said against a pattern that is too large. -/
def sizeComplaint : String := s!"Compiled regex exceeds size limit of {sizeLimit} bytes."

/-- The engine that refuses patterns of more than ten megabytes. -/
def standard : Engine where
  refusal? modifiers name :=
    if sizeLimit < patternSize modifiers name then some sizeComplaint else none

end Engine

end Excision
