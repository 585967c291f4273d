/-!
# Faults of written patterns

Why a text is no pattern, and how that is told: the text on a line of its own, carets under the
places in question on the next line, and the cause below. A place is given by how many
characters are left at its start and at its end; an empty place still has one caret.
-/

set_option autoImplicit false

namespace Excision.Pattern

/-- What is wrong with a text that is no pattern. -/
inductive Cause where
  | repetitionMissing
  | repetitionUnclosed
  | repetitionEmpty
  | repetitionReversed
  | numberTooLarge
  | groupUnclosed
  | groupUnopened
  | nameEmpty
  | nameInvalid
  | nameUnclosed
  | nameRepeated
  | flagDangling
  | flagRepeated
  | negationRepeated
  | flagUnclosed
  | flagUnknown
  | escapeUnclosed
  | escapeUnknown
  | pointEmpty
  | pointInvalid
  | pointDigit
  | classUnclosed
  | classEscape
  | classReversed
  | classBoundary
  | propertyInvalid
  | propertyUnknown
  | backreference
  | lookAround
deriving DecidableEq, Repr

/-- How a cause is told. -/
def Cause.message : Cause → String
  | repetitionMissing => "repetition operator missing expression"
  | repetitionUnclosed => "unclosed counted repetition"
  | repetitionEmpty => "repetition quantifier expects a valid decimal"
  | repetitionReversed => "invalid repetition count range, the start must be <= the end"
  | numberTooLarge => "decimal literal invalid"
  | groupUnclosed => "unclosed group"
  | groupUnopened => "unopened group"
  | nameEmpty => "empty capture group name"
  | nameInvalid => "invalid capture group character"
  | nameUnclosed => "unclosed capture group name"
  | nameRepeated => "duplicate capture group name"
  | flagDangling => "dangling flag negation operator"
  | flagRepeated => "duplicate flag"
  | negationRepeated => "flag negation operator repeated"
  | flagUnclosed => "expected flag but got end of regex"
  | flagUnknown => "unrecognized flag"
  | escapeUnclosed => "incomplete escape sequence, reached end of pattern prematurely"
  | escapeUnknown => "unrecognized escape sequence"
  | pointEmpty => "hexadecimal literal empty"
  | pointInvalid => "hexadecimal literal is not a Unicode scalar value"
  | pointDigit => "invalid hexadecimal digit"
  | classUnclosed => "unclosed character class"
  | classEscape => "invalid escape sequence found in character class"
  | classReversed => "invalid character class range, the start must be <= the end"
  | classBoundary => "invalid range boundary, must be a literal"
  | propertyInvalid => "invalid Unicode character class"
  | propertyUnknown => "Unicode property not found"
  | backreference => "backreferences are not supported"
  | lookAround => "look-around, including look-ahead and look-behind, is not supported"

/-- A place in a text, by the number of characters left at its start and at its end. -/
structure Span where
  start : Nat
  stop : Nat
deriving DecidableEq, Repr

/-- A cause, and the places in question from left to right. -/
structure Fault where
  cause : Cause
  spans : List Span
deriving DecidableEq, Repr

/-- The place of the character at the start of a text. -/
def Span.ofHead (text : List Char) : Span := ⟨text.length, text.length - 1⟩

/-- The place between the starts of two ends of a text. -/
def Span.between (start stop : List Char) : Span := ⟨start.length, stop.length⟩

/-- A fault at one place. -/
def refuse {α : Type} (cause : Cause) (span : Span) : Except Fault α := .error ⟨cause, [span]⟩

namespace Fault

/-- Carets under places, in a line that already has some columns. -/
def carets (size : Nat) (column : Nat) : List Span → List Char
  | [] => []
  | span :: spans =>
    let start := size - span.start
    let width := max 1 (span.start - span.stop)
    List.replicate (start - column) ' ' ++ List.replicate width '^'
      ++ carets size (max start column + width) spans

/-- How a fault of a text is told. -/
def message (fault : Fault) (text : String) : String :=
  let line := String.ofList (carets text.length 0 fault.spans)
  s!"regex parse error:\n    {text}\n    {line}\nerror: {fault.cause.message}"

end Fault

end Excision.Pattern
