import Excision.Text.CodePoint
import Excision.Toml.Syntax
import Excision.Toml.Value

/-!
# The texts of TOML strings

A string is written between marks; this module says which text it means. Literal strings mean
themselves. In basic strings a backslash starts an escape: a letter for a usual control
character, or a code point in two, four or eight hexadecimal digits. In a multi-line string the
newline directly after the opening marks does not count, and a backslash at the end of a line
takes away everything up to the next character that is not blank.

No string may hold a control character other than a tab, except that newlines stand in
multi-line strings.
-/

set_option autoImplicit false

namespace Excision.Toml

/-- The character that a letter means after a backslash. -/
def escapeOf? : Char → Option Char
  | 'b' => some '\x08'
  | 't' => some '\t'
  | 'n' => some '\n'
  | 'f' => some '\x0c'
  | 'r' => some '\r'
  | 'e' => some '\x1b'
  | '"' => some '"'
  | '\\' => some '\\'
  | _ => none

/-- How many hexadecimal digits follow a letter after a backslash. -/
def escapeDigits? : Char → Option Nat
  | 'x' => some 2
  | 'u' => some 4
  | 'U' => some 8
  | _ => none

/-- What is being read in a basic string. -/
inductive Unquoting where
  | plain
  /-- Directly after a backslash. -/
  | escape
  /-- In a code point, with some digits to come and the value of those before. -/
  | point (digits : Nat) (value : Nat)
  /-- After a backslash and blanks, before the newline that must come. -/
  | lineEnd
  /-- After a backslash at the end of a line, before the next character that is not blank. -/
  | skipping
  /-- After a carriage return, before the newline that must come; whether it is skipped. -/
  | carriage (skipped : Bool)
deriving DecidableEq, Repr

namespace Unquoting

/-- A character of a basic string that is not part of an escape. -/
def stepPlain (multiline : Bool) (text : List Char) (c : Char) :
    Except Fault (Unquoting × List Char) :=
  if c = '\\' then .ok (.escape, text)
  else if c = '\n' ∧ multiline then .ok (.plain, c :: text)
  else if c = '\r' ∧ multiline then .ok (.carriage false, c :: text)
  else if isTextChar c then .ok (.plain, c :: text)
  else .error .malformed

/-- The state, and the text so far with its last character first, after one more character. -/
def step (multiline : Bool) (mode : Unquoting) (text : List Char) (c : Char) :
    Except Fault (Unquoting × List Char) :=
  match mode with
  | .plain => stepPlain multiline text c
  | .escape =>
    match escapeOf? c, escapeDigits? c with
    | some meant, _ => .ok (.plain, meant :: text)
    | none, some digits => .ok (.point digits 0, text)
    | none, none =>
      if multiline ∧ (c = ' ' ∨ c = '\t') then .ok (.lineEnd, text)
      else if multiline ∧ c = '\n' then .ok (.skipping, text)
      else if multiline ∧ c = '\r' then .ok (.carriage true, text)
      else .error .malformed
  | .point digits value =>
    match Text.hexValue? c with
    | none => .error .malformed
    | some digit =>
      let value := 16 * value + digit
      if 1 < digits then .ok (.point (digits - 1) value, text)
      else
        match Text.charOfPoint? value with
        | some meant => .ok (.plain, meant :: text)
        | none => .error .badCodePoint
  | .lineEnd =>
    if c = ' ' ∨ c = '\t' then .ok (.lineEnd, text)
    else if c = '\n' then .ok (.skipping, text)
    else if c = '\r' then .ok (.carriage true, text)
    else .error .malformed
  | .skipping =>
    if c = ' ' ∨ c = '\t' ∨ c = '\n' then .ok (.skipping, text)
    else if c = '\r' then .ok (.carriage true, text)
    else stepPlain multiline text c
  | .carriage skipped =>
    if c = '\n' then .ok (if skipped then (.skipping, text) else (.plain, c :: text))
    else .error .malformed

/-- Reads the rest of a basic string after the text so far, which has its last character
first. -/
def read (multiline : Bool) : Unquoting → List Char → List Char → Except Fault (List Char)
  | .plain, text, [] => .ok text.reverse
  | .skipping, text, [] => .ok text.reverse
  | _, _, [] => .error .malformed
  | mode, text, c :: cs =>
    match mode.step multiline text c with
    | .ok (mode, text) => read multiline mode text cs
    | .error fault => .error fault

end Unquoting

/-- A body without the newline directly at its start. -/
def withoutFirstNewline : List Char → List Char
  | '\n' :: cs => cs
  | '\r' :: '\n' :: cs => cs
  | cs => cs

/-- Whether a character may stand in a literal string, given the character after it. -/
def isLiteralChar (multiline : Bool) (c : Char) (next : Option Char) : Bool :=
  isTextChar c || (multiline && (c = '\n' || (c = '\r' && next = some '\n')))

/-- Whether all characters may stand in a literal string. -/
def isLiteralBody (multiline : Bool) : List Char → Bool
  | [] => true
  | c :: cs => isLiteralChar multiline c cs.head? && isLiteralBody multiline cs

/-- The text that a string means. -/
def unquote (quotation : Quotation) (body : List Char) : Except Fault (List Char) :=
  let multiline := quotation.isMultiline
  let body := if multiline then withoutFirstNewline body else body
  if quotation.escapes then Unquoting.read multiline .plain [] body
  else if isLiteralBody multiline body then .ok body
  else .error .malformed

/-- Whether a character may stand in a key without quotes. -/
def isKeyChar (c : Char) : Bool := c.isAlphanum || c = '_' || c = '-'

/-- Whether a word is a key: at least one character, and only such as may stand in a key. -/
def isKeyWord (text : List Char) : Bool := !text.isEmpty && text.all isKeyChar

/-- The text of one part of a key. Strings that may spread over lines are no keys. -/
def keyPart (raw : Raw) : Except Fault String :=
  match raw with
  | .quoted quotation body =>
    if quotation.isMultiline then .error .malformed
    else do return String.ofList (← unquote quotation body)
  | .unclosed => .error .malformed
  | .word text => if isKeyWord text then .ok (String.ofList text) else .error .malformed

end Excision.Toml
