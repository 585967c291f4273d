import Excision.Text.CodePoint
import Excision.Text.Printable

/-!
# Quoted texts

A text as it stands in a message: between double quotes, with the quote and the backslash
escaped, the usual control characters by their letter, and every other character that would
not show by its code point in hexadecimal.
-/

set_option autoImplicit false

namespace Excision.Text

/-- A character as it stands in a quoted text. -/
def quotedChar (c : Char) : List Char :=
  match c with
  | '"' => ['\\', '"']
  | '\\' => ['\\', '\\']
  | '\t' => ['\\', 't']
  | '\r' => ['\\', 'r']
  | '\n' => ['\\', 'n']
  | '\x00' => ['\\', '0']
  | c => if isPrintable c then [c] else ['\\', 'u', '\x7b'] ++ hexDigits c ++ ['\x7d']

/-- A text between quotes, with everything escaped that would not show. -/
def quoted (s : String) : String :=
  String.ofList ('"' :: s.toList.flatMap quotedChar ++ ['"'])

end Excision.Text
