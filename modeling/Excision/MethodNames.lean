import Excision.Settings
import Excision.Text.Lines

/-!
# Lists of method names

Names are taken without the blank characters around them. A name must not be empty and must
hold no blank character. Of a name that is given several times the first occurrence counts.

A methods file has one name a line. A number sign starts a comment, and lines without a name
are left out.
-/

set_option autoImplicit false

namespace Excision.MethodNames

/-- Whether a trimmed text can be the name of a method. -/
def isName (text : String) : Bool := text ≠ "" && !text.toList.any Text.isBlank

/-- The given names, trimmed and each once, in the order of their first occurrences; or the
first of them that is no name. -/
def ofList (names : List String) : Except RequestFault (List String) :=
  let names := names.map Text.trimmed
  match names.find? (!isName ·) with
  | some name => .error (.badMethodName name)
  | none => .ok names.eraseDups

/-- The name on a line of a methods file, or an empty text. -/
def ofLine (line : List Char) : List Char := Text.trim (line.takeWhile (· ≠ '#'))

/-- The names in a methods file, in order and with repetitions. -/
def ofFile (text : String) : List String :=
  (((Text.splitLines text.toList).map ofLine).filter (· ≠ [])).map String.ofList

end Excision.MethodNames
