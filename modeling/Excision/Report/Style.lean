/-!
# Styled words

A few words of a report stand out on a terminal. A style is switched on by an escape sequence
and off by the reset sequence. A reset inside the text switches the style on again, so that it
holds to the end.
-/

set_option autoImplicit false

namespace Excision

/-- The ways in which a word stands out. -/
inductive Style where
  | green
  | bold
  | boldYellow
  | boldRed
deriving DecidableEq, Repr

namespace Style

/-- The sequence that switches a style on. -/
def opening : Style → List Char
  | green => "\x1b[32m".toList
  | bold => "\x1b[1m".toList
  | boldYellow => "\x1b[1;33m".toList
  | boldRed => "\x1b[1;31m".toList

/-- The sequence that switches every style off. -/
def reset : List Char := "\x1b[0m".toList

/-- A text with the style switched on again after each reset in it. -/
def reopen (style : Style) : List Char → List Char
  | '\x1b' :: '[' :: '0' :: 'm' :: cs => reset ++ style.opening ++ style.reopen cs
  | c :: cs => c :: style.reopen cs
  | [] => []

/-- A text in a style, if styles are shown at all. -/
def paint (style : Style) (colored : Bool) (text : String) : String :=
  if colored then String.ofList (style.opening ++ style.reopen text.toList ++ reset) else text

end Style

end Excision
