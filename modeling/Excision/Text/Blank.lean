/-!
# Blank characters and trimming

Blank means the Unicode property White_Space: twenty-five characters, among them the
terminators of a line, the no-break space and the spaces of various widths. The zero-width
space is not one of them. Every other module takes its notion of white space from here:
the declaration grammar, the doc comment walks, trailing blank lines and method names.

`trim` removes blank characters at both ends. It is stated on character lists, and
`trimmed` is the same on strings.
-/

set_option autoImplicit false

namespace Excision.Text

/-- Membership in the Unicode property White_Space. -/
def isBlank (c : Char) : Bool :=
  let n := c.toNat
  (9 ≤ n && n ≤ 13) || n == 0x20 || n == 0x85 || n == 0xA0 || n == 0x1680
    || (0x2000 ≤ n && n ≤ 0x200A) || n == 0x2028 || n == 0x2029 || n == 0x202F
    || n == 0x205F || n == 0x3000

/-- A text without its leading blank characters. -/
def trimStart (cs : List Char) : List Char := cs.dropWhile isBlank

/-- A text without its trailing blank characters. -/
def trimEnd (cs : List Char) : List Char := (cs.reverse.dropWhile isBlank).reverse

/-- A text without the blank characters at both of its ends. -/
def trim (cs : List Char) : List Char := trimEnd (trimStart cs)

/-- A string without the blank characters at both of its ends. -/
def trimmed (s : String) : String := String.ofList (trim s.toList)

/-- Whether a string holds blank characters only. -/
def isBlankText (s : String) : Bool := s.toList.all isBlank

theorem toList_trimmed (s : String) : (trimmed s).toList = trim s.toList :=
  String.toList_ofList

/-- The characters that core counts as white space are blank. -/
theorem isBlank_of_isWhitespace {c : Char} (h : c.isWhitespace = true) : isBlank c = true := by
  simp only [Char.isWhitespace, Bool.or_eq_true, decide_eq_true_eq] at h
  rcases h with ((h | h) | h) | h <;> subst h <;> decide

end Excision.Text
