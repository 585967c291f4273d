/-!
# Code points in hexadecimal

The digits in which a code point is written, and what such digits mean. Not every number is the
code point of a character: those of surrogates and those beyond the last plane are none.
-/

set_option autoImplicit false

namespace Excision.Text

/-- The code point of a character in lower-case hexadecimal digits. -/
def hexDigits (c : Char) : List Char := Nat.toDigits 16 c.toNat

/-- The value of a hexadecimal digit. -/
def hexValue? (c : Char) : Option Nat :=
  if c.isDigit then some (c.toNat - '0'.toNat)
  else if 'a' ≤ c ∧ c ≤ 'f' then some (c.toNat - 'a'.toNat + 10)
  else if 'A' ≤ c ∧ c ≤ 'F' then some (c.toNat - 'A'.toNat + 10)
  else none

/-- The character of a code point, if there is one. -/
def charOfPoint? (point : Nat) : Option Char :=
  if h : point.isValidChar then some (Char.ofNatAux point h) else none

/-- The code point of a character leads back to it. -/
theorem charOfPoint?_toNat (c : Char) : charOfPoint? c.toNat = some c := by
  have h : c.toNat.isValidChar := c.valid
  rw [charOfPoint?, dif_pos h]
  exact congrArg some (Char.ext (UInt32.toNat_inj.1 rfl))

end Excision.Text
