import Excision.Decimal.Binary

/-!
# The double nearest to a fraction

A fraction is read as the double nearest to it, and one that lies halfway between two doubles as
the one with the even significand. All arithmetic is on integers: both parts of the fraction
are counted in the smallest double, and the quotient is rounded once.

The code of a double counts the doubles from zero up to it. Up to twice `hiddenBit` the code is
the number of smallest doubles in it, and every later binade has `hiddenBit` codes. So a
quotient that is rounded up to a power of two needs no care: it has the code of the first double
of the next binade. `roundDiv_mul` says that a quotient without a remainder is not changed.
-/

set_option autoImplicit false

namespace Excision.Decimal

/-- A quotient rounded to the nearest number; one halfway between two is rounded to the even
one. -/
def roundDiv (numerator denominator : Nat) : Nat :=
  let below := numerator / denominator
  let twice := 2 * (numerator % denominator)
  if twice < denominator then below
  else if denominator < twice then below + 1
  else below + below % 2

/-- A quotient without a remainder stays what it is. -/
theorem roundDiv_mul (quotient denominator : Nat) (h : 0 < denominator) :
    roundDiv (quotient * denominator) denominator = quotient := by
  simp [roundDiv, Nat.mul_div_cancel _ h, h]

/-- The binade of a quotient of at least one: how often it must be halved to be less than twice
`hiddenBit`. The quotient of two numbers has as many bits as theirs differ by, or one more. -/
def binadeOf (numerator denominator : Nat) : Nat :=
  let most := numerator.log2 - (denominator.log2 + 52)
  if numerator < denominator * hiddenBit * Nat.pow 2 most then most - 1 else most

/-- The code of the infinite double. -/
def infiniteCode : Nat := 2047 * hiddenBit

/-- The code of the double nearest to `numerator / denominator`. -/
def nearestCode (numerator denominator : Nat) : Nat :=
  let scaled := numerator * Nat.pow 2 (-lowestExponent).toNat
  let binade := binadeOf scaled denominator
  min infiniteCode (binade * hiddenBit + roundDiv scaled (denominator * Nat.pow 2 binade))

/-- The double nearest to `numerator / denominator`, infinite if that is beyond all doubles. -/
def nearest (numerator denominator : Nat) : Float :=
  Float.ofBits (UInt64.ofNat (nearestCode numerator denominator))

end Excision.Decimal
