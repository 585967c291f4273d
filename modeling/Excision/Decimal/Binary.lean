/-!
# Doubles as exact numbers

A finite double is a sign and a magnitude `significand * 2 ^ exponent`. Texts of doubles are
made from this exact magnitude in integer arithmetic, and never from rounded intermediate
results.
-/

set_option autoImplicit false

namespace Excision.Decimal

/-- The magnitude `significand * 2 ^ exponent`. -/
structure Binary where
  significand : Nat
  exponent : Int
deriving DecidableEq, Repr

/-- What a double is, its sign aside. -/
inductive Magnitude where
  | notANumber
  | infinite
  | finite (value : Binary)
deriving DecidableEq, Repr

/-- The significand of the smallest double of a binade. -/
def hiddenBit : Nat := Nat.pow 2 52

/-- The exponent of the subnormal doubles. -/
def lowestExponent : Int := -1074

/-- Whether the sign of a double is minus. -/
def isNegative (x : Float) : Bool := Nat.pow 2 63 ≤ x.toBits.toNat

/-- A double without its sign. -/
def magnitude (x : Float) : Magnitude :=
  let bits := x.toBits.toNat
  let biased : Nat := bits / Nat.pow 2 52 % Nat.pow 2 11
  let fraction : Nat := bits % Nat.pow 2 52
  if biased = 2047 then if fraction = 0 then .infinite else .notANumber
  else if biased = 0 then .finite ⟨fraction, lowestExponent⟩
  else .finite ⟨fraction + hiddenBit, lowestExponent + ((biased : Int) - 1)⟩

namespace Binary

/-- The numerator of a magnitude, over `denominator`. -/
def numerator (b : Binary) : Nat := b.significand * Nat.pow 2 b.exponent.toNat

/-- The denominator of a magnitude, a power of two. -/
def denominator (b : Binary) : Nat := Nat.pow 2 (-b.exponent).toNat

end Binary

end Excision.Decimal
