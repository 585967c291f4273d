import Excision.Decimal.Binary

/-!
# The shortest decimal that reads back

A double is written with the fewest decimal digits that read back as the same double, and
among those with the ones nearest to its exact value. A decimal reads back if it lies between
the midpoints to the two neighbours; a midpoint itself reads back if the significand is even.

For one digit, two digits and so on, only the two neighbours of the exact value on the decimal
grid are candidates: if any point of a grid lies in an interval around the value, one of these
two does.
-/

set_option autoImplicit false

namespace Excision.Decimal

/-- The decimal `digits * 10 ^ exponent`. -/
structure Digits where
  digits : Nat
  exponent : Int
deriving DecidableEq, Repr

/-- How many decimal digits a number has; one for zero. -/
def digitCount (n : Nat) : Nat := (Nat.toDigits 10 n).length

/-- The exponent of the leading decimal digit of `numerator / denominator`. -/
def leadingExponent (numerator denominator : Nat) : Int :=
  if denominator ≤ numerator then digitCount (numerator / denominator) - 1
  else -(digitCount ((denominator + numerator - 1) / numerator - 1) : Int)

/-- The numbers that read back as a double: a value and the ends of the interval around it, all
three over one denominator, and whether the ends belong to the interval. -/
structure Neighbourhood where
  value : Nat
  low : Nat
  high : Nat
  denominator : Nat
  closed : Bool
deriving DecidableEq, Repr

/-- The neighbourhood of a magnitude. Below the smallest significand of a binade the next double
is only half as far away as above it. -/
def Binary.neighbourhood (b : Binary) : Neighbourhood :=
  let quarter : Binary := ⟨1, b.exponent - 2⟩
  let unit := quarter.numerator
  let value := 4 * b.significand * unit
  let below :=
    if b.significand = hiddenBit ∧ lowestExponent < b.exponent then unit else 2 * unit
  ⟨value, value - below, value + 2 * unit, quarter.denominator, b.significand % 2 = 0⟩

namespace Neighbourhood

/-- A decimal and the denominator of a neighbourhood brought to integers: the decimal times the
denominator, and the factor that the other numerators get. -/
def scale (n : Neighbourhood) (d : Digits) : Nat × Nat :=
  (d.digits * Nat.pow 10 d.exponent.toNat * n.denominator, Nat.pow 10 (-d.exponent).toNat)

/-- Whether a decimal reads back as the double of a neighbourhood. -/
def contains (n : Neighbourhood) (d : Digits) : Bool :=
  let (point, factor) := n.scale d
  if n.closed then n.low * factor ≤ point && point ≤ n.high * factor
  else n.low * factor < point && point < n.high * factor

/-- How far a decimal is from the value, over a denominator that depends on its exponent only. -/
def distance (n : Neighbourhood) (d : Digits) : Nat :=
  let (point, factor) := n.scale d
  (point - n.value * factor) + (n.value * factor - point)

/-- The decimal of the grid `10 ^ exponent` at or below the value. -/
def floorAt (n : Neighbourhood) (exponent : Int) : Digits :=
  ⟨n.value * Nat.pow 10 (-exponent).toNat / (n.denominator * Nat.pow 10 exponent.toNat), exponent⟩

/-- The decimal of a grid that reads back and is nearest to the value, if any reads back. Of two
that are equally near, the even one is taken. -/
def nearestAt (n : Neighbourhood) (exponent : Int) : Option Digits :=
  let lower := n.floorAt exponent
  let upper : Digits := ⟨lower.digits + 1, exponent⟩
  match n.contains lower, n.contains upper with
  | true, true =>
    if n.distance lower < n.distance upper then some lower
    else if n.distance upper < n.distance lower then some upper
    else if lower.digits % 2 = 0 then some lower
    else some upper
  | true, false => some lower
  | false, true => some upper
  | false, false => none

end Neighbourhood

/-- Seventeen digits are enough for every double. -/
def maxDigits : Nat := 17

/-- A decimal without the zeros at its end. At most `count` zeros are taken. -/
def stripZeros : Nat → Digits → Digits
  | 0, d => d
  | count + 1, d =>
    if d.digits % 10 = 0 ∧ d.digits ≠ 0 then stripZeros count ⟨d.digits / 10, d.exponent + 1⟩
    else d

/-- The shortest decimal that reads back as a magnitude. -/
def shortest (b : Binary) : Digits :=
  if b.significand = 0 then ⟨0, 0⟩
  else
    let n := b.neighbourhood
    let leading := leadingExponent n.value n.denominator
    let grids := (List.range maxDigits).map fun (count : Nat) => leading - (count : Int)
    let found := (grids.findSome? n.nearestAt).getD (n.floorAt (leading - maxDigits))
    stripZeros maxDigits found

end Excision.Decimal
