import Excision.Decimal.Shortest

/-!
# Laying out decimals

Three ways to write a double.

* `dataText`, for data files: the shortest decimal; positional while the point stands at most
  sixteen digits after and five before the first digit, and with an exponent beyond.
* `plainText`, for messages: the shortest decimal, positional however many zeros that takes.
* `onePlaceText`, for people: one digit after the point, a half going to the even neighbour.

The first two keep a zero after the point of a whole number.
-/

set_option autoImplicit false

namespace Excision.Decimal

/-- The decimal digits of a number. -/
def digitText (n : Nat) : List Char := Nat.toDigits 10 n

/-- Digits with the point after the first `point` of them, zeros filled in on either side. -/
def positional (digits : List Char) (point : Int) : List Char :=
  if point ≤ 0 then '0' :: '.' :: List.replicate (-point).toNat '0' ++ digits
  else
    let whole := point.toNat
    if digits.length ≤ whole then
      digits ++ List.replicate (whole - digits.length) '0' ++ ['.', '0']
    else digits.take whole ++ '.' :: digits.drop whole

/-- Digits with an exponent that has a sign, the point after the first of them. -/
def scientific (digits : List Char) (point : Int) : List Char :=
  let mantissa :=
    match digits with
    | [] => []
    | [digit] => [digit]
    | digit :: digits => digit :: '.' :: digits
  let sign := if point < 1 then '-' else '+'
  mantissa ++ 'e' :: sign :: Nat.toDigits 10 (point - 1).natAbs

/-- The text of a double, given the texts of its magnitude and of an infinite one. -/
def withSign (x : Float) (infinite : String) (finite : Binary → List Char) : String :=
  match magnitude x with
  | .notANumber => "NaN"
  | .infinite => if isNegative x then "-" ++ infinite else infinite
  | .finite value =>
    String.ofList (if isNegative x then '-' :: finite value else finite value)

/-- The number of digits before the point in the shortest decimal of a magnitude. -/
def pointOf (d : Digits) : Int := (digitText d.digits).length + d.exponent

/-- A double as it stands in a message. -/
def plainText (x : Float) : String :=
  withSign x "inf" fun value =>
    let d := shortest value
    if d.digits = 0 then ['0', '.', '0'] else positional (digitText d.digits) (pointOf d)

/-- A double as it stands in a data file, where there is no number to stand for what is not
finite. -/
def dataText (x : Float) : String :=
  match magnitude x with
  | .finite _ =>
    withSign x "" fun value =>
      let d := shortest value
      let digits := digitText d.digits
      let point := pointOf d
      if d.digits = 0 then ['0', '.', '0']
      else if -5 < point ∧ point ≤ 16 then positional digits point
      else scientific digits point
  | _ => "null"

/-- The quotient of two numbers rounded to a whole number, a half going to the even one. -/
def roundToEven (numerator denominator : Nat) : Nat :=
  let quotient := numerator / denominator
  let twice := 2 * (numerator % denominator)
  if twice < denominator then quotient
  else if denominator < twice then quotient + 1
  else quotient + quotient % 2

/-- A double with one digit after the point. -/
def onePlaceText (x : Float) : String :=
  withSign x "inf" fun value =>
    let tenths := roundToEven (10 * value.numerator) value.denominator
    digitText (tenths / 10) ++ '.' :: digitText (tenths % 10)

end Excision.Decimal
