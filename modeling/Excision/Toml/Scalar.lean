import Excision.Decimal.Nearest
import Excision.Text.Pieces
import Excision.Toml.Unquote

/-!
# Words as TOML values

A value without quotes is a boolean, a number, or a date, a time or both. What comes after its
first digits says which of them it claims to be.

* A word that goes on with a hyphen or a colon must be a date or a time. Dates are checked
  against the calendar. Seconds may be left out of a time.
* Otherwise a word with a point or an exponent must be a float, and has to have the shape of
  one. A float that is too large for a double is one without a value.
* Otherwise a word of digits alone, or one that goes on with an underscore, is an integer. Its
  text is looked at only around the underscores: each must stand between hexadecimal digits,
  whatever the base is. An integer of which more than that is wrong is one without a value.
* A zero and a letter for a base start an integer whose digits are checked at once. It may have
  none, and then has no value either.

Decimal numbers may have a sign and have no leading zero. Only exponents and fractions may start
with one.
-/

set_option autoImplicit false

namespace Excision.Toml

/-! ## Digits -/

/-- The number that digits mean in a base. -/
def numberOf (base : Nat) (digits : List Char) : Nat :=
  digits.foldl (fun n c => base * n + (Text.hexValue? c).getD 0) 0

/-- Whether a character is a digit of a base of at most sixteen. -/
def isDigitOf (base : Nat) (c : Char) : Bool := (Text.hexValue? c).any (· < base)

/-- A sign taken off a text: whether it is a minus, and the rest. -/
def sign : List Char → Bool × List Char
  | '-' :: cs => (true, cs)
  | '+' :: cs => (false, cs)
  | cs => (false, cs)

/-- The number that a text means, if it is a sign or none and then digits of a base. -/
def signedNumber? (base : Nat) (text : List Char) : Option Int :=
  let (negative, digits) := sign text
  if digits.isEmpty || !digits.all (isDigitOf base) then none
  else if negative then some (-(numberOf base digits : Int))
  else some (numberOf base digits : Int)

/-! ## Underscores -/

/-- The character that may stand between two digits of a number. -/
def separator : Char := '_'

/-- A number without its underscores. -/
def withoutSeparators (text : List Char) : List Char := text.filter (· ≠ separator)

/-- Whether a piece of a number may stand before an underscore: it ends with a digit or is a
single character. A single character may be a sign; behind another underscore it is a digit, by
`mayFollow`. -/
def mayPrecede (isDigit : Char → Bool) (piece : List Char) : Bool :=
  piece.length = 1 || piece.getLast?.any isDigit

/-- Whether a piece of a number may stand after an underscore. -/
def mayFollow (isDigit : Char → Bool) (piece : List Char) : Bool := piece.head?.any isDigit

/-- Whether all underscores of a number stand between digits. -/
def separatesDigits (isDigit : Char → Bool) (text : List Char) : Bool :=
  let pieces := Text.cutAt separator [] text
  pieces.dropLast.all (mayPrecede isDigit) && pieces.tail.all (mayFollow isDigit)

/-! ## Integers -/

/-- The base that a letter after a zero means. -/
def baseOf? : Char → Option Nat
  | 'x' => some 16
  | 'o' => some 8
  | 'b' => some 2
  | _ => none

/-- The integer of a base that digits mean. -/
def basedValue (base : Nat) (digits : List Char) : Except Fault Value :=
  if digits.all (fun c => c = separator || isDigitOf base c)
      && separatesDigits (isDigitOf 16) digits then
    .ok (.integer (signedNumber? base (withoutSeparators digits)))
  else .error .malformed

/-- Whether a number without its sign has a zero in front of something else. -/
def hasLeadingZero : List Char → Bool
  | '0' :: _ :: _ => true
  | _ => false

/-- The decimal integer that a text means. -/
def integerValue (text : List Char) : Except Fault Value :=
  if hasLeadingZero (sign text).2 then .error .malformed
  else if separatesDigits (isDigitOf 16) text then
    .ok (.integer (signedNumber? 10 (withoutSeparators text)))
  else .error .malformed

/-! ## Floats -/

/-- No finite double reaches ten to this power, and the reciprocal of twice that many powers is
zero. -/
def decimalRange : Nat := 400

/-- The double nearest to `digits * 10 ^ exponent`. -/
def floatOf (digits : List Char) (exponent : Int) : Float :=
  let number := numberOf 10 digits
  if number = 0 then 0
  else if (decimalRange : Int) < exponent then 1 / 0
  else if exponent < -((decimalRange + digits.length : Nat) : Int) then 0
  else Decimal.nearest (number * Nat.pow 10 exponent.toNat) (Nat.pow 10 (-exponent).toNat)

/-- Whether a character starts an exponent. -/
def isExponentMark (c : Char) : Bool := c = 'e' || c = 'E'

/-- The magnitude of the float that a text in the shape of one means, its sign and underscores
taken off. -/
def magnitudeOf (text : List Char) : Float :=
  let mantissa := text.takeWhile (!isExponentMark ·)
  let whole := mantissa.takeWhile (· ≠ '.')
  let fraction := (mantissa.dropWhile (· ≠ '.')).drop 1
  let exponent := (signedNumber? 10 ((text.dropWhile (!isExponentMark ·)).drop 1)).getD 0
  floatOf (whole ++ fraction) (exponent - fraction.length)

/-- A float with its sign, unless it is infinite. -/
def finite? (negative : Bool) (magnitude : Float) : Option Float :=
  if magnitude.isInf then none else some (if negative then -magnitude else magnitude)

/-- The text after the digits and underscores at its start, among which must be a digit. More
than one digit may start with a zero only where that is said. -/
def afterDigits? (zeroFirst : Bool) (text : List Char) : Option (List Char) :=
  let isPart := fun (c : Char) => c.isDigit || c = separator
  let count := (text.takeWhile isPart).countP Char.isDigit
  if count = 0 ∨ (1 < count ∧ text.head? = some '0' ∧ !zeroFirst) then none
  else some (text.dropWhile isPart)

/-- The text after a fraction at its start, if there is one. -/
def afterPoint? : List Char → Option (List Char)
  | '.' :: cs => afterDigits? true cs
  | cs => some cs

/-- The text after an exponent at its start, if there is one. -/
def afterExponent? : List Char → Option (List Char)
  | [] => some []
  | c :: cs => if isExponentMark c then afterDigits? true (sign cs).2 else some (c :: cs)

/-- Whether a text without a sign has the shape of a float. -/
def isFloatShape (text : List Char) : Bool :=
  ((afterDigits? false text).bind afterPoint?).bind afterExponent? = some []

/-- The float that a text means. -/
def floatValue (text : List Char) : Except Fault Value :=
  if isFloatShape (sign text).2 && separatesDigits Char.isDigit text then
    let (negative, magnitude) := sign (withoutSeparators text)
    .ok (.float (finite? negative (magnitudeOf magnitude)))
  else .error .malformed

/-! ## Dates and times -/

/-- The number that exactly two digits mean, and the rest. -/
def twoDigits? : List Char → Option (Nat × List Char)
  | a :: b :: cs => if a.isDigit && b.isDigit then some (numberOf 10 [a, b], cs) else none
  | _ => none

/-- Whether a year has a leap day. -/
def isLeapYear (year : Nat) : Bool := year % 4 = 0 && (year % 100 ≠ 0 || year % 400 = 0)

/-- The number of days of a month. -/
def daysIn (year month : Nat) : Nat :=
  if month = 2 then if isLeapYear year then 29 else 28
  else if month = 4 ∨ month = 6 ∨ month = 9 ∨ month = 11 then 30
  else 31

/-- The text after a date at its start. -/
def afterDate? (text : List Char) : Option (List Char) := do
  let (century, text) ← twoDigits? text
  let (years, text) ← twoDigits? text
  let '-' :: text := text | none
  let (month, text) ← twoDigits? text
  let '-' :: text := text | none
  let (day, text) ← twoDigits? text
  guard (1 ≤ month ∧ month ≤ 12 ∧ 1 ≤ day ∧ day ≤ daysIn (100 * century + years) month)
  return text

/-- The text after the fraction of a second at its start, if there is one. -/
def afterFraction? : List Char → Option (List Char)
  | '.' :: cs => if cs.head?.any Char.isDigit then some (cs.dropWhile Char.isDigit) else none
  | cs => some cs

/-- The text after the seconds at its start, if there are any. -/
def afterSeconds? : List Char → Option (List Char)
  | ':' :: cs => do
    let (second, cs) ← twoDigits? cs
    guard (second ≤ 60)
    afterFraction? cs
  | cs => some cs

/-- The text after hours and minutes at its start. -/
def afterMinutes? (text : List Char) : Option (List Char) := do
  let (hour, text) ← twoDigits? text
  let ':' :: text := text | none
  let (minute, text) ← twoDigits? text
  guard (hour ≤ 23 ∧ minute ≤ 59)
  return text

/-- The text after a time at its start. -/
def afterTime? (text : List Char) : Option (List Char) := do
  afterSeconds? (← afterMinutes? text)

/-- Whether a text is an offset from universal time, or empty. -/
def isOffset : List Char → Bool
  | [] => true
  | ['Z'] => true
  | ['z'] => true
  | '+' :: cs => afterMinutes? cs = some []
  | '-' :: cs => afterMinutes? cs = some []
  | _ => false

/-- Whether a character stands between a date and a time. -/
def isTimeMark (c : Char) : Bool := c = 'T' || c = 't' || c = ' '

/-- Whether a text is a date, a time, or both. -/
def isMoment (text : List Char) : Bool :=
  match afterDate? text with
  | some [] => true
  | some (c :: cs) => isTimeMark c && (afterTime? cs).any isOffset
  | none => afterTime? text = some []

/-! ## Values -/

/-- The values that have a name. -/
def named? (text : List Char) : Option Value :=
  [("true", Value.boolean true), ("false", .boolean false),
    ("inf", .float (some (1 / 0))), ("+inf", .float (some (1 / 0))),
    ("-inf", .float (some (-1 / 0))), ("nan", .float (some (0 / 0))),
    ("+nan", .float (some (0 / 0))), ("-nan", .float (some (-(0 / 0))))].lookup
      (String.ofList text)

/-- The value of a word by what comes after its sign and first digits. -/
def plainValue (text : List Char) : Except Fault Value :=
  let unsigned := (sign text).2
  let rest := unsigned.dropWhile Char.isDigit
  if rest.head? = some '-' ∨ rest.head? = some ':' then
    if isMoment text then .ok (.moment (String.ofList text)) else .error .malformed
  else if rest.contains ' ' ∨ unsigned = [] then .error .malformed
  else if rest.any (fun c => c = '.' || isExponentMark c) then floatValue text
  else if rest = [] ∨ rest.head? = some separator then integerValue text
  else .error .malformed

/-- The value that a word means. -/
def wordValue (text : List Char) : Except Fault Value :=
  match named? text, text with
  | some value, _ => .ok value
  | none, '0' :: c :: digits =>
    match baseOf? c with
    | some base => basedValue base digits
    | none => plainValue text
  | none, text => plainValue text

/-- The value that a string or a word means. -/
def scalarValue (raw : Raw) : Except Fault Value :=
  match raw with
  | .quoted quotation body => do return .string (String.ofList (← unquote quotation body))
  | .unclosed => .error .malformed
  | .word text => wordValue text

end Excision.Toml
