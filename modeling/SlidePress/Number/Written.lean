import SlidePress.Text.Basic
import SlidePress.Number.Basic

/-! Written forms of numbers. Both start from the exact value of a number and round it once, a tie
going to the even digit: the general form to a number of significant digits, without closing
zeros and with an exponent when the value is very large or very small, and the fixed form to a
number of decimal places. -/
namespace SlidePress.Number

open Binary64

/-- The greatest `k` with `10 ^ k ≤ numerator / denominator`, for a positive quotient. -/
def decimalOrder (numerator denominator : Nat) : Int :=
  if denominator ≤ numerator then
    ((Text.ofNat (numerator / denominator)).length : Int) - 1
  else
    let ratio := (denominator + numerator - 1) / numerator
    Int.negOfNat (Text.ofNat (ratio - 1)).length

def stripZeros (digits : Text) : Text :=
  (digits.reverse.dropWhile (· == '0'.toUInt8)).reverse

def padLeft (size : Nat) (digits : Text) : Text :=
  List.replicate (size - digits.length) '0'.toUInt8 ++ digits

/-- A whole part and a fraction with a point between them, the point only before a digit. -/
def pointed (whole fraction : Text) : Text :=
  if fraction.isEmpty then whole else whole ++ "." ++ fraction

def writtenExponent (exponent : Int) : Text :=
  (if exponent < 0 then "e-" else "e+") ++ padLeft 2 (Text.ofNat exponent.natAbs)

/-- A quotient rounded to `size` digits: the digits, and the power of ten of the first. -/
def significant (size : Nat) (numerator denominator : Nat) : Nat × Int :=
  let order := decimalOrder numerator denominator
  let shift := (size : Int) - 1 - order
  let digits :=
    if 0 ≤ shift then roundQuotient .toEven (numerator * Nat.pow 10 shift.toNat) denominator
    else roundQuotient .toEven numerator (denominator * Nat.pow 10 (-shift).toNat)
  if digits == Nat.pow 10 size then (Nat.pow 10 (size - 1), order + 1) else (digits, order)

/-- The general form of a positive quotient. Exponents below -4, and those that do not fit the
digits, are written out. -/
def generalMagnitude (size : Nat) (numerator denominator : Nat) : Text :=
  let (number, order) := significant size numerator denominator
  let digits := Text.ofNat number
  if order < -4 || (size : Int) ≤ order then
    pointed (digits.take 1) (stripZeros (digits.drop 1)) ++ writtenExponent order
  else if order < 0 then
    pointed "0" (stripZeros (List.replicate (-order - 1).toNat '0'.toUInt8 ++ digits))
  else
    pointed (digits.take (order.toNat + 1)) (stripZeros (digits.drop (order.toNat + 1)))

def signed (negative : Bool) (magnitude : Text) : Text :=
  if negative then "-" ++ magnitude else magnitude

def general (size : Nat) (number : Number) : Text :=
  match number.meaning with
  | .notANumber => signed number.nanNegative "nan"
  | .infinite negative => signed negative "inf"
  | .finite negative mantissa exponent =>
      if mantissa == 0 then signed negative "0"
      else
        let (numerator, denominator) := scaled mantissa exponent
        signed negative (generalMagnitude size numerator denominator)

def fixed (places : Nat) (number : Number) : Text :=
  match number.meaning with
  | .notANumber => signed number.nanNegative "nan"
  | .infinite negative => signed negative "inf"
  | .finite negative mantissa exponent =>
      let (numerator, denominator) := scaled mantissa exponent
      let units := roundQuotient .toEven (numerator * Nat.pow 10 places) denominator
      signed negative
        (Text.ofNat (units / Nat.pow 10 places) ++ "." ++
          padLeft places (Text.ofNat (units % Nat.pow 10 places)))

end SlidePress.Number
