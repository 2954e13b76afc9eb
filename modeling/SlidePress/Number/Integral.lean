import SlidePress.Number.Basic

/-! Numbers and integers: rounding, cutting, remainders, and the length of a vector. -/
namespace SlidePress.Number

open Binary64

/-- The nearest integer, a half going away from zero. What is not finite gives zero. -/
def toIntNearest (number : Number) : Int :=
  match number.meaning with
  | .finite negative mantissa exponent =>
      let (numerator, denominator) := scaled mantissa exponent
      let magnitude : Int := roundQuotient .away numerator denominator
      if negative then -magnitude else magnitude
  | _ => 0

/-- The integer next to a number on the side of zero. What is not finite gives zero. -/
def toIntTowardZero (number : Number) : Int :=
  match number.meaning with
  | .finite negative mantissa exponent =>
      let (numerator, denominator) := scaled mantissa exponent
      let magnitude : Int := numerator / denominator
      if negative then -magnitude else magnitude
  | _ => 0

/-- The number rounded to an integral value, a half going away from zero. -/
def round (number : Number) : Number :=
  match number.meaning with
  | .finite negative mantissa exponent =>
      let (numerator, denominator) := scaled mantissa exponent
      ofFloat (nearest negative (roundQuotient .away numerator denominator) 1).value
  | _ => number

/-- The remainder of a division with an integral quotient on the side of zero. It is exact and
has the sign of the dividend. -/
def remainder (dividend divisor : Number) : Number :=
  match dividend.meaning, divisor.meaning with
  | .finite negative mantissa exponent, .finite _ unit order =>
      if unit == 0 then nan true
      else
        let base := Min.min exponent order
        let left := mantissa * Nat.pow 2 (exponent - base).toNat
        let right := unit * Nat.pow 2 (order - base).toNat
        ofFloat (ofScaled negative (left % right) base)
  | .finite .., .infinite _ => dividend
  | .notANumber, _ => dividend
  | _, .notANumber => divisor
  | .infinite _, _ => nan true

def powerOfTwo (exponent : Int) : Float := ofScaled false 1 exponent

/-- The length of a vector from its longer and its shorter leg, for legs whose squares neither
overflow nor vanish: the root of the sum of squares, with one step of correction. The error of the
root is taken from differences of the legs, which lose less than their squares do. -/
def correctedLength (long short : Float) : Float :=
  let root := (long * long + short * short).sqrt
  let error :=
    if root ≤ 2.0 * short then
      let excess := root - short
      long * (2.0 * excess - long) + (excess - 2.0 * (long - short)) * excess
    else
      let excess := root - long
      2.0 * excess * (long - 2.0 * short) + ((4.0 * excess - short) * short + excess * excess)
  root - error / (2.0 * root)

/-- The length of a vector from its longer and its shorter leg. A leg that is lost beside the other
adds nothing to it, and legs that are very large or very small are scaled by a power of two. -/
def lengthOfLegs (long short : Float) : Float :=
  let share := powerOfTwo (-54)
  let scale := powerOfTwo (-600)
  if powerOfTwo 511 < long then
    if short ≤ long * share then long + short
    else correctedLength (long * scale) (short * scale) / scale
  else if short < powerOfTwo (-459) then
    if short / share ≤ long then long + short
    else correctedLength (long / scale) (short / scale) * scale
  else if short ≤ long * share then long + short
  else correctedLength long short

def hypotenuse (x y : Number) : Number :=
  match x.meaning, y.meaning with
  | .infinite _, _ => ⟨x.value.abs, true⟩
  | _, .infinite _ => ⟨y.value.abs, true⟩
  | .notANumber, _ => x
  | _, .notANumber => y
  | .finite .., .finite .. =>
      let first := x.value.abs
      let second := y.value.abs
      ofFloat (if first < second then lengthOfLegs second first else lengthOfLegs first second)

/-- The angle of a plane vector from the first axis, in radians. -/
def angle (y x : Number) : Number :=
  combine Float.atan2 y x

end SlidePress.Number
