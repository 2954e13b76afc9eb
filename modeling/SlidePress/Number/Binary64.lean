/-! The exact meaning of binary64 values, in integers. A finite value is a mantissa times a power
of two; going back, the quotient of two naturals is rounded to the nearest value, a tie going to
the even mantissa. Everything here is integer arithmetic, so written forms and readings of numbers
can be computed and reasoned about without floating-point operations. -/
namespace SlidePress.Binary64

/-- What a binary64 value stands for. A finite value is `mantissa * 2 ^ exponent`. -/
inductive Meaning where
  | notANumber
  | infinite (negative : Bool)
  | finite (negative : Bool) (mantissa : Nat) (exponent : Int)
  deriving DecidableEq, Repr

def meaning (value : Float) : Meaning :=
  let bits := value.toBits.toNat
  let negative := bits / Nat.pow 2 63 == 1
  let biased : Nat := bits / Nat.pow 2 52 % 2048
  let fraction := bits % Nat.pow 2 52
  if biased == 2047 then
    if fraction == 0 then .infinite negative else .notANumber
  else if biased == 0 then .finite negative fraction (-1074)
  else .finite negative (Nat.pow 2 52 + fraction) ((biased : Int) - 1075)

inductive Tie where
  | toEven
  | away
  deriving DecidableEq, Repr

def roundQuotient (tie : Tie) (numerator denominator : Nat) : Nat :=
  let quotient := numerator / denominator
  let double := 2 * (numerator % denominator)
  if double < denominator then quotient
  else if denominator < double then quotient + 1
  else match tie with
    | .toEven => quotient + quotient % 2
    | .away => quotient + 1

/-- A natural times a power of two as a fraction: numerator and denominator. -/
def scaled (number : Nat) (exponent : Int) : Nat × Nat :=
  if 0 ≤ exponent then (number * Nat.pow 2 exponent.toNat, 1)
  else (number, Nat.pow 2 (-exponent).toNat)

/-- The greatest `e` with `2 ^ e ≤ numerator / denominator`. -/
def binaryOrder (numerator denominator : Nat) : Int :=
  let guess : Int := (numerator.log2 : Int) - denominator.log2
  let (factor, unit) := scaled denominator guess
  if factor ≤ numerator * unit then guess else guess - 1

/-- The value `mantissa * 2 ^ exponent` for a mantissa of at most 53 bits, or `2 ^ 53`, with the
exponent at its least for a mantissa of fewer bits; infinite when it is too large. -/
def assemble (negative : Bool) (mantissa : Nat) (exponent : Int) : Float :=
  let sign := if negative then Nat.pow 2 63 else 0
  let bits :=
    if mantissa < Nat.pow 2 52 then mantissa
    else
      let (mantissa, exponent) :=
        if mantissa == Nat.pow 2 53 then (Nat.pow 2 52, exponent + 1) else (mantissa, exponent)
      let biased := (exponent + 1075).toNat
      if 2047 ≤ biased then 2047 * Nat.pow 2 52
      else biased * Nat.pow 2 52 + (mantissa - Nat.pow 2 52)
  Float.ofBits (sign + bits).toUInt64

/-- A rounded quotient. It is out of range when it overflows, or when it is inexact and still
below the least normal value after rounding. -/
structure Rounded where
  value : Float
  inRange : Bool

/-- The quotient divided by a power of two and rounded to an integer, with whether that was
exact. -/
def mantissaAt (numerator denominator : Nat) (exponent : Int) : Nat × Bool :=
  let (factor, unit) := scaled denominator exponent
  let whole := numerator * unit
  (roundQuotient .toEven whole factor, whole % factor == 0)

def nearest (negative : Bool) (numerator denominator : Nat) : Rounded :=
  if numerator == 0 then ⟨assemble negative 0 0, true⟩
  else
    let order := binaryOrder numerator denominator
    let exponent := max (order - 52) (-1074)
    let (mantissa, exact) := mantissaAt numerator denominator exponent
    let overflows := 971 < exponent || (exponent == 971 && mantissa == Nat.pow 2 53)
    let reachesNormal :=
      order == -1023 && (mantissaAt numerator denominator (order - 52)).1 == Nat.pow 2 53
    let tiny := order < -1022 && !reachesNormal
    ⟨assemble negative mantissa exponent, !overflows && (exact || !tiny)⟩

def ofScaled (negative : Bool) (mantissa : Nat) (exponent : Int) : Float :=
  let (numerator, denominator) := scaled mantissa exponent
  (nearest negative numerator denominator).value

end SlidePress.Binary64
