import SlidePress.Number.Numeral
import SlidePress.Number.Written

/-! The arithmetic that layout is computed in. Layout asks only for the operations named here, so
that the same layout can be run on rounded numbers and reasoned about on exact ones. -/
namespace SlidePress.Layout

class Scalar (α : Type) extends Add α, Sub α, Mul α, Div α, Neg α, OfScientific α, LT α, LE α,
    BEq α where
  decideLT : DecidableLT α
  decideLE : DecidableLE α
  /-- Not a not-a-number. -/
  isNumber : α → Bool
  isFinite : α → Bool
  ofNat : Nat → α
  ofNumeral : Numeral → α
  /-- The form in which resolved lengths and positions are written. -/
  written : α → Text

namespace Scalar

variable {α : Type} [Scalar α]

instance : DecidableLT α := decideLT

instance : DecidableLE α := decideLE

/-- The larger of two scalars; the first when they do not compare. -/
def max (first second : α) : α :=
  if first < second then second else first

/-- The smaller of two scalars; the first when they do not compare. -/
def min (first second : α) : α :=
  if second < first then second else first

/-- The scalar, or zero when it is not above zero. -/
def positive (scalar : α) : α :=
  max 0.0 scalar

def sum (scalars : List α) : α :=
  scalars.foldl (· + ·) 0.0

end Scalar

/-- Positions and sizes are written with six significant digits. -/
def significantDigits : Nat := 6

instance : Scalar Number where
  decideLT := inferInstance
  decideLE := inferInstance
  isNumber number := !number.isNaN
  isFinite := Number.isFinite
  ofNat := Number.ofNat
  ofNumeral numeral := numeral.toNumber.1
  written := Number.general significantDigits

end SlidePress.Layout
