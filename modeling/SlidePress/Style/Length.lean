import SlidePress.Number.Integral
import SlidePress.Number.Numeral

/-! Lengths on a slide, in points. A pixel is three quarters of a point. Geometry is carried as it
is computed and rounded to a hundredth of a point once, when a slide is put together. -/
namespace SlidePress.Style

inductive LengthUnit where
  | pixel
  | point
  | inch
  | centimeter
  | millimeter
  | percent
  deriving DecidableEq, Repr

namespace LengthUnit

def symbol : LengthUnit → Text
  | .pixel => "px"
  | .point => "pt"
  | .inch => "in"
  | .centimeter => "cm"
  | .millimeter => "mm"
  | .percent => "%"

def all : List LengthUnit := [.pixel, .point, .inch, .centimeter, .millimeter, .percent]

def ofSymbol? (symbol : Text) : Option LengthUnit :=
  all.find? (·.symbol == symbol)

end LengthUnit

structure Length where
  value : Number
  unit : LengthUnit

def pointsPerPixel : Number := 0.75

def pointsPerInch : Number := 72

/-- The finest unit of length in slide files, per point. -/
def emuPerPoint : Number := 12700

def emuPerPixel : Number := 9525

def pixelsToPoints (pixels : Number) : Number := pixels * pointsPerPixel

def pointsToPixels (points : Number) : Number := points / pointsPerPixel

def pointsToEmu (points : Number) : Int := (points * emuPerPoint).toIntNearest

def pixelsToEmu (pixels : Number) : Int := (pixels * emuPerPixel).toIntNearest

def percentOf (percent reference : Number) : Number := percent * reference / 100

/-- A number of points rounded to a hundredth, a half going away from zero. Zero has no sign. -/
def roundOutput (points : Number) : Number :=
  let rounded := (points * 100).round / 100
  if rounded == 0 then 0 else rounded

namespace Length

/-- A finite number in range with a unit right after it, or zero without a unit. -/
def parse? (text : Text) : Option Length :=
  match Numeral.read? (Text.trim text) with
  | none => none
  | some (numeral, rest) =>
      let (number, inRange) := numeral.toNumber
      if !inRange || !number.isFinite then none
      else if rest.isEmpty then if number == 0 then some ⟨number, .pixel⟩ else none
      else (LengthUnit.ofSymbol? (Text.lower rest)).map (⟨number, ·⟩)

def inPoints (length : Length) (reference : Number) : Number :=
  match length.unit with
  | .pixel => pixelsToPoints length.value
  | .point => length.value
  | .inch => length.value * pointsPerInch
  | .centimeter => length.value * pointsPerInch / 2.54
  | .millimeter => length.value * pointsPerInch / 25.4
  | .percent => percentOf length.value reference

end Length

end SlidePress.Style
