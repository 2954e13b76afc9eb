import SlidePress.Table
import SlidePress.Layout.Scalar

/-! Lengths in style values: a number with a unit, resolved to pixels against the font sizes and
the base of percentages where the value stands. -/
namespace SlidePress.Layout

variable {α : Type} [Scalar α]

def defaultFontSize : α := 16.0

/-- The height of a line of text in font sizes where nothing sets one. -/
def normalLineHeight : α := 1.2

/-- What relative lengths are resolved against. -/
structure LengthContext (α : Type) where
  fontSize : α
  rootFontSize : α
  percentBase : α

def LengthContext.base : LengthContext α := ⟨defaultFontSize, defaultFontSize, 0.0⟩

/-- The value of a property in canonical form, or a default when the style does not have it. -/
def styleValue (style : Properties) (property : Text) (default : Text) : Text :=
  match style.get? property with
  | none => default
  | some value => Text.keyword value

def styleValueOf (style : Properties) (property : Text) : Text :=
  styleValue style property []

/-- A finite number at the start of a text, and the trimmed unit after it. -/
def readQuantity? (text : Text) : Option (α × Text) :=
  match Numeral.read? text with
  | none => none
  | some (numeral, rest) =>
      let number : α := Scalar.ofNumeral numeral
      if Scalar.isFinite number then some (number, Text.trim rest) else none

def readPlain? (text : Text) : Option α :=
  match (readQuantity? text : Option (α × Text)) with
  | some (number, []) => some number
  | _ => none

/-- Pixels of a number with a unit. Without a unit only zero is a length. -/
def inPixels? (context : LengthContext α) (number : α) (unit : Text) : Option α :=
  if unit.isEmpty then if number == 0.0 then some 0.0 else none
  else if unit == "px" then some number
  else if unit == "pt" then some (number * 96.0 / 72.0)
  else if unit == "pc" then some (number * 16.0)
  else if unit == "in" then some (number * 96.0)
  else if unit == "cm" then some (number * 96.0 / 2.54)
  else if unit == "mm" then some (number * 96.0 / 25.4)
  else if unit == "em" then some (number * context.fontSize)
  else if unit == "rem" then some (number * context.rootFontSize)
  else if unit == "%" then some (number * context.percentBase / 100.0)
  else none

def noLengthWords : List Text := ["auto", "none", "normal"]

/-- The pixels of a length; none for a value that is not one. -/
def resolveLength? (context : LengthContext α) (raw : Text) : Option α :=
  let value := Text.keyword raw
  if value.isEmpty || noLengthWords.contains value then none
  else
    match (readQuantity? value : Option (α × Text)) with
    | none => none
    | some (number, unit) => inPixels? context number unit

def writtenPixels (length : α) : Text :=
  Scalar.written length ++ "px"

def fontSizeNames : List (Text × α) :=
  [("xx-small", 9.0), ("x-small", 10.0), ("small", 13.0), ("medium", 16.0), ("large", 18.0),
    ("x-large", 24.0), ("xx-large", 32.0)]

def resolveFontSize (raw : Text) (outer : α) : α :=
  let value := Text.keyword raw
  match (fontSizeNames : List (Text × α)).find? (·.1 == value) with
  | some (_, size) => size
  | none =>
      if value == "smaller" then outer / 1.2
      else if value == "larger" then outer * 1.2
      else Scalar.positive ((resolveLength? ⟨outer, defaultFontSize, outer⟩ value).getD outer)

/-- The height of a line for a style and its font size. A plain number counts font sizes. -/
def lineHeight (style : Properties) (fontSize : α) : α :=
  let value := styleValueOf style "line-height"
  if value.isEmpty || value == "normal" then fontSize * normalLineHeight
  else
    match (readPlain? value : Option α) with
    | some number => number * fontSize
    | none =>
        (resolveLength? ⟨fontSize, defaultFontSize, fontSize⟩ value).getD
          (fontSize * normalLineHeight)

def resolveBorderWidth (raw : Text) : α :=
  let value := Text.keyword raw
  if value == "thin" then 1.0
  else if value == "medium" || value.isEmpty then 3.0
  else if value == "thick" then 5.0
  else Scalar.positive ((resolveLength? LengthContext.base value).getD 0.0)

/-- The length that an attribute gives; a plain number counts pixels. -/
def attributeLength? (attributes : Properties) (name : Text) (context : LengthContext α) :
    Option α :=
  match attributes.get? name with
  | none => none
  | some raw =>
      let value := Text.trim raw
      match (readPlain? value : Option α) with
      | some number => some number
      | none => resolveLength? context value

end SlidePress.Layout
