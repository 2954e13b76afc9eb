import SlidePress.Side
import SlidePress.Css.Declaration

/-! Shorthand properties and their longhands. Expanding a style keeps every entry and adds the
longhands that are not there yet; of two shorthands that give the same longhand, the more
specific one is expanded first and so gives the value. -/
namespace SlidePress.Css

def borderStyles : List Text :=
  ["none", "hidden", "dotted", "dashed", "solid", "double", "groove", "ridge", "inset", "outset"]

def borderWidthNames : List Text := ["thin", "medium", "thick"]

/-- Words of a background that are neither an image nor a color. -/
def backgroundKeywords : List Text :=
  ["none", "repeat", "no-repeat", "repeat-x", "repeat-y", "space", "round", "center", "top",
    "bottom", "left", "right", "cover", "contain", "auto", "fixed", "scroll", "local",
    "border-box", "padding-box", "content-box", "/"]

def looksLikeLength (token : Text) : Bool :=
  match token with
  | [] => false
  | first :: rest =>
      Byte.isDigit first || first == '.'.toUInt8 ||
        ((first == '-'.toUInt8 || first == '+'.toUInt8) && !rest.isEmpty)

def orElse (text fallback : Text) : Text :=
  if text.isEmpty then fallback else text

/-- A property of one side of a box, such as `border-top-width`. -/
def sideProperty (base : Text) (side : Side) (detail : Text) : Text :=
  base ++ "-" ++ side.name ++ (if detail.isEmpty then [] else ("-" : Text) ++ detail)

namespace Shorthand

/-- The values for top, right, bottom and left from one to four tokens. -/
def sideValues : List Text → Option (List Text)
  | [] => none
  | [every] => some [every, every, every, every]
  | [vertical, horizontal] => some [vertical, horizontal, vertical, horizontal]
  | [top, horizontal, bottom] => some [top, horizontal, bottom, horizontal]
  | top :: right :: bottom :: left :: _ => some [top, right, bottom, left]

def expandSides (shorthand base detail : Text) (style : Properties) : Properties :=
  match (style.get? shorthand).bind fun value => sideValues (Text.tokens value) with
  | none => style
  | some values =>
      (Side.all.zip values).foldl
        (fun style (side, value) => style.insertNew (sideProperty base side detail) value) style

structure BorderParts where
  width : Text := []
  style : Text := []
  color : Text := []

def BorderParts.add (parts : BorderParts) (token : Text) : BorderParts :=
  let lowered := Text.lower token
  if borderStyles.contains lowered then { parts with style := lowered }
  else if looksLikeLength token || borderWidthNames.contains lowered then
    { parts with width := lowered }
  else { parts with color := token }

def borderParts (value : Text) : BorderParts :=
  (Text.tokens value).foldl BorderParts.add {}

/-- A border value for one side. It sets width and style in any case, and a color if it has
one. -/
def expandBorder (value : Text) (style : Properties) (side : Side) : Properties :=
  let parts := borderParts value
  let style := style.insertNew (sideProperty "border" side "width") (orElse parts.width "medium")
  let style := style.insertNew (sideProperty "border" side "style") (orElse parts.style "none")
  if parts.color.isEmpty then style
  else style.insertNew (sideProperty "border" side "color") parts.color

def expandBorderSide (style : Properties) (side : Side) : Properties :=
  match style.get? (sideProperty "border" side []) with
  | none => style
  | some value => expandBorder value style side

def expandBorderAll (style : Properties) : Properties :=
  match style.get? "border" with
  | none => style
  | some value => Side.all.foldl (expandBorder value) style

/-- What a background shorthand says: its images, joined, and its last color. -/
structure BackgroundParts where
  image : Text := []
  color : Text := []

def BackgroundParts.add (parts : BackgroundParts) (token : Text) : BackgroundParts :=
  let lowered := Text.lower token
  if Text.mentions "gradient(" lowered || ("url(" : Text).isPrefixOf lowered then
    { parts with image := if parts.image.isEmpty then token else parts.image ++ ", " ++ token }
  else if backgroundKeywords.contains lowered || looksLikeLength token ||
      token.contains '/'.toUInt8 then parts
  else { parts with color := token }

def backgroundParts (value : Text) : BackgroundParts :=
  ((Text.entries ','.toUInt8 value).flatMap Text.tokens).foldl BackgroundParts.add {}

def expandBackground (style : Properties) : Properties :=
  match style.get? "background" with
  | none => style
  | some value =>
      let parts := backgroundParts value
      let style := style.insertNew "background-image" (orElse parts.image "none")
      style.insertNew "background-color" (orElse parts.color "transparent")

structure FlexParts where
  grow : Text := "0"
  shrink : Text := "1"
  basis : Text := "auto"

def isUnitless (token : Text) : Bool :=
  token.all fun byte => Byte.isDigit byte || byte == '.'.toUInt8

/-- Of the numbers without a unit the first is the growth and the second the shrinkage; anything
else, and any further number, is the basis. The count is that of numbers so far. -/
def FlexParts.add : FlexParts × Nat → Text → FlexParts × Nat
  | (parts, numbers), token =>
      if isUnitless token && numbers == 0 then ({ parts with grow := token }, 1)
      else if isUnitless token && numbers == 1 then ({ parts with shrink := token }, 2)
      else ({ parts with basis := token }, numbers)

def flexParts (value : Text) : FlexParts :=
  let value := Text.keyword value
  if value == "none" then { shrink := "0" }
  else if value == "auto" then { grow := "1" }
  else ((Text.tokens value).foldl FlexParts.add ({ basis := "0" }, 0)).1

def expandFlex (style : Properties) : Properties :=
  match style.get? "flex" with
  | none => style
  | some value =>
      let parts := flexParts value
      let style := style.insertNew "flex-grow" parts.grow
      let style := style.insertNew "flex-shrink" parts.shrink
      style.insertNew "flex-basis" parts.basis

def expandGap (style : Properties) : Properties :=
  match (style.get? "gap").map Text.tokens with
  | some (row :: rest) =>
      (style.insertNew "row-gap" row).insertNew "column-gap" (rest.head?.getD row)
  | _ => style

def expand (style : Properties) : Properties :=
  let style := Side.all.foldl expandBorderSide style
  let style := expandBorderAll style
  let style := expandSides "margin" "margin" [] style
  let style := expandSides "padding" "padding" [] style
  let style := expandSides "border-width" "border" "width" style
  let style := expandSides "border-style" "border" "style" style
  let style := expandSides "border-color" "border" "color" style
  expandGap (expandFlex (expandBackground style))

end Shorthand

/-- A declaration followed by those of its longhands, by property, all of the same importance. -/
def Declaration.longhands (declaration : Declaration) : List Declaration :=
  let single := Table.empty.insert declaration.property declaration.value
  let others := (Shorthand.expand single).entries.filter (·.1 != declaration.property)
  declaration :: others.map fun (property, value) => ⟨property, value, declaration.important⟩

end SlidePress.Css
