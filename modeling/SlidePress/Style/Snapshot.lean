import SlidePress.Side
import SlidePress.Table
import SlidePress.Text.Pieces
import SlidePress.Css.Shorthand
import SlidePress.Style.Color
import SlidePress.Style.Length

/-! The resolved style of a node as far as slides show it, and the values read from it: borders,
shadows, radii and the color of text. -/
namespace SlidePress.Style

/-- The properties that slides know of. -/
def slideProperties : List Text :=
  ["background-color", "background-image", "border-top-width", "border-top-style",
    "border-top-color", "border-right-width", "border-right-style", "border-right-color",
    "border-bottom-width", "border-bottom-style", "border-bottom-color", "border-left-width",
    "border-left-style", "border-left-color", "border-radius", "box-shadow", "color",
    "font-family", "font-size", "font-weight", "font-style", "text-decoration", "text-align",
    "line-height", "padding-top", "padding-right", "padding-bottom", "padding-left"]

structure Snapshot where
  values : Properties

namespace Snapshot

def ofStyle (style : Properties) : Snapshot :=
  ⟨style.filterKeys slideProperties.contains⟩

def get (style : Snapshot) (property : Text) : Text :=
  style.values.getD property []

/-- The color of text, black when it is missing or cannot be read. -/
def textColor (style : Snapshot) : Color :=
  (Color.parse? (style.get "color") Color.black).getD Color.black

/-- The length of a property in points; zero when it is absent or a percentage. -/
def points (style : Snapshot) (property : Text) : Number :=
  match Length.parse? (style.get property) with
  | some length => if length.unit == .percent then 0 else length.inPoints 0
  | none => 0

end Snapshot

structure BorderSide where
  width : Number
  line : Text
  color : Color

namespace BorderSide

/-- A border is drawn when it has a width, a line and a color that shows. -/
def isVisible (border : BorderSide) : Bool :=
  decide (0 < border.width) && border.line != "none" && border.line != "hidden" &&
    border.color.isVisible

end BorderSide

def Snapshot.borderSide (style : Snapshot) (side : Side) : BorderSide :=
  let property := Css.sideProperty "border" side
  { width := style.points (property "width")
    line := Css.orElse (Text.keyword (style.get (property "style"))) "none"
    color := (Color.parse? (style.get (property "color")) style.textColor).getD style.textColor }

structure BoxShadow where
  offsetX : Number
  offsetY : Number
  blur : Number
  spread : Number
  color : Color
  inset : Bool

/-- What an entry of a shadow list says so far: its lengths in order, its color and its side. -/
structure ShadowParts where
  lengths : List Number
  color : Color
  inset : Bool

namespace ShadowParts

/-- The parts with a token added; none for a token that fits nowhere. -/
def add? (current : Color) (parts : ShadowParts) (token : Text) : Option ShadowParts :=
  if token == "inset" then some { parts with inset := true }
  else
    match Length.parse? token with
    | some length =>
        if length.unit == .percent then none
        else some { parts with lengths := parts.lengths ++ [length.inPoints 0] }
    | none => (Color.parse? token current).map fun color => { parts with color }

/-- A shadow has two offsets, and may have a blur and a spread. -/
def shadow? (parts : ShadowParts) : Option BoxShadow :=
  match parts.lengths with
  | [x, y] => some ⟨x, y, 0, 0, parts.color, parts.inset⟩
  | [x, y, blur] => some ⟨x, y, Number.max 0 blur, 0, parts.color, parts.inset⟩
  | [x, y, blur, spread] => some ⟨x, y, Number.max 0 blur, spread, parts.color, parts.inset⟩
  | _ => none

end ShadowParts

def BoxShadow.parse? (current : Color) (entry : Text) : Option BoxShadow :=
  ((Text.listing ' '.toUInt8 entry).foldlM (ShadowParts.add? current) ⟨[], current, false⟩).bind
    ShadowParts.shadow?

/-- The shadows of a list, in order; entries that cannot be read are left out. -/
def BoxShadow.parseList (current : Color) (value : Text) : List BoxShadow :=
  let value := Text.keyword value
  if value.isEmpty || value == "none" then []
  else (Text.listing ','.toUInt8 value).filterMap (BoxShadow.parse? current)

def isGradient (image : Text) : Bool :=
  Text.mentions "gradient(" (Text.lower image)

def isUrlImage (image : Text) : Bool :=
  ("url(" : Text).isPrefixOf (Text.keyword image)

def firstRadius? (radius : Text) : Option Length :=
  match Text.listing ' '.toUInt8 (Text.before '/'.toUInt8 (Text.trim radius)) with
  | first :: _ => Length.parse? first
  | [] => none

end SlidePress.Style
