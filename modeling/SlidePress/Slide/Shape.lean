import SlidePress.Slide.Primitive
import SlidePress.Slide.Role

/-! The look of a shape: fill, outline, corner radius and shadow from the style of a node. -/
namespace SlidePress.Slide

open Source (Node)
open Style

/-- An outline with the border of one more side. Color and dash are those of the first side, the
width is that of the widest. -/
def addSide (style : Snapshot) (outline : Option Outline) (side : Side) : Option Outline :=
  let border := style.borderSide side
  if border.isVisible then
    let base : Outline := outline.getD
      { color := border.color
        dash :=
          if border.line == "dashed" then .dash else if border.line == "dotted" then .dot
          else .solid }
    let wider := { base with width := Number.max base.width border.width }
    some (match side with
      | .top => { wider with top := true }
      | .right => { wider with right := true }
      | .bottom => { wider with bottom := true }
      | .left => { wider with left := true })
  else outline

def outlineOf (style : Snapshot) : Option Outline :=
  Side.all.foldl (addSide style) none

/-- The radius of the corners in points; a percentage is one of the shorter side. -/
def cornerRadius (node : Node) : Number :=
  match firstRadius? (node.style.get "border-radius") with
  | some radius => Number.max 0 (radius.inPoints (Number.min node.box.width node.box.height))
  | none => 0

def pi : Number := 3.14159265358979323846

def shadowOf (shadow : BoxShadow) : Shadow :=
  let distance := shadow.offsetX.hypotenuse shadow.offsetY
  let turn := Number.angle shadow.offsetY shadow.offsetX * 180 / pi
  { color := { shadow.color with alpha := 1 }
    angle := if 0 < distance then if turn < 0 then turn + 360 else turn else 0
    distance
    blur := shadow.blur
    opacity := shadow.color.alpha }

/-- The look of a shape. Of several outer shadows the first is shown. -/
def shapeStyle (node : Node) : ShapeStyle :=
  let style := node.style
  let shadows := BoxShadow.parseList style.textColor (style.get "box-shadow")
  { fill := visibleFill? style
    outline := outlineOf style
    cornerRadius := cornerRadius node
    shadow := (shadows.find? (!·.inset)).map shadowOf }

/-- What of a node's style a shape does not show: an image from a file, and inner shadows. -/
def droppedStyle (node : Node) : List Text :=
  let style := node.style
  let image := style.get "background-image"
  let shadows := BoxShadow.parseList style.textColor (style.get "box-shadow")
  (if isUrlImage image then ["background image " ++ image] else []) ++
    (shadows.filter (·.inset)).map fun _ => Text.ofString "inset box-shadow"

/-- The largest box with the proportions of an image inside a frame, centered. Without positive
sizes it is the frame. -/
def fitImage (frame : Rect Number) (width height : Number) : Rect Number :=
  if width ≤ 0 ∨ height ≤ 0 ∨ frame.width ≤ 0 ∨ frame.height ≤ 0 then frame
  else
    let scale := Number.min (frame.width / width) (frame.height / height)
    let fittedWidth := width * scale
    let fittedHeight := height * scale
    ⟨frame.x + (frame.width - fittedWidth) / 2, frame.y + (frame.height - fittedHeight) / 2,
      fittedWidth, fittedHeight⟩

end SlidePress.Slide
