import SlidePress.Slide.Issue

/-! The result of a conversion: a slide, or all that stands against it, never both. -/
namespace SlidePress.Slide

open Source (Size)
open Style

/-- A finished slide: primitives in drawing order with rounded geometry, and the frames of
placeholders by name. -/
structure Deck where
  primitives : List Primitive
  placeholders : Table (Rect Number)
  canvas : Size
  background : Option Color

inductive Outcome where
  | slide (deck : Deck)
  | rejected (issues : List Issue)

def Outcome.isSlide : Outcome → Bool
  | .slide _ => true
  | .rejected _ => false

def roundRect (rect : Rect Number) : Rect Number := rect.map roundOutput

def roundContent (content : TextContent) : TextContent :=
  { content with
    font := { content.font with
      size := roundOutput content.font.size, lineSpacing := roundOutput content.font.lineSpacing }
    insets := ⟨roundOutput content.insets.left, roundOutput content.insets.top,
      roundOutput content.insets.right, roundOutput content.insets.bottom⟩ }

def roundShadow (shadow : Shadow) : Shadow :=
  { shadow with
    angle := roundOutput shadow.angle
    distance := roundOutput shadow.distance
    blur := roundOutput shadow.blur
    opacity := roundOutput shadow.opacity }

def roundShape (style : ShapeStyle) : ShapeStyle :=
  { style with
    cornerRadius := roundOutput style.cornerRadius
    outline := style.outline.map fun outline =>
      { outline with width := roundOutput outline.width }
    shadow := style.shadow.map roundShadow }

def Primitive.rounded (primitive : Primitive) : Primitive :=
  { header := { primitive.header with frame := roundRect primitive.header.frame }
    body :=
      match primitive.body with
      | .text content => .text (roundContent content)
      | .shape style => .shape (roundShape style)
      | .image source fitted => .image source (roundRect fitted)
      | .placeholder => .placeholder }

/-- The frames of placeholders by name; of several with one name the first counts. -/
def placeholderFrames (primitives : List Primitive) : Table (Rect Number) :=
  (primitives.filter isPlaceholderPrimitive).foldl
    (fun frames primitive => frames.insertNew primitive.header.id primitive.header.frame) ∅

/-- A slide from its primitives, unless there are issues. Primitives that share a place in the
drawing order stay as they were. -/
def assemble (primitives : List Primitive) (issues : List Issue) (canvas : Size)
    (background : Option Color) : Outcome :=
  if issues.isEmpty then
    let ordered := primitives.mergeSort fun first second =>
      decide (first.header.zOrder ≤ second.header.zOrder)
    let rounded := ordered.map Primitive.rounded
    .slide ⟨rounded, placeholderFrames rounded, canvas, background⟩
  else .rejected issues

end SlidePress.Slide
