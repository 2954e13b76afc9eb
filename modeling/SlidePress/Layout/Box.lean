import SlidePress.Rect
import SlidePress.Table
import SlidePress.Layout.Scalar

/-! Laid-out boxes. The geometry of a box is its border box in pixels from the origin of the
document; its style holds resolved values. -/
namespace SlidePress.Layout

variable {α : Type}

/-- The least rectangle around two. -/
def joinRects [Scalar α] (first second : Rect α) : Rect α :=
  let right := Scalar.max first.right second.right
  let bottom := Scalar.max first.bottom second.bottom
  let x := Scalar.min first.x second.x
  let y := Scalar.min first.y second.y
  ⟨x, y, right - x, bottom - y⟩

structure Box (α : Type) where
  frame : Rect α
  tag : Text
  text : Text
  attributes : Properties
  style : Properties
  children : List (Box α)

/-- What stands for a box that is not set yet. -/
def Box.unset [Scalar α] : Box α := ⟨⟨0.0, 0.0, 0.0, 0.0⟩, [], [], ∅, ∅, []⟩

structure Depicted (α : Type) where
  depth : Nat
  box : Box α

mutual

/-- A box moved with everything inside it, by changing each frame in the same way. -/
def Box.mapFrames (change : Rect α → Rect α) : Box α → Box α
  | ⟨frame, tag, text, attributes, style, children⟩ =>
      ⟨change frame, tag, text, attributes, style, mapFramesAll change children⟩

def mapFramesAll (change : Rect α → Rect α) : List (Box α) → List (Box α)
  | [] => []
  | box :: rest => box.mapFrames change :: mapFramesAll change rest

end

mutual

/-- A box and all boxes inside it, in document order, with their depths. -/
def Box.listing (depth : Nat) : Box α → List (Depicted α)
  | ⟨frame, tag, text, attributes, style, children⟩ =>
      ⟨depth, ⟨frame, tag, text, attributes, style, children⟩⟩ :: listingAll (depth + 1) children

def listingAll (depth : Nat) : List (Box α) → List (Depicted α)
  | [] => []
  | box :: rest => box.listing depth ++ listingAll depth rest

end

namespace Box

variable [Scalar α]

def moveX (shift : α) (box : Box α) : Box α :=
  box.mapFrames fun frame => { frame with x := frame.x + shift }

def moveY (shift : α) (box : Box α) : Box α :=
  box.mapFrames fun frame => { frame with y := frame.y + shift }

def move (right down : α) (box : Box α) : Box α :=
  box.mapFrames fun frame => { frame with x := frame.x + right, y := frame.y + down }

def firstWithTag? (box : Box α) (tag : Text) : Option (Box α) :=
  ((box.listing 0).find? (·.box.tag == tag)).map (·.box)

end Box

/-- What a box says of itself: its tag, its text if it has any, and its geometry. -/
def writtenHead [Scalar α] (frame : Rect α) (tag text : Text) : Text :=
  List.flatten
    [if tag.isEmpty then [] else "tag:" ++ tag,
      if text.isEmpty then [] else " text:\"" ++ text ++ "\"",
      " x:", Scalar.written frame.x, " y:", Scalar.written frame.y,
      " w:", Scalar.written frame.width, " h:", Scalar.written frame.height]

mutual

/-- A box as text in front of another text: in braces its own line, and then the boxes inside
it. -/
def Box.writeBefore [Scalar α] (after : Text) : Box α → Text
  | ⟨frame, tag, text, _, _, children⟩ =>
      Byte.openBrace :: (writtenHead frame tag text ++
        writeAllBefore (Byte.closeBrace :: after) children)

def writeAllBefore [Scalar α] (after : Text) : List (Box α) → Text
  | [] => after
  | box :: rest => box.writeBefore (writeAllBefore after rest)

end

def Box.written [Scalar α] (box : Box α) : Text := box.writeBefore []

end SlidePress.Layout
