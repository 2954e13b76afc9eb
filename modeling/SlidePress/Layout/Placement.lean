import SlidePress.Layout.Box
import SlidePress.Layout.Measure

/-! Where boxes go. A placement tells a node where its box stands, how much room there is, and
which of its sizes are decided already; a child is a node together with the way its box is made
from a placement, so that a parent can set its children without knowing what is inside them. -/
namespace SlidePress.Layout

variable {α : Type}

structure Placement (α : Type) where
  x : α
  y : α
  /-- The room for a box that takes all there is. -/
  availableWidth : α
  /-- The base of horizontal percentages. -/
  containingWidth : α
  /-- The base of vertical percentages, when it is known. -/
  containingHeight : Option α
  forcedWidth : Option α
  forcedHeight : Option α
  /-- The area against which absolute boxes are placed. -/
  positioned : Rect α

structure Child (α : Type) where
  node : Styled α
  layout : Placement α → Polling (Box α)

/-- The area in which the children of a box are set. Its height in `area` has no meaning: the
height is known or not. -/
structure Interior (α : Type) where
  area : Rect α
  height : Option α
  positioned : Rect α

structure Contents (α : Type) where
  boxes : List (Box α)
  height : α

variable [Scalar α]

/-- A missing size of an image from the other one and the natural sizes. -/
def imageSide (natural other : α) (fixedOther : α) : α :=
  if (0.0 : α) < natural ∧ (0.0 : α) < other then fixedOther * natural / other
  else Scalar.positive natural

/-- The box of an image. Its attributes give the natural sizes; a size that is not fixed follows
from the other one. -/
def layoutImage (node : Styled α) (placement : Placement α) : Box α :=
  let context := node.lengths placement.containingWidth
  let naturalWidth := (attributeLength? node.attributes "width" context).getD (-1.0)
  let naturalHeight := (attributeLength? node.attributes "height" context).getD (-1.0)
  let width? := placement.forcedWidth.or (node.fixedWidth? placement.containingWidth)
  let height? := placement.forcedHeight.or (node.fixedHeight? placement.containingHeight)
  let (width, height) :=
    match width?, height? with
    | some width, some height => (width, height)
    | none, none => (Scalar.positive naturalWidth, Scalar.positive naturalHeight)
    | none, some height => (imageSide naturalWidth naturalHeight height, height)
    | some width, none => (width, imageSide naturalHeight naturalWidth width)
  ⟨⟨placement.x, placement.y, width, height⟩, node.tag, [], node.attributes, node.style, []⟩

/-- The width of an absolute box: fixed by its style, spanned between two offsets, or that of its
content as far as it fits. -/
def absoluteWidth (node : Styled α) (containing : Rect α) (margin : Edges α)
    (left right : Option α) : α :=
  match node.fixedWidth? containing.width, left, right with
  | some width, _, _ => width
  | none, some left, some right =>
      Scalar.positive (containing.width - left - right - margin.horizontal)
  | none, _, _ =>
      Scalar.min (maxContentWidth node) (Scalar.positive (containing.width - margin.horizontal))

def absoluteHeight? (node : Styled α) (containing : Rect α) (margin : Edges α)
    (top bottom : Option α) : Option α :=
  match node.fixedHeight? (some containing.height), top, bottom with
  | some height, _, _ => some height
  | none, some top, some bottom =>
      some (Scalar.positive (containing.height - top - bottom - margin.vertical))
  | none, _, _ => none

/-- The left edge of an absolute box: by its left offset, else by its right one, else where it
would stand in the flow. -/
def absoluteLeft (containing : Rect α) (margin : Edges α) (left right : Option α)
    (width staticX : α) : α :=
  match left, right with
  | some left, _ => containing.x + left + margin.left
  | none, some right => containing.x + containing.width - right - margin.right - width
  | none, none => staticX + margin.left

/-- The box of a child that is taken out of the flow. A box that hangs from a bottom offset alone
is moved there once its height is known. -/
def layoutAbsolute (child : Child α) (containing : Rect α) (staticX staticY : α) :
    Polling (Box α) := do
  let node := child.node
  let margin := node.margin containing.width
  let left := node.offset? "left" containing.width
  let right := node.offset? "right" containing.width
  let top := node.offset? "top" containing.height
  let bottom := node.offset? "bottom" containing.height
  let width := absoluteWidth node containing margin left right
  let box ← child.layout
    { x := absoluteLeft containing margin left right width staticX
      y := match top with
        | some top => containing.y + top + margin.top
        | none => staticY + margin.top
      availableWidth := width
      containingWidth := containing.width
      containingHeight := some containing.height
      forcedWidth := some width
      forcedHeight := absoluteHeight? node containing margin top bottom
      positioned := containing }
  match top, bottom with
  | none, some bottom =>
      let target := containing.y + containing.height - bottom - margin.bottom - box.frame.height
      return box.moveY (target - box.frame.y)
  | _, _ => return box

end SlidePress.Layout
