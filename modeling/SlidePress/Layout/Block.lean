import SlidePress.Layout.Flow
import SlidePress.Layout.Flex

/-! Block boxes and whole documents. A block decides its width, sets its children, takes its height
from them when nothing fixes it, and is moved at last if it is placed relatively. -/
namespace SlidePress.Layout

variable {α : Type} [Scalar α]

/-- A width held between the least and the greatest width of a style, the least one last. -/
def clampWidth (node : Styled α) (containingWidth frame width : α) : α :=
  let width :=
    match node.limit? "max-width" containingWidth with
    | some most => Scalar.min width (most + frame)
    | none => width
  match node.limit? "min-width" containingWidth with
  | some least => Scalar.max width (least + frame)
  | none => width

/-- A height held between the least and the greatest height of a style, the greatest one last. -/
def clampHeight (node : Styled α) (containingHeight frame height : α) : α :=
  let height :=
    match node.limit? "min-height" containingHeight with
    | some least => Scalar.max height (least - frame)
    | none => height
  match node.limit? "max-height" containingHeight with
  | some most => Scalar.min height (most - frame)
  | none => height

def blockWidth (node : Styled α) (placement : Placement α) (padding border : Edges α) : α :=
  let containing := placement.containingWidth
  match placement.forcedWidth with
  | some width => Scalar.positive width
  | none =>
      let frame := if node.isBorderBox then 0.0 else padding.horizontal + border.horizontal
      Scalar.positive (clampWidth node containing frame
        ((node.fixedWidth? containing).getD placement.availableWidth))

def contentHeight (node : Styled α) (placement : Placement α) (padding border : Edges α)
    (fixed : Option α) (taken : α) : α :=
  match fixed with
  | some height => height
  | none =>
      let frame := if node.isBorderBox then padding.vertical + border.vertical else 0.0
      clampHeight node (placement.containingHeight.getD 0.0) frame taken

def relativeShift (node : Styled α) (containingWidth : α) : α × α :=
  let toward (forward backward : Option α) : α :=
    match forward, backward with
    | some distance, _ => distance
    | none, some distance => -distance
    | none, none => 0.0
  (toward (node.offset? "left" containingWidth) (node.offset? "right" containingWidth),
    toward (node.offset? "top" 0.0) (node.offset? "bottom" 0.0))

def moveRelative (node : Styled α) (containingWidth : α) (box : Box α) : Box α :=
  if node.value "position" == "relative" then
    let (right, down) := relativeShift node containingWidth
    if right == 0.0 && down == 0.0 then box else box.move right down
  else box

def withPadding (style : Properties) (padding : Edges α) : Properties :=
  let style := style.insert "padding-top" (writtenPixels padding.top)
  let style := style.insert "padding-right" (writtenPixels padding.right)
  let style := style.insert "padding-bottom" (writtenPixels padding.bottom)
  style.insert "padding-left" (writtenPixels padding.left)

def layoutContents (node : Styled α) (interior : Interior α) (children : List (Child α)) :
    Polling (Contents α) :=
  if node.isFlex then layoutFlex node interior children else layoutFlow node interior children

/-- The boxes of a block once its height is known. Where absolute children are placed against a
block whose height nothing had fixed they are set again, as long as every child has a box. -/
def resetAbsolutes (node : Styled α) (interior : Interior α) (children : List (Child α))
    (boxes : List (Box α)) : Polling (List (Box α)) :=
  if node.isPositioned && interior.height.isNone && boxes.length == children.length then
    (children.zip boxes).mapM fun (child, box) =>
      if child.node.isAbsolute then
        layoutAbsolute child interior.positioned interior.area.x interior.area.y
      else return box
  else return boxes

def layoutBlock (node : Styled α) (children : List (Child α)) (placement : Placement α) :
    Polling (Box α) := do
  let padding := node.padding placement.containingWidth
  let border := node.border
  let width := blockWidth node placement padding border
  let fixed := (placement.forcedHeight.or (node.fixedHeight? placement.containingHeight)).map
    fun height => Scalar.positive (height - padding.vertical - border.vertical)
  let left := placement.x + border.left
  let top := placement.y + border.top
  let inner := width - border.horizontal
  let positionedIn (height : α) : Rect α :=
    if node.isPositioned then ⟨left, top, inner, height⟩ else placement.positioned
  let interior : Interior α :=
    { area := ⟨left + padding.left, top + padding.top,
        Scalar.positive (width - padding.horizontal - border.horizontal), 0.0⟩
      height := fixed
      positioned := positionedIn (fixed.getD 0.0 + padding.vertical) }
  let contents ← layoutContents node interior children
  let taken := contentHeight node placement padding border fixed contents.height
  let height := Scalar.positive (taken + padding.vertical + border.vertical)
  let boxes ←
    resetAbsolutes node { interior with positioned := positionedIn (height - border.vertical) }
      children contents.boxes
  return moveRelative node placement.containingWidth
    ⟨⟨placement.x, placement.y, width, height⟩, node.tag, [], node.attributes,
      withPadding node.style padding, boxes⟩

mutual

/-- The box of a node that is not a text in a line. -/
def layoutNode : Styled α → Placement α → Polling (Box α)
  | .text content style fontSize => layoutBlock (.text content style fontSize) []
  | .element head style fontSize children =>
      let node := Styled.element head style fontSize children
      if head.tag == "img" then fun placement => return layoutImage node placement
      else layoutBlock node (layoutChildren children)

def layoutChildren : List (Styled α) → List (Child α)
  | [] => []
  | node :: rest => ⟨node, layoutNode node⟩ :: layoutChildren rest

end

structure Viewport (α : Type) where
  width : α
  height : α

/-- The box of a styled document. It is at least as high as the viewport. -/
def layoutRoot (viewport : Viewport α) (root : Styled α) : Polling (Box α) := do
  let box ← layoutNode root
    { x := 0.0
      y := 0.0
      availableWidth := viewport.width
      containingWidth := viewport.width
      containingHeight := some viewport.height
      forcedWidth := some viewport.width
      forcedHeight := none
      positioned := ⟨0.0, 0.0, viewport.width, viewport.height⟩ }
  return { box with frame :=
    { box.frame with height := Scalar.max box.frame.height viewport.height } }

/-- The layout of a document, with a poll after each of its two passes: a pass that was cancelled
has left a tree that is not handed over. -/
def layoutDocument (author : Css.Stylesheet) (viewport : Viewport α) (document : Html.Document) :
    Polling (Option (Box α)) := do
  let root ← styleDocument author document
  if ← poll then return none
  let box ← layoutRoot viewport root
  if ← poll then return none
  return some box

def layoutFreely (author : Css.Stylesheet) (viewport : Viewport α) (document : Html.Document) :
    Box α :=
  (Polled.into none .unset (layoutDocument author viewport document)).2

end SlidePress.Layout
