import SlidePress.Layout.Styled

/-! Measures of styled nodes: margins, paddings and borders, the sizes that a style fixes, and the
width that content takes when no line is broken. -/
namespace SlidePress.Layout

variable {α : Type} [Scalar α]

structure Edges (α : Type) where
  top : α
  right : α
  bottom : α
  left : α

namespace Edges

def horizontal (edges : Edges α) : α := edges.left + edges.right

def vertical (edges : Edges α) : α := edges.top + edges.bottom

end Edges

namespace Styled

def lengths (node : Styled α) (percentBase : α) : LengthContext α :=
  ⟨node.fontSize, defaultFontSize, percentBase⟩

def length? (node : Styled α) (property : Text) (percentBase : α) : Option α :=
  resolveLength? (node.lengths percentBase) (node.value property)

/-- The length that a property gives, if it is a number. -/
def offset? (node : Styled α) (property : Text) (percentBase : α) : Option α :=
  (node.length? property percentBase).filter Scalar.isNumber

/-- The length that a property gives, if it is zero or more. -/
def limit? (node : Styled α) (property : Text) (percentBase : α) : Option α :=
  (node.length? property percentBase).filter fun length => decide ((0.0 : α) ≤ length)

def edges (node : Styled α) (base detail : Text) (percentBase : α) : Edges α :=
  let length (side : Side) : α :=
    (node.length? (Css.sideProperty base side detail) percentBase).getD 0.0
  ⟨length .top, length .right, length .bottom, length .left⟩

def margin (node : Styled α) (percentBase : α) : Edges α :=
  node.edges "margin" [] percentBase

def padding (node : Styled α) (percentBase : α) : Edges α :=
  node.edges "padding" [] percentBase

def border (node : Styled α) : Edges α :=
  node.edges "border" "width" 0.0

def fixedWidth? (node : Styled α) (containingWidth : α) : Option α :=
  match node.length? "width" containingWidth with
  | none => none
  | some width =>
      if width < 0.0 then none
      else if node.isBorderBox then some width
      else
        some (width + (node.padding containingWidth).horizontal + node.border.horizontal)

/-- The height of the border box that the style fixes. A share of an unknown height fixes
nothing. -/
def fixedHeight? (node : Styled α) (containingHeight : Option α) : Option α :=
  let raw := node.value "height"
  if raw.isEmpty || raw == "auto" then none
  else if raw.contains '%'.toUInt8 && containingHeight.isNone then none
  else
    match resolveLength? (node.lengths (containingHeight.getD 0.0)) raw with
    | none => none
    | some height =>
        if height < 0.0 then none
        else if node.isBorderBox then some height
        else some (height + (node.padding 0.0).vertical + node.border.vertical)

/-- The width of one byte of text: half the font size, and at least a pixel. -/
def byteWidth (node : Styled α) : α :=
  Scalar.max 1.0 (node.fontSize * 0.5)

def isRow (node : Styled α) : Bool :=
  ("row" : Text).isPrefixOf (node.valueD "flex-direction" "row")

end Styled

/-- The width of a text so far, whether a blank waits for the next word, and whether there was a
word at all. -/
structure TextExtent (α : Type) where
  width : α
  blankWaits : Bool
  seenWord : Bool

def TextExtent.add (byteWidth : α) (extent : TextExtent α) (byte : UInt8) : TextExtent α :=
  if Byte.isSpace byte then { extent with blankWaits := extent.seenWord }
  else
    let width := if extent.blankWaits then extent.width + byteWidth else extent.width
    ⟨width + byteWidth, false, true⟩

/-- The width of a text on one line, with single blanks between its words. -/
def textWidth (byteWidth : α) (text : Text) : α :=
  (text.foldl (TextExtent.add byteWidth) ⟨0.0, false, false⟩).width

mutual

def inlineWidth : Styled α → α
  | .text content style fontSize =>
      textWidth (Styled.text content style fontSize).byteWidth (transformText style content)
  | .element head style fontSize children =>
      if head.tag == "br" then 0.0
      else
        let node := Styled.element head style fontSize []
        Scalar.sum (inlineWidths children) + (node.padding 0.0).horizontal +
          node.border.horizontal

def inlineWidths : List (Styled α) → List α
  | [] => []
  | node :: rest => inlineWidth node :: inlineWidths rest

end

structure Extent (α : Type) where
  node : Styled α
  width : α

def rowWidth (gap : α) (extents : List (Extent α)) : α :=
  let items := extents.filter (!·.node.isAbsolute)
  let content :=
    items.foldl (fun content item => content + (item.width + (item.node.margin 0.0).horizontal)) 0.0
  if 1 < items.length then content + gap * Scalar.ofNat (items.length - 1) else content

/-- The width of a flow so far, and the width of the line at its end. -/
structure FlowExtent (α : Type) where
  content : α
  line : α

def FlowExtent.add (flow : FlowExtent α) (child : Extent α) : FlowExtent α :=
  if child.node.isAbsolute then flow
  else if child.node.isInline then
    if child.node.tag == "br" then ⟨Scalar.max flow.content flow.line, 0.0⟩
    else { flow with line := flow.line + child.width }
  else
    let content := Scalar.max flow.content flow.line
    ⟨Scalar.max content (child.width + (child.node.margin 0.0).horizontal), 0.0⟩

/-- The width of a flow: that of its widest line or block. -/
def flowWidth (extents : List (Extent α)) : α :=
  let flow := extents.foldl FlowExtent.add ⟨0.0, 0.0⟩
  Scalar.max flow.content flow.line

def Styled.isRowContainer (node : Styled α) : Bool :=
  node.isFlex && node.isRow

def contentWidth (node : Styled α) (extents : List (Extent α)) : α :=
  let content :=
    if node.isRowContainer then rowWidth ((node.length? "column-gap" 0.0).getD 0.0) extents
    else flowWidth extents
  content + (node.padding 0.0).horizontal + node.border.horizontal

/-- The width that a node fixes without asking its content or its surroundings. -/
def intrinsicWidth? (node : Styled α) : Option α :=
  match node.fixedWidth? 0.0 with
  | some width =>
      if (node.value "width").contains '%'.toUInt8 then imageWidth? node else some width
  | none => imageWidth? node
where
  imageWidth? (node : Styled α) : Option α :=
    if node.tag == "img" then
      some (Scalar.positive
        ((attributeLength? node.attributes "width" (node.lengths 0.0)).getD 0.0))
    else none

mutual

/-- The width that a node takes when no line inside it is broken. -/
def maxContentWidth : Styled α → α
  | .text content style fontSize => inlineWidth (.text content style fontSize)
  | .element head style fontSize children =>
      let node := Styled.element head style fontSize []
      match intrinsicWidth? node with
      | some width => width
      | none => contentWidth node (extentsOf node.isRowContainer children)

/-- The widths of children. Outside a row an inline child is part of a line. -/
def extentsOf (inRow : Bool) : List (Styled α) → List (Extent α)
  | [] => []
  | node :: rest =>
      ⟨node, if node.isInline && !inRow then inlineWidth node else maxContentWidth node⟩ ::
        extentsOf inRow rest

end

end SlidePress.Layout
