import Mathlib.Data.List.Forall2
import SlidePress.Layout.Flex

/-! Nodes that differ in what places them alone. How far a node is moved from its place is read in two
places only, where an absolute box is placed and where a relative box is moved; and that it has a
position at all is read where its own contents are set. Everything that is measured before comes out
the same whatever the offsets are, and whether a node in the flow has a position or not: sizes,
margins, what is a block and what is part of a line, and the widths that contents ask for. -/

namespace SlidePress.Layout

variable {α : Type}

def isOffset (property : Text) : Bool := property == "left" || property == "top"

/-- A property that tells whether and how far from its place a box stands. -/
def isPlacing (property : Text) : Bool := isOffset property || property == "position"

namespace Styled

/-- Two nodes have the same head, and styles that differ in what places them alone; both are in the
flow, or none is. -/
structure Akin (node other : Styled α) : Prop where
  isText : node.isText = other.isText
  tag : node.tag = other.tag
  attributes : node.attributes = other.attributes
  fontSize : node.fontSize = other.fontSize
  isAbsolute : node.isAbsolute = other.isAbsolute
  style : ∀ property, isPlacing property = false →
    node.style.get? property = other.style.get? property

structure Resembles (node other : Styled α) : Prop extends Akin node other where
  position : node.style.get? "position" = other.style.get? "position"

namespace Resembles

variable {node other : Styled α}

theorem of_style (isText : node.isText = other.isText) (tag : node.tag = other.tag)
    (attributes : node.attributes = other.attributes) (fontSize : node.fontSize = other.fontSize)
    (style : ∀ property, isOffset property = false →
      node.style.get? property = other.style.get? property) : Resembles node other := by
  have position : node.style.get? "position" = other.style.get? "position" :=
    style "position" (by decide)
  have isAbsolute : node.isAbsolute = other.isAbsolute := by
    rw [Styled.isAbsolute, Styled.isAbsolute, Styled.value, Styled.value, styleValueOf, styleValueOf,
      styleValue, styleValue, position]
  refine ⟨⟨isText, tag, attributes, fontSize, isAbsolute, fun property another => ?_⟩, position⟩
  exact style property (Bool.or_eq_false_iff.mp another).1

theorem refl (node : Styled α) : Resembles node node := .of_style rfl rfl rfl rfl fun _ _ => rfl

/-- What is inside an element does not matter. -/
theorem of_head (head : Html.Element) (style : Properties) (fontSize : α)
    (children others : List (Styled α)) :
    (Styled.element head style fontSize children).Resembles (.element head style fontSize others) :=
  .of_style rfl rfl rfl rfl fun _ _ => rfl

variable (resembles : Resembles node other)
include resembles

theorem value_position : node.value "position" = other.value "position" := by
  rw [Styled.value, Styled.value, styleValueOf, styleValueOf, styleValue, styleValue,
    resembles.position]

theorem isPositioned : node.isPositioned = other.isPositioned := by
  rw [Styled.isPositioned, Styled.isPositioned, Styled.valueD, Styled.valueD, styleValue, styleValue,
    resembles.position]

end Resembles

namespace Akin

variable {node other : Styled α} (akin : Akin node other)
include akin

theorem valueD {property : Text} (another : isPlacing property = false) (default : Text) :
    node.valueD property default = other.valueD property default := by
  rw [Styled.valueD, Styled.valueD, styleValue, styleValue, akin.style property another]

theorem value {property : Text} (another : isPlacing property = false) :
    node.value property = other.value property :=
  akin.valueD another []

theorem isInline : node.isInline = other.isInline := by
  rw [Styled.isInline, Styled.isInline, akin.isText, akin.tag, akin.valueD (by decide)]

theorem isFlex : node.isFlex = other.isFlex := by
  rw [Styled.isFlex, Styled.isFlex, akin.value (by decide)]

theorem isBorderBox : node.isBorderBox = other.isBorderBox := by
  rw [Styled.isBorderBox, Styled.isBorderBox, akin.value (by decide)]

theorem isRow : node.isRow = other.isRow := by
  rw [Styled.isRow, Styled.isRow, akin.valueD (by decide)]

theorem isRowContainer : node.isRowContainer = other.isRowContainer := by
  rw [Styled.isRowContainer, Styled.isRowContainer, akin.isFlex, akin.isRow]

variable [Scalar α]

theorem lengths (percentBase : α) : node.lengths percentBase = other.lengths percentBase := by
  rw [Styled.lengths, Styled.lengths, akin.fontSize]

theorem length? {property : Text} (another : isPlacing property = false) (percentBase : α) :
    node.length? property percentBase = other.length? property percentBase := by
  rw [Styled.length?, Styled.length?, akin.lengths, akin.value another]

theorem limit? {property : Text} (another : isPlacing property = false) (percentBase : α) :
    node.limit? property percentBase = other.limit? property percentBase := by
  rw [Styled.limit?, Styled.limit?, akin.length? another]

theorem edges {base detail : Text} (percentBase : α)
    (others : ∀ side, isPlacing (Css.sideProperty base side detail) = false) :
    node.edges base detail percentBase = other.edges base detail percentBase := by
  simp only [Styled.edges, akin.length? (others _)]

theorem margin (percentBase : α) : node.margin percentBase = other.margin percentBase :=
  akin.edges percentBase fun side => by cases side <;> decide

theorem padding (percentBase : α) : node.padding percentBase = other.padding percentBase :=
  akin.edges percentBase fun side => by cases side <;> decide

theorem border : node.border = other.border :=
  akin.edges 0.0 fun side => by cases side <;> decide

theorem fixedWidth? (containingWidth : α) :
    node.fixedWidth? containingWidth = other.fixedWidth? containingWidth := by
  rw [Styled.fixedWidth?, Styled.fixedWidth?, akin.length? (by decide), akin.isBorderBox,
    akin.padding, akin.border]

theorem fixedHeight? (containingHeight : Option α) :
    node.fixedHeight? containingHeight = other.fixedHeight? containingHeight := by
  simp only [Styled.fixedHeight?, akin.value (show isPlacing "height" = false by decide),
    akin.lengths, akin.isBorderBox, akin.padding, akin.border]

theorem lineHeight : Layout.lineHeight node.style node.fontSize =
    Layout.lineHeight other.style other.fontSize := by
  have same : styleValueOf node.style "line-height" = styleValueOf other.style "line-height" :=
    akin.value (by decide)
  rw [Layout.lineHeight, Layout.lineHeight, same, akin.fontSize]

theorem intrinsicWidth? : Layout.intrinsicWidth? node = Layout.intrinsicWidth? other := by
  simp only [Layout.intrinsicWidth?, intrinsicWidth?.imageWidth?, akin.fixedWidth?,
    akin.value (show isPlacing "width" = false by decide), akin.tag, akin.attributes,
    akin.lengths]

theorem flexFactor {property : Text} (another : isPlacing property = false) (default : Text) :
    (Layout.flexFactor node property default : α) = Layout.flexFactor other property default := by
  rw [Layout.flexFactor, Layout.flexFactor, akin.valueD another]

end Akin

end Styled

theorem forall₂_exchanged {relates : Styled α → Styled α → Prop} (refl : ∀ node, relates node node)
    {node other : Styled α} (related : relates node other) (before after : List (Styled α)) :
    List.Forall₂ relates (before ++ node :: after) (before ++ other :: after) :=
  List.rel_append (List.forall₂_same.mpr fun node _ => refl node)
    (.cons related (List.forall₂_same.mpr fun node _ => refl node))

/-! ## Widths of contents -/

variable [Scalar α]

/-- Nodes that are akin and take the same widths: their parents do not tell them apart. -/
structure Styled.Alike (node other : Styled α) : Prop extends Styled.Akin node other where
  width : maxContentWidth node = maxContentWidth other
  line : inlineWidth node = inlineWidth other

structure Styled.Like (node other : Styled α) : Prop extends Styled.Resembles node other,
    Styled.Alike node other

structure Extent.Like (extent other : Extent α) : Prop where
  node : extent.node.Akin other.node
  width : extent.width = other.width

section Extents

variable {extents others : List (Extent α)} (like : List.Forall₂ Extent.Like extents others)
include like

theorem foldl_widths_eq_of_like (start : α) :
    extents.foldl
        (fun content item => content + (item.width + (item.node.margin 0.0).horizontal)) start =
      others.foldl
        (fun content item => content + (item.width + (item.node.margin 0.0).horizontal)) start := by
  induction like generalizing start with
  | nil => rfl
  | cons first rest ih =>
      rw [List.foldl_cons, List.foldl_cons, first.width, first.node.margin, ih]

theorem rowWidth_eq_of_like (gap : α) : rowWidth gap extents = rowWidth gap others := by
  have items : List.Forall₂ Extent.Like (extents.filter (!·.node.isAbsolute))
      (others.filter (!·.node.isAbsolute)) := by
    refine List.rel_filter (fun first second alike => ?_) like
    dsimp only
    rw [alike.node.isAbsolute]
  rw [rowWidth, rowWidth, foldl_widths_eq_of_like items, items.length_eq]

theorem flowWidth_eq_of_like : flowWidth extents = flowWidth others := by
  have flow : ∀ start : FlowExtent α,
      extents.foldl FlowExtent.add start = others.foldl FlowExtent.add start := by
    induction like with
    | nil => exact fun _ => rfl
    | @cons extent other extents others first rest ih =>
        intro start
        have same : start.add extent = start.add other := by
          rw [FlowExtent.add, FlowExtent.add, first.node.isAbsolute, first.node.isInline,
            first.node.tag, first.node.margin, first.width]
        rw [List.foldl_cons, List.foldl_cons, same, ih]
  rw [flowWidth, flowWidth, flow]

theorem contentWidth_eq_of_like {node other : Styled α} (akin : node.Akin other) :
    contentWidth node extents = contentWidth other others := by
  rw [contentWidth, contentWidth, akin.isRowContainer, rowWidth_eq_of_like like,
    flowWidth_eq_of_like like, akin.length? (by decide), akin.padding, akin.border]

end Extents

namespace Styled.Alike

theorem extentsOf (inRow : Bool) {children others : List (Styled α)}
    (alike : List.Forall₂ Styled.Alike children others) :
    List.Forall₂ Extent.Like (Layout.extentsOf inRow children) (Layout.extentsOf inRow others) := by
  induction alike with
  | nil =>
      rw [Layout.extentsOf]
      exact .nil
  | cons first rest ih =>
      rw [Layout.extentsOf, Layout.extentsOf]
      refine .cons ⟨first.toAkin, ?_⟩ ih
      rw [first.isInline, first.width, first.line]

theorem inlineWidths {children others : List (Styled α)}
    (alike : List.Forall₂ Styled.Alike children others) :
    Layout.inlineWidths children = Layout.inlineWidths others := by
  induction alike with
  | nil => rfl
  | cons first rest ih => rw [Layout.inlineWidths, Layout.inlineWidths, first.line, ih]

/-- Elements that are akin, with children that are alike, are alike. -/
theorem element {head another : Html.Element} {style anotherStyle : Properties}
    {fontSize anotherSize : α} {children others : List (Styled α)}
    (akin : (Styled.element head style fontSize []).Akin (.element another anotherStyle anotherSize []))
    (alike : List.Forall₂ Styled.Alike children others) :
    (Styled.element head style fontSize children).Alike
      (.element another anotherStyle anotherSize others) := by
  have tag : head.tag = another.tag := akin.tag
  refine ⟨⟨rfl, akin.tag, akin.attributes, akin.fontSize, akin.isAbsolute, akin.style⟩, ?_, ?_⟩
  · rw [maxContentWidth, maxContentWidth, akin.intrinsicWidth?, akin.isRowContainer,
      contentWidth_eq_of_like (extentsOf _ alike) akin]
  · rw [inlineWidth, inlineWidth, inlineWidths alike, tag]
    dsimp only
    rw [akin.padding, akin.border]

end Styled.Alike

namespace Styled.Like

theorem refl (node : Styled α) : node.Like node := ⟨.refl node, rfl, rfl⟩

/-- Elements whose styles differ by offsets, with children that are alike, are alike. -/
theorem element {head : Html.Element} {style another : Properties} {fontSize : α}
    {children others : List (Styled α)}
    (same : ∀ property, isOffset property = false → style.get? property = another.get? property)
    (like : List.Forall₂ Styled.Like children others) :
    (Styled.element head style fontSize children).Like
      (.element head another fontSize others) := by
  have alone : (Styled.element head style fontSize []).Resembles
      (.element head another fontSize []) := .of_style rfl rfl rfl rfl same
  have alike := Styled.Alike.element alone.toAkin (like.imp fun _ _ like => like.toAlike)
  exact ⟨.of_style rfl rfl rfl rfl same, alike.width, alike.line⟩

end Styled.Like

end SlidePress.Layout
