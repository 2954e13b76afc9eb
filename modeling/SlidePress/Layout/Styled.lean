import SlidePress.Css.Cascade
import SlidePress.Css.Inheritance
import SlidePress.Css.UserAgent
import SlidePress.Layout.Length
import SlidePress.Layout.Poll

/-! Styled trees: what a document shows, with the style of every node settled. Cascade and
inheritance give each element its style, font sizes and border widths are resolved to pixels, and
nodes that show nothing are left out. -/
namespace SlidePress.Layout

open Css (Stylesheet)
open Html (Element)

variable {α : Type}

inductive Styled (α : Type) where
  | text (content : Text) (style : Properties) (fontSize : α)
  | element (head : Element) (style : Properties) (fontSize : α) (children : List (Styled α))

/-- A text with the case of its letters changed, every word beginning with a capital. A word is a
run of letters and digits. -/
def capitalize (atStart : Bool) : Text → Text
  | [] => []
  | byte :: rest =>
      if Byte.isAlphanumeric byte then
        (if atStart then Byte.toUpper byte else byte) :: capitalize false rest
      else byte :: capitalize true rest

def transformText (style : Properties) (text : Text) : Text :=
  let transform := styleValueOf style "text-transform"
  if transform == "uppercase" then Text.upper text
  else if transform == "lowercase" then Text.lower text
  else if transform == "capitalize" then capitalize true text
  else text

namespace Styled

def style : Styled α → Properties
  | .text _ style _ => style
  | .element _ style _ _ => style

def fontSize : Styled α → α
  | .text _ _ fontSize => fontSize
  | .element _ _ fontSize _ => fontSize

def tag : Styled α → Text
  | .text .. => Html.textTag
  | .element head .. => head.tag

def attributes : Styled α → Properties
  | .text .. => ∅
  | .element head .. => head.attributes

def children : Styled α → List (Styled α)
  | .text .. => []
  | .element _ _ _ children => children

def isText : Styled α → Bool
  | .text .. => true
  | .element .. => false

def shownText : Styled α → Text
  | .text content style _ => transformText style content
  | .element .. => []

/-- The value of a style property in canonical form, empty when there is none. -/
def value (node : Styled α) (property : Text) : Text :=
  styleValueOf node.style property

def valueD (node : Styled α) (property default : Text) : Text :=
  styleValue node.style property default

def isInline (node : Styled α) : Bool :=
  node.isText || (node.tag != "img" && node.valueD "display" "inline" == "inline")

def isAbsolute (node : Styled α) : Bool :=
  let position := node.value "position"
  position == "absolute" || position == "fixed"

/-- The node is what absolute boxes inside it are placed against. -/
def isPositioned (node : Styled α) : Bool :=
  node.valueD "position" "static" != "static"

def isFlex (node : Styled α) : Bool :=
  let display := node.value "display"
  display == "flex" || display == "inline-flex"

def isBorderBox (node : Styled α) : Bool :=
  node.value "box-sizing" == "border-box"

def isHidden (node : Styled α) : Bool :=
  !node.isText && node.value "display" == "none"

def isBlankText : Styled α → Bool
  | .text content _ _ => Text.isBlank content
  | .element .. => false

def isFlowBlock (node : Styled α) : Bool :=
  !node.isInline && !node.isAbsolute

end Styled

/-- What a node passes on to the nodes inside it. -/
structure Surroundings (α : Type) where
  style : Properties
  fontSize : α

/-- The border properties of one side resolved: the width to pixels, zero for a border that is not
drawn, and the color to the color of text where none is set. -/
def settleBorder (α : Type) [Scalar α] (style : Properties) (side : Side) : Properties :=
  let property := Css.sideProperty "border" side
  let line := styleValue style (property "style") "none"
  let width : α :=
    if line == "none" || line == "hidden" then 0.0
    else resolveBorderWidth (styleValue style (property "width") "medium")
  let color := styleValue style (property "color") "currentcolor"
  let style := style.insert (property "width") (writtenPixels width)
  let style := style.insert (property "style") line
  if color == "currentcolor" then style.insert (property "color") (style.getD "color" []) else style

variable [Scalar α]

def settle (outer : Surroundings α) (cascaded : Properties) : Surroundings α :=
  let style := Css.inherit outer.style cascaded
  let fontSize :=
    match style.get? "font-size" with
    | none => outer.fontSize
    | some raw => resolveFontSize raw outer.fontSize
  let style := style.insert "font-size" (writtenPixels fontSize)
  let style := style.insertNew "color" "#000000"
  ⟨Side.all.foldl (settleBorder α) style, fontSize⟩

/-- The children that an element shows. White space between blocks, and in a flex container, is
not shown. -/
def shownChildren (isFlex : Bool) (children : List (Styled α)) : List (Styled α) :=
  let visible := children.filter (!·.isHidden)
  if isFlex || visible.any Styled.isFlowBlock then visible.filter (!·.isBlankText) else visible

/-- An element with its settled style and the children it shows. White space is dropped once all
children are there. -/
def assembleElement (head : Element) (own : Surroundings α)
    (inside : Progress (List (Styled α))) : Styled α :=
  let isFlex := (Styled.element head own.style own.fontSize []).isFlex
  .element head own.style own.fontSize
    (if inside.complete then shownChildren isFlex inside.state
      else inside.state.filter (!·.isHidden))

def Styled.unset : Styled α := .element ⟨[], ∅⟩ ∅ defaultFontSize []

mutual

/-- The styled tree of a node, polling before each node and after each child. -/
def styleNode (sheets : List (Option Stylesheet)) (ancestors : List Element) (outer : Surroundings α) :
    Html.Node → Polling (Styled α)
  | .text content => do
      if ← poll then return .unset
      return .text content (outer.style.filterKeys Css.isInherited) outer.fontSize
  | .element head children => do
      if ← poll then return .unset
      let own := settle outer (Css.computedStyle sheets ancestors head)
      let inside ← styleNodes sheets (head :: ancestors) own children
      return assembleElement head own inside

def styleNodes (sheets : List (Option Stylesheet)) (ancestors : List Element) (outer : Surroundings α) :
    List Html.Node → Polling (Progress (List (Styled α)))
  | [] => return ⟨[], true⟩
  | node :: rest => do
      let first ← styleNode sheets ancestors outer node
      if ← poll then return ⟨[], false⟩
      let others ← styleNodes sheets ancestors outer rest
      return ⟨first :: others.state, others.complete⟩

end

def documentElement : Element := ⟨Html.documentTag, ∅⟩

def styleDocument (author : Stylesheet) (document : Html.Document) : Polling (Styled α) := do
  if ← poll then return .unset
  let own := settle ⟨∅, defaultFontSize⟩ ∅
  let inside ← styleNodes [some Stylesheet.userAgent, some author] [] own document.children
  return assembleElement documentElement own inside

end SlidePress.Layout
