import SlidePress.Source.Node

/-! The primitives that a slide consists of: texts, shapes, images and placeholders, each with a
name, a frame in points, a place in the drawing order and the node it comes from. -/
namespace SlidePress.Slide

open Source (NodeRef)
open Style (Color)

inductive TextAlign where
  | left
  | center
  | right
  | justify
  deriving DecidableEq, Repr

namespace TextAlign

def name : TextAlign → Text
  | .left => "left"
  | .center => "center"
  | .right => "right"
  | .justify => "justify"

def all : List TextAlign := [.left, .center, .right, .justify]

def ofName? (name : Text) : Option TextAlign := all.find? (·.name == name)

end TextAlign

inductive ListMarker where
  | none
  | bullet
  | number
  deriving DecidableEq, Repr

namespace ListMarker

def name : ListMarker → Text
  | .none => "none"
  | .bullet => "bullet"
  | .number => "number"

def all : List ListMarker := [.none, .bullet, .number]

def ofName? (name : Text) : Option ListMarker := all.find? (·.name == name)

end ListMarker

inductive DashStyle where
  | solid
  | dash
  | dot
  deriving DecidableEq, Repr

namespace DashStyle

def name : DashStyle → Text
  | .solid => "solid"
  | .dash => "dash"
  | .dot => "dot"

def all : List DashStyle := [.solid, .dash, .dot]

def ofName? (name : Text) : Option DashStyle := all.find? (·.name == name)

end DashStyle

structure TextRun where
  text : Text
  bold : Bool := false
  italic : Bool := false
  underline : Bool := false
  /-- Set only where the color is not that of the whole block. -/
  color : Option Color := none
  align : TextAlign := .left
  /-- The run begins a paragraph. -/
  breakBefore : Bool := false
  marker : ListMarker := .none

/-- The font of a block of text; size and spacing in points. -/
structure Font where
  family : Text := []
  size : Number := 12
  color : Color := Color.black
  lineSpacing : Number := 0

structure Insets where
  left : Number := 0
  top : Number := 0
  right : Number := 0
  bottom : Number := 0

structure TextContent where
  runs : List TextRun := []
  font : Font := {}
  insets : Insets := {}

structure Outline where
  color : Color := Color.black
  width : Number := 0
  dash : DashStyle := .solid
  top : Bool := false
  right : Bool := false
  bottom : Bool := false
  left : Bool := false

def Outline.allSides (outline : Outline) : Bool :=
  outline.top && outline.right && outline.bottom && outline.left

/-- A shadow by the direction in which it is cast, in degrees clockwise from the right. -/
structure Shadow where
  color : Color := Color.black
  angle : Number := 0
  distance : Number := 0
  blur : Number := 0
  opacity : Number := 1

structure ShapeStyle where
  fill : Option Color := none
  outline : Option Outline := none
  cornerRadius : Number := 0
  shadow : Option Shadow := none

structure Header where
  id : Text := []
  frame : Rect Number
  /-- Primitives with a higher number are drawn over those with a lower one. -/
  zOrder : Nat := 0
  source : NodeRef := {}

inductive Body where
  | text (content : TextContent)
  | shape (style : ShapeStyle)
  /-- An image with the largest box of its proportions inside the frame. -/
  | image (source : Text) (fitted : Rect Number)
  | placeholder

structure Primitive where
  header : Header
  body : Body

def Body.kindName : Body → Text
  | .text _ => "text"
  | .shape _ => "shape"
  | .image .. => "image"
  | .placeholder => "placeholder"

def Primitive.kindName (primitive : Primitive) : Text := primitive.body.kindName

end SlidePress.Slide
