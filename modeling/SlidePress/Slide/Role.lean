import SlidePress.Source.Node

/-! Roles: what becomes of each node of a source tree. The role of a node stands in the list of roles
under its number. -/
namespace SlidePress.Slide

open Source (Node Tree Kind)
open Style

inductive Role where
  | textBlock
  | shapeContainer
  | image
  | placeholder
  | ignorable
  /-- Inside a text block: adds to its text and is nothing by itself. -/
  | inline
  deriving DecidableEq, Repr

namespace Role

def name : Role → Text
  | .textBlock => "text-block"
  | .shapeContainer => "shape-container"
  | .image => "image"
  | .placeholder => "placeholder"
  | .ignorable => "ignorable"
  | .inline => "inline"

def all : List Role :=
  [.textBlock, .shapeContainer, .image, .placeholder, .ignorable, .inline]

def ofName? (name : Text) : Option Role :=
  all.find? (·.name == name)

end Role

mutual

def hasVisibleText : Node → Bool
  | ⟨tag, _, text, _, _, children, _, _⟩ =>
      if Kind.ofTag tag == .text then !Text.isBlank text else anyVisibleText children

def anyVisibleText : List Node → Bool
  | [] => false
  | node :: rest => hasVisibleText node || anyVisibleText rest

end

mutual

/-- An inline element with visible text and nothing inside but texts, line breaks and inline
elements of the same sort. -/
def isTextOnlyInline : Node → Bool
  | ⟨tag, _, _, _, _, children, _, _⟩ =>
      Kind.ofTag tag == .inline && allTextOnly children && anyVisibleText children

def allTextOnly : List Node → Bool
  | [] => true
  | node :: rest =>
      (node.kind == .text || node.kind == .lineBreak || isTextOnlyInline node) && allTextOnly rest

end

def isTextBearing (node : Node) : Bool :=
  match node.kind with
  | .paragraph | .heading | .list | .listItem => true
  | .inline => isTextOnlyInline node
  | _ => false

def isPlaceholder (placeholderClass : Text) (node : Node) : Bool :=
  node.kind != .text &&
    (node.hasAttribute "data-placeholder" ||
      (!placeholderClass.isEmpty && node.hasClass placeholderClass))

/-- The name under which a placeholder is known: its identifier, else the value that marks it. -/
def placeholderId (node : Node) : Text :=
  Css.orElse (node.valueOf "id") (node.valueOf "data-placeholder")

def visibleFill? (style : Snapshot) : Option Color :=
  (Color.parse? (style.get "background-color") style.textColor).filter Color.isVisible

def hasVisibleBorder (style : Snapshot) : Bool :=
  Side.all.any fun side => (style.borderSide side).isVisible

def hasOuterShadow (style : Snapshot) : Bool :=
  (BoxShadow.parseList style.textColor (style.get "box-shadow")).any (!·.inset)

def hasRadius (style : Snapshot) : Bool :=
  (firstRadius? (style.get "border-radius")).any fun radius => decide (0 < radius.value)

/-- The properties of a node that only a shape can show, by name. A gradient is not among them. -/
def shapeProperties (node : Node) : List Text :=
  let style := node.style
  [("background-color", (visibleFill? style).isSome), ("border", hasVisibleBorder style),
    ("box-shadow", hasOuterShadow style), ("border-radius", hasRadius style)].filterMap
    fun (name, present) => if present then some (Text.ofString name) else none

/-- The node shows something of its own: a fill, a gradient, a border, a shadow or round
corners. -/
def hasShapeStyle (node : Node) : Bool :=
  let style := node.style
  (visibleFill? style).isSome || isGradient (style.get "background-image") ||
    hasVisibleBorder style || hasOuterShadow style || hasRadius style

/-- A role written under the number of a node; nothing is written behind the end of the list. -/
def assign (role : Role) (roles : List Role) (node : Node) : List Role :=
  roles.set node.order role

def markInside (role : Role) (roles : List Role) (node : Node) : List Role :=
  node.inside.foldl (assign role) roles

mutual

/-- The role of a node written, and the roles inside it: one for all where the node stands for its
content, each of its own inside a container. Inside a text or a line break nothing is written. -/
def classifyNode (placeholderClass : Text) : Node → List Role → List Role
  | ⟨tag, attributes, text, style, box, children, order, path⟩, roles =>
      let node : Node := ⟨tag, attributes, text, style, box, children, order, path⟩
      if isPlaceholder placeholderClass node then
        markInside .ignorable (assign .placeholder roles node) node
      else if node.kind == .image && !(node.valueOf "src").isEmpty then
        markInside .ignorable (assign .image roles node) node
      else if isTextBearing node then markInside .inline (assign .textBlock roles node) node
      else if node.kind == .text || node.kind == .lineBreak then assign .ignorable roles node
      else
        let own : Role := if hasShapeStyle node then .shapeContainer else .ignorable
        classifyAll placeholderClass children (assign own roles node)

def classifyAll (placeholderClass : Text) : List Node → List Role → List Role
  | [], roles => roles
  | node :: rest, roles => classifyAll placeholderClass rest (classifyNode placeholderClass node roles)

end

/-- The roles of a tree. The root is the slide itself. -/
def classify (placeholderClass : Text) (tree : Tree) : List Role :=
  match tree.root with
  | some root =>
      classifyAll placeholderClass root.children (List.replicate tree.size .ignorable)
  | none => []

/-- The role of a node; a node that the list does not reach is ignorable. -/
def roleOf (roles : List Role) (node : Node) : Role :=
  (roles[node.order]?).getD .ignorable

end SlidePress.Slide
