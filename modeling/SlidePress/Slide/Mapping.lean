import SlidePress.Slide.Shape
import SlidePress.Slide.TextBlock
import SlidePress.Source.CollapsedText
import SlidePress.Text.Utf8

/-! From a source tree and its roles to primitives. Every node with a role of its own becomes a
primitive, in document order; style that has no place on a slide is reported as a finding, and
what is left out silently is noted as a degradation. -/
namespace SlidePress.Slide

open Source (Node NodeRef Tree Kind)
open Style

inductive FindingKind where
  | styleOnText
  | gradient
  deriving DecidableEq, Repr

structure Finding where
  kind : FindingKind
  node : NodeRef
  detail : Text

structure MappedDocument where
  primitives : List Primitive := []
  findings : List Finding := []
  /-- What was dropped, in words. -/
  degradations : List Text := []
  /-- The background of the slide, when it shows. -/
  background : Option Color := none

/-- A mapping under way: what was found so far, latest first, and how many primitives of each kind
have been named. -/
structure Mapping where
  primitives : List Primitive := []
  findings : List Finding := []
  degradations : List Text := []
  texts : Nat := 0
  shapes : Nat := 0
  images : Nat := 0
  placeholders : Nat := 0

structure MappingContext where
  roles : List Role
  /-- The names that placeholders bring with them. -/
  authorIds : List Text
  excerptLimit : Nat

def numberedId (stem : Text) (number : Nat) : Text :=
  stem ++ "-" ++ Text.ofNat number

def headerOf (node : Node) (id : Text) : Header :=
  ⟨id, node.box, node.order, node.ref⟩

def gradientFinding? (limit : Nat) (node : Node) : Option Finding :=
  let image := node.style.get "background-image"
  if isGradient image then
    some ⟨.gradient, node.ref,
      "Gradient background on <" ++ node.tag ++
        "> cannot be converted; pre-render it as an image: " ++ Utf8.excerpt limit image⟩
  else none

/-- The finding of style on text that only a shape can show. -/
def styleFinding? (limit : Nat) (node : Node) : Option Finding :=
  let properties := shapeProperties node
  if properties.isEmpty then none
  else
    some ⟨.styleOnText, node.ref,
      "<" ++ node.tag ++ "> has " ++ Text.join ", " properties ++
        "; move it to a wrapping <div>: \"" ++ Utf8.excerpt limit node.collapsedText ++ "\""⟩

/-- The findings at the nodes of a text block, texts apart, in document order. -/
def textFindings (limit : Nat) (block : Node) : List Finding :=
  (block.subtree.filter (·.kind != .text)).flatMap fun node =>
    (styleFinding? limit node).toList ++ (gradientFinding? limit node).toList

def isShownImage (node : Node) : Bool :=
  node.kind == .image && !(node.valueOf "src").isEmpty

/-- The least number above another one whose name no author has taken. Among one more candidates
than there are taken names one is free. -/
def freePlaceholder (taken : List Text) (above : Nat) : Nat :=
  let candidates := (List.range (taken.length + 1)).map (above + 1 + ·)
  (candidates.find? fun number => !taken.contains (numberedId "placeholder" number)).getD
    (above + 1)

namespace Mapping

def emit (mapping : Mapping) (primitive : Primitive) : Mapping :=
  { mapping with primitives := primitive :: mapping.primitives }

def note (mapping : Mapping) (findings : List Finding) : Mapping :=
  { mapping with findings := findings.reverse ++ mapping.findings }

def degrade (mapping : Mapping) (what : Text) : Mapping :=
  { mapping with degradations := what :: mapping.degradations }

/-- An image primitive. The attributes of an image give its natural size. -/
def emitImage (mapping : Mapping) (node : Node) : Mapping :=
  let number := mapping.images + 1
  let fitted := fitImage node.box (Number.leading (node.valueOf "width"))
    (Number.leading (node.valueOf "height"))
  { mapping with images := number }.emit
    ⟨headerOf node (numberedId "image" number), .image (node.valueOf "src") fitted⟩

/-- A text block: its findings, its text unless it is empty, and the images inside it. -/
def addText (limit : Nat) (mapping : Mapping) (node : Node) : Mapping :=
  let mapping := mapping.note (textFindings limit node)
  let content := textContent node
  let mapping :=
    if content.runs.isEmpty then
      mapping.degrade ("empty <" ++ node.tag ++ "> at " ++ node.path)
    else
      let number := mapping.texts + 1
      { mapping with texts := number }.emit
        ⟨headerOf node (numberedId "text" number), .text content⟩
  (node.inside.filter isShownImage).foldl emitImage mapping

def addShape (limit : Nat) (mapping : Mapping) (node : Node) : Mapping :=
  let mapping := mapping.note (gradientFinding? limit node).toList
  let mapping := (droppedStyle node).foldl
    (fun mapping what => mapping.degrade (what ++ " on <" ++ node.tag ++ "> at " ++ node.path))
    mapping
  let number := mapping.shapes + 1
  { mapping with shapes := number }.emit
    ⟨headerOf node (numberedId "shape" number), .shape (shapeStyle node)⟩

/-- A placeholder under its own name, or under a free one. -/
def addPlaceholder (authorIds : List Text) (mapping : Mapping) (node : Node) : Mapping :=
  let own := placeholderId node
  if own.isEmpty then
    let number := freePlaceholder authorIds mapping.placeholders
    { mapping with placeholders := number }.emit
      ⟨headerOf node (numberedId "placeholder" number), .placeholder⟩
  else mapping.emit ⟨headerOf node own, .placeholder⟩

/-- A node that becomes nothing. Text that is lost this way is noted. -/
def addIgnorable (limit : Nat) (mapping : Mapping) (node : Node) : Mapping :=
  if node.kind == .text then
    let text := node.collapsedText
    if text.isEmpty then mapping
    else
      mapping.degrade
        ("text outside a text element at " ++ node.path ++ ": \"" ++ Utf8.excerpt limit text ++
          "\"")
  else mapping

def add (context : MappingContext) (mapping : Mapping) (node : Node) : Mapping :=
  match roleOf context.roles node with
  | .textBlock => mapping.addText context.excerptLimit node
  | .shapeContainer => mapping.addShape context.excerptLimit node
  | .image => mapping.emitImage node
  | .placeholder => mapping.addPlaceholder context.authorIds node
  | .ignorable => mapping.addIgnorable context.excerptLimit node
  | .inline => mapping

mutual

/-- A node and what is inside it. Only inside shapes and ignorable nodes is there more to find. -/
def visit (context : MappingContext) : Node → Mapping → Mapping
  | ⟨tag, attributes, text, style, box, children, order, path⟩, mapping =>
      let node : Node := ⟨tag, attributes, text, style, box, children, order, path⟩
      let mapping := mapping.add context node
      match roleOf context.roles node with
      | .shapeContainer | .ignorable => visitAll context children mapping
      | _ => mapping

def visitAll (context : MappingContext) : List Node → Mapping → Mapping
  | [], mapping => mapping
  | node :: rest, mapping => visitAll context rest (visit context node mapping)

end

end Mapping

def authorIds (roles : List Role) (root : Node) : List Text :=
  ((root.subtree.filter (roleOf roles · == .placeholder)).map placeholderId).filter (! ·.isEmpty)

def mapDocument (roles : List Role) (excerptLimit : Nat) (tree : Tree) : MappedDocument :=
  match tree.root with
  | none => {}
  | some root =>
      let mapping :=
        Mapping.visitAll ⟨roles, authorIds roles root, excerptLimit⟩ root.children {}
      { primitives := mapping.primitives.reverse
        findings := mapping.findings.reverse
        degradations := mapping.degradations.reverse
        background := visibleFill? root.style }

end SlidePress.Slide
