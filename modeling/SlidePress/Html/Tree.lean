import SlidePress.Html.Linked
import SlidePress.Html.Token

/-! Trees from tokens. A stack holds the open elements, innermost first; a token adds to the
innermost one, opens an element or closes some. Every token sequence gives a tree, and every
repair on the way leaves a warning. -/
namespace SlidePress.Html

inductive Warning where
  | strayBracket
  | unclosedComment
  | unclosedDeclaration
  /-- An end tag while no element is open. -/
  | orphanEndTag (tag : Text)
  /-- An end tag that no open element has. -/
  | unmatchedEndTag (tag : Text)
  /-- An element closed by the end tag of an element around it. -/
  | closedBy (tag outer : Text)
  | unclosedRawText (tag : Text)
  | unclosedElement (tag : Text)
  deriving DecidableEq

namespace Warning

def message : Warning → Text
  | .strayBracket => "Bare '<' treated as text"
  | .unclosedComment => "Unclosed HTML comment"
  | .unclosedDeclaration => "Unclosed declaration/DOCTYPE"
  | .orphanEndTag tag => "Orphan end tag </" ++ tag ++ "> with no matching open tag"
  | .unmatchedEndTag tag => "Unmatched end tag </" ++ tag ++ ">"
  | .closedBy tag outer => "Element <" ++ tag ++ "> implicitly closed by </" ++ outer ++ ">"
  | .unclosedRawText tag => "Unclosed <" ++ tag ++ ">"
  | .unclosedElement tag => "Unclosed element <" ++ tag ++ ">"

def recovery : Warning → Text
  | .strayBracket => "Inserted literal '<' into text content"
  | .unclosedComment => "Consumed remaining input as comment"
  | .unclosedDeclaration => "Consumed remaining input as declaration"
  | .orphanEndTag _ => "Ignored orphan end tag"
  | .unmatchedEndTag _ => "Ignored unmatched end tag"
  | .closedBy _ _ => "Implicitly closed intervening element"
  | .unclosedRawText _ => "Consumed remaining input as raw text"
  | .unclosedElement _ => "Implicitly closed at end of document"

end Warning

def voidTags : List Text :=
  ["area", "base", "br", "col", "embed", "hr", "img", "input", "link", "meta", "param", "source",
    "track", "wbr"]

/-- Elements that close an open paragraph when they begin. -/
def paragraphClosers : List Text :=
  ["address", "article", "aside", "blockquote", "div", "dl", "fieldset", "footer", "form", "h1",
    "h2", "h3", "h4", "h5", "h6", "header", "hr", "main", "nav", "ol", "p", "pre", "section",
    "table", "ul"]

/-- Elements past which nothing is closed by the beginning of another element. -/
def closingBoundaries : List Text := ["ul", "ol", "table"]

/-- An open element with its link and the children it has so far, latest first. -/
structure Frame where
  parent : Link
  head : Element
  children : List Linked

/-- Children of a node, latest first, with a text added; it joins a text that stands last. -/
def addText (parent : Link) (content : Text) (children : List Linked) : List Linked :=
  if content.isEmpty then children
  else match children with
    | .text link previous :: rest => .text link (previous ++ content) :: rest
    | _ => .text parent content :: children

/-- A document under construction: its open elements, innermost first, the finished children of
the document itself and the warnings so far, both latest first. -/
structure Builder where
  frames : List Frame
  roots : List Linked
  warnings : List Warning

/-- The children so far of the innermost of some open elements, or else of the document. -/
def openChildren (roots : List Linked) : List Frame → List Linked
  | [] => roots
  | frame :: _ => frame.children

/-- The way to the innermost of some open elements: it comes behind the finished children of the one
around it. -/
def linkTo (roots : List Linked) : List Frame → Link
  | [] => []
  | _ :: outer => linkTo roots outer ++ [(openChildren roots outer).length]

namespace Builder

def start : Builder := ⟨[], [], []⟩

def here (builder : Builder) : Link := linkTo builder.roots builder.frames

def children (builder : Builder) : List Linked := openChildren builder.roots builder.frames

def change (builder : Builder) (edit : List Linked → List Linked) : Builder :=
  match builder.frames with
  | [] => { builder with roots := edit builder.roots }
  | frame :: outer =>
      { builder with frames := { frame with children := edit frame.children } :: outer }

def warn (builder : Builder) (warning : Warning) : Builder :=
  { builder with warnings := warning :: builder.warnings }

def close (builder : Builder) : Builder :=
  match builder.frames with
  | [] => builder
  | frame :: outer =>
      { builder with frames := outer }.change
        (.element frame.parent frame.head frame.children.reverse :: ·)

def closeMany : Nat → Builder → Builder
  | 0, builder => builder
  | count + 1, builder => closeMany count builder.close

/-- The number of frames to close so that the innermost element with a tag is closed. The search
ends at an element that is a boundary. -/
def framesTo? (tag : Text) (boundaries : List Text) : List Frame → Option Nat
  | [] => none
  | frame :: outer =>
      if frame.head.tag == tag then some 1
      else if boundaries.contains frame.head.tag then none
      else (framesTo? tag boundaries outer).map (· + 1)

def closeImplicitly (tag : Text) (builder : Builder) : Builder :=
  match framesTo? tag closingBoundaries builder.frames with
  | some count => closeMany count builder
  | none => builder

def prepareFor (tag : Text) (builder : Builder) : Builder :=
  let builder := if paragraphClosers.contains tag then closeImplicitly "p" builder else builder
  if tag == "li" then closeImplicitly "li" builder else builder

def endTag (tag : Text) (builder : Builder) : Builder :=
  if tag.isEmpty then builder
  else if builder.frames.isEmpty then builder.warn (.orphanEndTag tag)
  else match framesTo? tag [] builder.frames with
    | none => builder.warn (.unmatchedEndTag tag)
    | some count =>
        let between := builder.frames.take (count - 1)
        closeMany count
          (between.foldl (fun builder frame => builder.warn (.closedBy frame.head.tag tag)) builder)

def add (builder : Builder) : Token → Builder
  | .text content => builder.change (addText builder.here content)
  | .strayBracket => (builder.warn .strayBracket).change (addText builder.here "<")
  | .comment closed => if closed then builder else builder.warn .unclosedComment
  | .declaration closed => if closed then builder else builder.warn .unclosedDeclaration
  | .endTag tag => builder.endTag tag
  | .startTag head selfClosing =>
      let builder := prepareFor head.tag builder
      if selfClosing || voidTags.contains head.tag then
        builder.change (.element builder.here head [] :: ·)
      else { builder with frames := ⟨builder.here, head, []⟩ :: builder.frames }
  | .rawElement head content closed =>
      let builder := prepareFor head.tag builder
      let builder := if closed then builder else builder.warn (.unclosedRawText head.tag)
      let own := builder.here ++ [builder.children.length]
      builder.change (.element builder.here head (addText own content []) :: ·)

/-- The nodes of the document with everything closed that is still open, and the warnings in
order. -/
def finish (builder : Builder) : List Linked × List Warning :=
  let unclosed := builder.frames.map fun frame => Warning.unclosedElement frame.head.tag
  let closed := closeMany builder.frames.length builder
  (closed.roots.reverse, builder.warnings.reverse ++ unclosed)

end Builder

def Linked.parse (html : Text) : List Linked × List Warning :=
  ((Token.readAll html).foldl Builder.add Builder.start).finish

def Document.parse (html : Text) : Document × List Warning :=
  let (nodes, warnings) := Linked.parse html
  (⟨nodesOf nodes⟩, warnings)

end SlidePress.Html
