import SlidePress.Table

/-! Document trees: elements with a tag, attributes and children, and texts. A tree knows nothing
of where it stands, so whatever depends on ancestors is told them; `Document.located` lists every
element together with the elements around it, innermost first. -/
namespace SlidePress.Html

structure Element where
  tag : Text
  attributes : Properties

namespace Element

/-- The value of an attribute, empty when the element does not have it. -/
def valueOf (element : Element) (name : Text) : Text :=
  element.attributes.getD name []

def hasAttribute (element : Element) (name : Text) : Bool :=
  element.attributes.contains name

/-- The name is one of the words of the class attribute. -/
def hasClass (element : Element) (name : Text) : Bool :=
  (Text.words (element.valueOf "class")).contains name

end Element

inductive Node where
  | text (content : Text)
  | element (head : Element) (children : List Node)

structure Document where
  children : List Node

/-- An element in its document: the elements around it, innermost first, and what it holds. -/
structure Located where
  ancestors : List Element
  head : Element
  children : List Node

/-- The tag by which a document is known as a parent. -/
def documentTag : Text := "#document"

def textTag : Text := "#text"

mutual

def Node.innerText : Node → Text
  | .text content => content
  | .element _ children => innerTexts children

def innerTexts : List Node → Text
  | [] => []
  | node :: rest => node.innerText ++ innerTexts rest

end

mutual

/-- The elements of a node in document order, each with the elements around it. -/
def Node.located (ancestors : List Element) : Node → List Located
  | .text _ => []
  | .element head children => ⟨ancestors, head, children⟩ :: locatedAll (head :: ancestors) children

def locatedAll (ancestors : List Element) : List Node → List Located
  | [] => []
  | node :: rest => node.located ancestors ++ locatedAll ancestors rest

end

def outlineAttributes (attributes : Properties) : Text :=
  attributes.entries.flatMap fun (name, value) => " " ++ name ++ "=\"" ++ value ++ "\""

mutual

def Node.outline : Node → Text
  | .text content => "\"" ++ content ++ "\""
  | .element head children =>
      "<" ++ head.tag ++ outlineAttributes head.attributes ++ ">[" ++ outlineAll children ++ "]"

def outlineAll : List Node → Text
  | [] => []
  | [last] => last.outline
  | node :: rest => node.outline ++ "," ++ outlineAll rest

end

namespace Document

def innerText (document : Document) : Text :=
  innerTexts document.children

def located (document : Document) : List Located :=
  locatedAll [] document.children

/-- The elements with a tag, in document order; the tag may be given in either case. -/
def withTag (document : Document) (tag : Text) : List Located :=
  document.located.filter (·.head.tag == Text.lower tag)

def outline (document : Document) : Text :=
  documentTag ++ "[" ++ outlineAll document.children ++ "]"

end Document

namespace Located

def node (found : Located) : Node :=
  .element found.head found.children

/-- The tag of the parent, which is the document for an element with nothing around it. -/
def parentTag (found : Located) : Text :=
  match found.ancestors with
  | [] => documentTag
  | parent :: _ => parent.tag

end Located

end SlidePress.Html
