import SlidePress.Html.Node

/-! Style sheets inside a document. -/
namespace SlidePress.Html

mutual

/-- The contents of the style elements of a node, each with a line end after it. -/
def Node.styleText : Node → Text
  | .text _ => []
  | .element head children =>
      if head.tag == "style" then innerTexts children ++ "\n" else styleTexts children

def styleTexts : List Node → Text
  | [] => []
  | node :: rest => node.styleText ++ styleTexts rest

end

def Document.styleText (document : Document) : Text :=
  styleTexts document.children

end SlidePress.Html
