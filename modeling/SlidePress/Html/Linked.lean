import SlidePress.Html.Node

/-! Nodes as they are stored: each of them has a link to the node that it was added to. A link is the
way from the document to a node, which stays the same for good, as nodes are only ever added behind
those that are there. The tree that a document shows is what is left without the links. -/
namespace SlidePress.Html

/-- At each level the number of siblings before the node on the way; empty for the document. -/
abbrev Link := List Nat

inductive Linked where
  | text (parent : Link) (content : Text)
  | element (parent : Link) (head : Element) (children : List Linked)

namespace Linked

def parent : Linked → Link
  | .text parent _ => parent
  | .element parent _ _ => parent

def children : Linked → List Linked
  | .text _ _ => []
  | .element _ _ children => children

end Linked

mutual

def Linked.node : Linked → Node
  | .text _ content => .text content
  | .element _ head children => .element head (nodesOf children)

def nodesOf : List Linked → List Node
  | [] => []
  | child :: rest => child.node :: nodesOf rest

end

theorem nodesOf_eq_map (children : List Linked) : nodesOf children = children.map Linked.node := by
  induction children with
  | nil => rfl
  | cons child rest ih => rw [nodesOf, List.map_cons, ih]

theorem nodesOf_reverse (children : List Linked) :
    nodesOf children.reverse = (nodesOf children).reverse := by
  rw [nodesOf_eq_map, nodesOf_eq_map, List.map_reverse]

/-- The children of the node that a link leads to. -/
def childrenAt? : List Linked → Link → Option (List Linked)
  | children, [] => some children
  | children, index :: below =>
      match children[index]? with
      | some child => childrenAt? child.children below
      | none => none

end SlidePress.Html
