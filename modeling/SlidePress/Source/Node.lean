import SlidePress.Rect
import SlidePress.Source.Kind
import SlidePress.Style.Snapshot

/-! Source trees: the nodes of a laid-out page that a slide is made from, with boxes in points.
Every node has its number in document order and a path of tags with counts among siblings. -/
namespace SlidePress.Source

open Style (Snapshot)

structure Node where
  tag : Text
  attributes : Properties
  text : Text
  style : Snapshot
  box : Rect Number
  children : List Node
  /-- The number in document order, 0 for the root. -/
  order : Nat := 0
  /-- The tags from the root down, each below the root with its count among equal siblings. -/
  path : Text := []

/-- What is kept of a node to name it later. -/
structure NodeRef where
  order : Nat := 0
  tag : Text := []
  id : Text := []
  path : Text := []
  deriving DecidableEq

structure Size where
  width : Number
  height : Number

structure Tree where
  root : Option Node
  /-- The size that the page gives its body. -/
  declared : Size

namespace Node

def kind (node : Node) : Kind := Kind.ofTag node.tag

/-- The value of an attribute, empty when the node does not have it. -/
def valueOf (node : Node) (name : Text) : Text :=
  node.attributes.getD name []

def hasAttribute (node : Node) (name : Text) : Bool :=
  node.attributes.contains name

def hasClass (node : Node) (name : Text) : Bool :=
  (Text.words (node.valueOf "class")).contains name

def ref (node : Node) : NodeRef :=
  ⟨node.order, node.tag, node.valueOf "id", node.path⟩

end Node

mutual

def Node.subtree : Node → List Node
  | ⟨tag, attributes, text, style, box, children, order, path⟩ =>
      ⟨tag, attributes, text, style, box, children, order, path⟩ :: subtrees children

def subtrees : List Node → List Node
  | [] => []
  | node :: rest => node.subtree ++ subtrees rest

end

def Node.inside (node : Node) : List Node := subtrees node.children

/-- The path of a child from the path of its parent and the tags of its elder siblings. -/
def childPath (path : Text) (elder : List Text) (tag : Text) : Text :=
  path ++ "/" ++ tag ++ "[" ++ Text.ofNat (elder.count tag) ++ "]"

mutual

/-- A node numbered from a number on, and the number after its subtree. -/
def Node.numberFrom (order : Nat) (path : Text) : Node → Node × Nat
  | ⟨tag, attributes, text, style, box, children, _, _⟩ =>
      let (numbered, next) := numberAll path [] (order + 1) children
      (⟨tag, attributes, text, style, box, numbered, order, path⟩, next)

def numberAll (path : Text) (elder : List Text) (order : Nat) : List Node → List Node × Nat
  | [] => ([], order)
  | node :: rest =>
      let (first, next) := node.numberFrom order (childPath path elder node.tag)
      let (others, last) := numberAll path (elder ++ [node.tag]) next rest
      (first :: others, last)

end

/-- A tree with the numbers and paths of all its nodes set. -/
def Node.numbered (root : Node) : Node :=
  (root.numberFrom 0 root.tag).1

def Tree.numbered (tree : Tree) : Tree := { tree with root := tree.root.map Node.numbered }

def Tree.size (tree : Tree) : Nat :=
  match tree.root with
  | some root => root.subtree.length
  | none => 0

end SlidePress.Source
