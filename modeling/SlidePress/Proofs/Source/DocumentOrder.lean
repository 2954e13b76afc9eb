import Mathlib.Data.List.Basic
import SlidePress.Source.Node

/-! Document order. Numbering a tree gives its nodes the numbers 0, 1, 2 and so on in document
order, so that the number of a node is its place in the list of all nodes. A placed node is one
together with the nodes around it; listing placed nodes goes through the tree in the same order. -/

namespace SlidePress.Source

/-- Induction over a tree, from the children of a node to the node. -/
@[elab_as_elim]
theorem Node.byChildren {motive : Node → Prop}
    (step : ∀ node : Node, (∀ child ∈ node.children, motive child) → motive node) (node : Node) :
    motive node :=
  step node fun child _ => Node.byChildren step child
termination_by sizeOf node
decreasing_by
  rename_i member
  obtain ⟨tag, attributes, text, style, box, children, order, path⟩ := node
  have smaller := List.sizeOf_lt_of_mem member
  simp only [Node.mk.sizeOf_spec] at smaller ⊢
  omega

theorem Node.subtree_eq (node : Node) : node.subtree = node :: node.inside := by
  cases node
  rfl

theorem subtrees_eq_flatMap (nodes : List Node) : subtrees nodes = nodes.flatMap Node.subtree := by
  induction nodes with
  | nil => rfl
  | cons node rest ih => rw [subtrees, List.flatMap_cons, ih]

/-- What is inside a node of a subtree is in the subtree. -/
theorem mem_subtree_trans {inner other : Node} (within : inner ∈ other.subtree) (node : Node) :
    other ∈ node.subtree → inner ∈ node.subtree := by
  induction node using Node.byChildren with
  | step node ih =>
      intro member
      rw [Node.subtree_eq, Node.inside, subtrees_eq_flatMap] at member
      rcases List.mem_cons.mp member with rfl | below
      · exact within
      · obtain ⟨child, isChild, found⟩ := List.mem_flatMap.mp below
        rw [Node.subtree_eq, Node.inside, subtrees_eq_flatMap]
        exact List.mem_cons_of_mem _
          (List.mem_flatMap.mpr ⟨child, isChild, ih child isChild found⟩)

theorem Node.numberFrom_eq (order : Nat) (path : Text) (node : Node) :
    node.numberFrom order path =
      ({ node with children := (numberAll path [] (order + 1) node.children).1, order, path },
        (numberAll path [] (order + 1) node.children).2) := by
  cases node
  rfl

/-- A numbered tree has consecutive numbers in document order, and numbering goes on after them. -/
def NumbersInOrder (node : Node) : Prop :=
  ∀ (order : Nat) (path : Text),
    (node.numberFrom order path).1.subtree.map (·.order) = List.range' order node.subtree.length ∧
      (node.numberFrom order path).2 = order + node.subtree.length

theorem numberAll_inOrder {nodes : List Node} (each : ∀ node ∈ nodes, NumbersInOrder node)
    (path : Text) (elder : List Text) (order : Nat) :
    (subtrees (numberAll path elder order nodes).1).map (·.order) =
        List.range' order (subtrees nodes).length ∧
      (numberAll path elder order nodes).2 = order + (subtrees nodes).length := by
  induction nodes generalizing elder order with
  | nil => exact ⟨rfl, rfl⟩
  | cons node rest ih =>
      obtain ⟨first, next⟩ := each node List.mem_cons_self order (childPath path elder node.tag)
      obtain ⟨others, last⟩ := ih (fun other member => each other (List.mem_cons_of_mem _ member))
        (elder ++ [node.tag]) (order + node.subtree.length)
      simp only [numberAll, subtrees, List.map_append, List.length_append]
      rw [first, next, others, last]
      refine ⟨?_, Nat.add_assoc _ _ _⟩
      rw [← List.range'_append_1]

theorem numbersInOrder (node : Node) : NumbersInOrder node := by
  induction node using Node.byChildren with
  | step node ih =>
      intro order path
      obtain ⟨inner, last⟩ := numberAll_inOrder ih path [] (order + 1)
      rw [Node.numberFrom_eq, Node.subtree_eq, Node.subtree_eq]
      simp only [List.map_cons, List.length_cons, List.range'_succ, Node.inside, inner, last]
      exact ⟨trivial, by omega⟩

/-- The numbers of a numbered tree are the places of its nodes. -/
theorem orders_numbered (root : Node) :
    root.numbered.subtree.map (·.order) = List.range root.numbered.subtree.length := by
  have orders := (numbersInOrder root 0 root.tag).1
  have size := congrArg List.length orders
  rw [List.length_map, List.length_range'] at size
  rw [Node.numbered, orders, size, List.range_eq_range']

structure Placed where
  ancestors : List Node
  node : Node

mutual

/-- The nodes of a subtree in document order, each with the nodes around it. -/
def Node.placed (ancestors : List Node) : Node → List Placed
  | ⟨tag, attributes, text, style, box, children, order, path⟩ =>
      let node : Node := ⟨tag, attributes, text, style, box, children, order, path⟩
      ⟨ancestors, node⟩ :: placedAll (node :: ancestors) children

def placedAll (ancestors : List Node) : List Node → List Placed
  | [] => []
  | node :: rest => node.placed ancestors ++ placedAll ancestors rest

end

def Node.descendants (root : Node) : List Placed := placedAll [root] root.children

theorem Node.placed_eq (ancestors : List Node) (node : Node) :
    node.placed ancestors = ⟨ancestors, node⟩ :: placedAll (node :: ancestors) node.children := by
  cases node
  rfl

theorem placedAll_eq_flatMap (ancestors : List Node) (nodes : List Node) :
    placedAll ancestors nodes = nodes.flatMap (Node.placed ancestors) := by
  induction nodes with
  | nil => rfl
  | cons node rest ih => rw [placedAll, List.flatMap_cons, ih]

theorem map_node_placed (node : Node) :
    ∀ ancestors, (node.placed ancestors).map (·.node) = node.subtree := by
  induction node using Node.byChildren with
  | step node ih =>
      intro ancestors
      rw [Node.placed_eq, Node.subtree_eq, List.map_cons, Node.inside, subtrees_eq_flatMap,
        placedAll_eq_flatMap, List.map_flatMap]
      congr 1
      exact List.flatMap_congr fun child member => ih child member _

/-- Placed nodes are the nodes in document order. -/
theorem map_node_placedAll (ancestors : List Node) (nodes : List Node) :
    (placedAll ancestors nodes).map (·.node) = subtrees nodes := by
  rw [placedAll_eq_flatMap, subtrees_eq_flatMap, List.map_flatMap]
  exact List.flatMap_congr fun node _ => map_node_placed node ancestors

/-- The nodes around a placed node are those around the subtree it was listed from, and nodes of
that subtree before them. -/
theorem ancestors_placed (node : Node) : ∀ ancestors, ∀ placed ∈ node.placed ancestors,
    placed.node ∈ node.subtree ∧
      ∃ inner, placed.ancestors = inner ++ ancestors ∧ ∀ other ∈ inner, other ∈ node.subtree := by
  induction node using Node.byChildren with
  | step node ih =>
      intro ancestors placed member
      rw [Node.placed_eq, placedAll_eq_flatMap] at member
      rw [Node.subtree_eq, Node.inside, subtrees_eq_flatMap]
      rcases List.mem_cons.mp member with rfl | below
      · exact ⟨List.mem_cons_self, [], rfl, fun other inside => nomatch inside⟩
      · obtain ⟨child, isChild, found⟩ := List.mem_flatMap.mp below
        obtain ⟨own, inner, shape, inside⟩ := ih child isChild _ placed found
        have lift : ∀ other ∈ child.subtree,
            other ∈ node :: node.children.flatMap Node.subtree := fun other within =>
          List.mem_cons_of_mem _ (List.mem_flatMap.mpr ⟨child, isChild, within⟩)
        refine ⟨lift _ own, inner ++ [node], by rw [shape, List.append_assoc]; rfl, ?_⟩
        intro other within
        rcases List.mem_append.mp within with deeper | same
        · exact lift other (inside other deeper)
        · rw [List.mem_singleton.mp same]
          exact List.mem_cons_self

theorem ancestors_placedAll {ancestors nodes : List Node} {placed : Placed}
    (member : placed ∈ placedAll ancestors nodes) :
    placed.node ∈ subtrees nodes ∧
      ∃ inner, placed.ancestors = inner ++ ancestors ∧ ∀ other ∈ inner, other ∈ subtrees nodes := by
  rw [placedAll_eq_flatMap] at member
  rw [subtrees_eq_flatMap]
  obtain ⟨node, isNode, found⟩ := List.mem_flatMap.mp member
  obtain ⟨own, inner, shape, inside⟩ := ancestors_placed node ancestors placed found
  exact ⟨List.mem_flatMap.mpr ⟨node, isNode, own⟩, inner, shape,
    fun other within => List.mem_flatMap.mpr ⟨node, isNode, inside other within⟩⟩

/-- A node around a placed node is either around the whole subtree or placed in it itself, and then
the placed node is inside it. -/
theorem ancestor_placed (node : Node) : ∀ ancestors, ∀ placed ∈ node.placed ancestors,
    ∀ {inner outer : List Node} {other : Node}, placed.ancestors = inner ++ other :: outer →
      (∃ between, ancestors = between ++ other :: outer) ∨
        (⟨outer, other⟩ ∈ node.placed ancestors ∧ placed.node ∈ other.inside) := by
  induction node using Node.byChildren with
  | step node ih =>
      intro ancestors placed member inner outer other around
      rw [Node.placed_eq, placedAll_eq_flatMap] at member ⊢
      rcases List.mem_cons.mp member with rfl | below
      · exact .inl ⟨inner, around⟩
      · obtain ⟨child, isChild, found⟩ := List.mem_flatMap.mp below
        rcases ih child isChild _ placed found around with ⟨between, path⟩ | ⟨within, inside⟩
        · cases between with
          | nil =>
              obtain ⟨rfl, rfl⟩ := List.cons.inj path
              refine .inr ⟨List.mem_cons_self, ?_⟩
              rw [Node.inside, subtrees_eq_flatMap]
              exact List.mem_flatMap.mpr
                ⟨child, isChild, (ancestors_placed child _ placed found).1⟩
          | cons first rest => exact .inl ⟨rest, (List.cons.inj path).2⟩
        · exact .inr ⟨List.mem_cons_of_mem _ (List.mem_flatMap.mpr ⟨child, isChild, within⟩), inside⟩

/-- A node around a placed node below a root is the root, or is placed below it itself. -/
theorem ancestor_descendants {root other : Node} {placed : Placed} {inner outer : List Node}
    (member : placed ∈ root.descendants) (around : placed.ancestors = inner ++ other :: outer) :
    other = root ∨ (⟨outer, other⟩ ∈ root.descendants ∧ placed.node ∈ other.inside) := by
  rw [Node.descendants, placedAll_eq_flatMap] at member ⊢
  obtain ⟨child, isChild, found⟩ := List.mem_flatMap.mp member
  rcases ancestor_placed child _ placed found around with ⟨between, path⟩ | ⟨within, inside⟩
  · cases between with
    | nil => exact .inl (List.cons.inj path).1.symm
    | cons first rest => cases rest <;> cases (List.cons.inj path).2
  · exact .inr ⟨List.mem_flatMap.mpr ⟨child, isChild, within⟩, inside⟩

theorem mem_subtree_of_descendants {root : Node} {placed : Placed}
    (member : placed ∈ root.descendants) : placed.node ∈ root.subtree := by
  rw [Node.subtree_eq]
  exact List.mem_cons_of_mem _ (ancestors_placedAll member).1

/-- What tells the nodes of a tree apart tells the placed nodes below its root apart. -/
theorem distinct_descendants {β : Type} {key : Node → β} {root : Node}
    (distinct : (root.subtree.map key).Nodup) :
    (root.descendants.map fun placed => key placed.node).Nodup := by
  rw [Node.subtree_eq, List.map_cons, List.nodup_cons, Node.inside, ← map_node_placedAll [root],
    List.map_map] at distinct
  exact distinct.2

theorem distinct_orders (root : Node) : (root.numbered.subtree.map (·.order)).Nodup := by
  rw [orders_numbered]
  exact List.nodup_range

end SlidePress.Source
