import SlidePress.Proofs.Slide.RoleStructure
import SlidePress.Slide.Mapping

/-! The walk of a mapping. A mapping adds the nodes it visits one after another, so what it finds is
the concatenation of what each visited node adds. Under the roles of a classified tree this is the
same as going through all nodes in document order and asking each what it adds where it stands: a
block of text adds for itself and for the nodes inside it, and nothing is added inside an image or a
placeholder. -/

namespace SlidePress.Slide

open Source (Node NodeRef Tree Kind Placed placedAll subtrees)
open Style

mutual

def visited (roles : List Role) : Node → List Node
  | ⟨tag, attributes, text, style, box, children, order, path⟩ =>
      let node : Node := ⟨tag, attributes, text, style, box, children, order, path⟩
      node :: match roleOf roles node with
        | .shapeContainer | .ignorable => visitedAll roles children
        | _ => []

def visitedAll (roles : List Role) : List Node → List Node
  | [] => []
  | node :: rest => visited roles node ++ visitedAll roles rest

end

theorem visited_of_open {roles : List Role} {node : Node} (role : IsOpen roles node) :
    visited roles node = node :: visitedAll roles node.children := by
  obtain ⟨tag, attributes, text, style, box, children, order, path⟩ := node
  rw [visited]
  rcases role with role | role <;> rw [role]

theorem visited_of_not_open {roles : List Role} {node : Node} (role : ¬ IsOpen roles node) :
    visited roles node = [node] := by
  obtain ⟨tag, attributes, text, style, box, children, order, path⟩ := node
  rw [visited]
  split
  · rename_i shape
    exact (role (.inl shape)).elim
  · rename_i ignorable
    exact (role (.inr ignorable)).elim
  · rfl

theorem visitedAll_eq_flatMap (roles : List Role) (nodes : List Node) :
    visitedAll roles nodes = nodes.flatMap (visited roles) := by
  induction nodes with
  | nil => rfl
  | cons node rest ih => rw [visitedAll, List.flatMap_cons, ih]

namespace Mapping

variable {context : MappingContext}

theorem visit_of_open {node : Node} (role : IsOpen context.roles node) (mapping : Mapping) :
    visit context node mapping = visitAll context node.children (mapping.add context node) := by
  obtain ⟨tag, attributes, text, style, box, children, order, path⟩ := node
  rw [visit]
  rcases role with role | role <;> rw [role]

theorem visit_of_not_open {node : Node} (role : ¬ IsOpen context.roles node) (mapping : Mapping) :
    visit context node mapping = mapping.add context node := by
  obtain ⟨tag, attributes, text, style, box, children, order, path⟩ := node
  rw [visit]
  split
  · rename_i shape
    exact (role (.inl shape)).elim
  · rename_i ignorable
    exact (role (.inr ignorable)).elim
  · rfl

theorem visitAll_eq_foldl {nodes : List Node}
    (each : ∀ node ∈ nodes, ∀ mapping,
      visit context node mapping = (visited context.roles node).foldl (add context) mapping)
    (mapping : Mapping) :
    visitAll context nodes mapping = (visitedAll context.roles nodes).foldl (add context) mapping := by
  induction nodes generalizing mapping with
  | nil => rfl
  | cons node rest ih =>
      rw [visitAll, visitedAll, List.foldl_append, each node List.mem_cons_self,
        ih fun other member => each other (List.mem_cons_of_mem _ member)]

/-- A visit adds the visited nodes one after another. -/
theorem visit_eq_foldl (node : Node) : ∀ mapping,
    visit context node mapping = (visited context.roles node).foldl (add context) mapping := by
  induction node using Node.byChildren with
  | step node ih =>
      intro mapping
      by_cases role : IsOpen context.roles node
      · rw [visit_of_open role, visited_of_open role, List.foldl_cons, visitAll_eq_foldl ih]
      · rw [visit_of_not_open role, visited_of_not_open role]
        rfl

/-- What is gathered latest first, node by node, is what the nodes add, in order. -/
theorem foldl_gathers {β : Type} {gathered : Mapping → List β} {adds : Node → List β}
    (step : ∀ mapping node, gathered (mapping.add context node) = (adds node).reverse ++ gathered mapping)
    (nodes : List Node) (mapping : Mapping) :
    gathered (nodes.foldl (add context) mapping) =
      (nodes.flatMap adds).reverse ++ gathered mapping := by
  induction nodes generalizing mapping with
  | nil => rfl
  | cons node rest ih =>
      rw [List.foldl_cons, ih, step, List.flatMap_cons, List.reverse_append, List.append_assoc]

theorem visitAll_gathers {β : Type} {gathered : Mapping → List β} {adds : Node → List β}
    (step : ∀ mapping node, gathered (mapping.add context node) = (adds node).reverse ++ gathered mapping)
    (empty : gathered {} = []) (nodes : List Node) :
    (gathered (visitAll context nodes {})).reverse =
      (visitedAll context.roles nodes).flatMap adds := by
  rw [visitAll_eq_foldl (fun node _ => visit_eq_foldl node), foldl_gathers step, empty,
    List.append_nil, List.reverse_reverse]

end Mapping

end SlidePress.Slide

namespace SlidePress.Source.Placed

open Slide

def inText (roles : List Role) (placed : Placed) : Bool :=
  placed.ancestors.any (roleOf roles · == .textBlock)

def isShut (roles : List Role) (placed : Placed) : Bool :=
  placed.ancestors.any fun outer => roleOf roles outer == .placeholder || roleOf roles outer == .image

end SlidePress.Source.Placed

namespace SlidePress.Slide

open Source (Node NodeRef Tree Kind Placed placedAll subtrees)

variable {roles : List Role}

theorem not_block_of_open {node : Node} (role : IsOpen roles node) :
    (roleOf roles node == .textBlock) = false := by
  rcases role with role | role <;> rw [role] <;> rfl

theorem not_shut_of_open {node : Node} (role : IsOpen roles node) :
    (roleOf roles node == .placeholder || roleOf roles node == .image) = false := by
  rcases role with role | role <;> rw [role] <;> rfl

/-- Outside of everything a node is neither in a text nor shut. -/
theorem free_flags {placed : Placed} (around : ∀ outer ∈ placed.ancestors, IsOpen roles outer) :
    placed.inText roles = false ∧ placed.isShut roles = false := by
  constructor
  · rw [Placed.inText, List.any_eq_false]
    intro outer member
    rw [not_block_of_open (around outer member)]
    exact Bool.false_ne_true
  · rw [Placed.isShut, List.any_eq_false]
    intro outer member
    rw [not_shut_of_open (around outer member)]
    exact Bool.false_ne_true

/-- In a block of text nothing is shut. -/
theorem block_flags {placed : Placed} {inner outer : List Node} {block : Node}
    (path : placed.ancestors = inner ++ block :: outer) (isBlock : roleOf roles block = .textBlock)
    (between : ∀ other ∈ inner, roleOf roles other = .inline)
    (around : ∀ other ∈ outer, IsOpen roles other) :
    placed.inText roles = true ∧ placed.isShut roles = false := by
  constructor
  · rw [Placed.inText, path, List.any_append, List.any_cons, isBlock, beq_self_eq_true,
      Bool.true_or, Bool.or_true]
  · rw [Placed.isShut, path, List.any_eq_false]
    intro other member
    rcases List.mem_append.mp member with deeper | further
    · rw [between other deeper]
      decide
    · rcases List.mem_cons.mp further with rfl | beyond
      · rw [isBlock]
        decide
      · rw [not_shut_of_open (around other beyond)]
        exact Bool.false_ne_true

/-- In an image or a placeholder nothing is in a text. -/
theorem closed_flags {placed : Placed} {inner outer : List Node} {closed : Node}
    (path : placed.ancestors = inner ++ closed :: outer) (isClosed : IsClosed roles closed)
    (between : ∀ other ∈ inner, roleOf roles other = .ignorable)
    (around : ∀ other ∈ outer, IsOpen roles other) :
    placed.inText roles = false ∧ placed.isShut roles = true := by
  constructor
  · rw [Placed.inText, path, List.any_eq_false]
    intro other member
    rcases List.mem_append.mp member with deeper | further
    · rw [between other deeper]
      decide
    · rcases List.mem_cons.mp further with rfl | beyond
      · rcases isClosed with role | role <;> rw [role] <;> decide
      · rw [not_block_of_open (around other beyond)]
        exact Bool.false_ne_true
  · rw [Placed.isShut, path, List.any_append, List.any_cons]
    rcases isClosed with role | role <;> rw [role] <;> simp

theorem flatMap_ite_singleton {α β : Type} (keep : α → Bool) (make : α → β) (items : List α) :
    (items.flatMap fun item => if keep item then [make item] else []) =
      (items.filter keep).map make := by
  induction items with
  | nil => rfl
  | cons item rest ih =>
      rw [List.flatMap_cons, ih, List.filter_cons]
      split <;> rfl

section Spread

variable {β : Type} (roles : List Role) (pick : Bool → Node → List β)

/-- What a visited node adds, when a block of text also speaks for the nodes inside it. -/
def spread (node : Node) : List β :=
  if roleOf roles node == .textBlock then pick false node ++ node.inside.flatMap (pick true)
  else pick false node

/-- What a node adds where it stands; `pick` is told whether the node is in a text. -/
def pickAt (placed : Placed) : List β :=
  if placed.isShut roles then [] else pick (placed.inText roles) placed.node

variable {roles}

theorem pickAt_free {ancestors : List Node} (around : ∀ outer ∈ ancestors, IsOpen roles outer)
    (node : Node) : pickAt roles pick ⟨ancestors, node⟩ = pick false node := by
  have flags : (Placed.mk ancestors node).inText roles = false ∧
      (Placed.mk ancestors node).isShut roles = false := free_flags around
  rw [pickAt, flags.1, flags.2]
  rfl

/-- Adding the visited nodes amounts to asking every node in document order. -/
theorem Classified.flatMap_visited {node : Node} (classified : Classified roles node)
    {ancestors : List Node} (around : ∀ outer ∈ ancestors, IsOpen roles outer) :
    (visited roles node).flatMap (spread roles pick) =
      (node.placed ancestors).flatMap (pickAt roles pick) := by
  induction classified generalizing ancestors with
  | container role shape children ih =>
      rename_i node
      have inner : ∀ outer ∈ node :: ancestors, IsOpen roles outer := by
        intro outer member
        rcases List.mem_cons.mp member with rfl | further
        · exact role
        · exact around outer further
      have own : spread roles pick node = pick false node := by
        rw [spread, not_block_of_open role]
        rfl
      rw [visited_of_open role, Node.placed_eq, List.flatMap_cons, List.flatMap_cons, own,
        pickAt_free pick around, visitedAll_eq_flatMap, Source.placedAll_eq_flatMap,
        List.flatMap_assoc, List.flatMap_assoc]
      congr 1
      exact List.flatMap_congr fun child member => ih child member inner
  | closed role notText inside =>
      rename_i node
      have notOpen : ¬ IsOpen roles node := by
        rcases role with role | role <;> simp [IsOpen, role]
      have own : spread roles pick node = pick false node := by
        rcases role with role | role <;> rw [spread, role] <;> rfl
      have nothing : (placedAll (node :: ancestors) node.children).flatMap (pickAt roles pick) = [] := by
        rw [List.flatMap_eq_nil_iff]
        intro placed member
        obtain ⟨_, inner, path, within⟩ := Source.ancestors_placedAll member
        have shut := (closed_flags path role (fun other deeper => inside other (within other deeper))
          around).2
        rw [pickAt, shut]
        rfl
      rw [visited_of_not_open notOpen, Node.placed_eq, List.flatMap_cons, List.flatMap_cons, own,
        pickAt_free pick around, nothing]
      rfl
  | block role notText inside =>
      rename_i node
      have notOpen : ¬ IsOpen roles node := by simp [IsOpen, role]
      have own : spread roles pick node = pick false node ++ node.inside.flatMap (pick true) := by
        rw [spread, role]
        rfl
      have below : (placedAll (node :: ancestors) node.children).flatMap (pickAt roles pick) =
          node.inside.flatMap (pick true) := by
        rw [Node.inside, ← Source.map_node_placedAll (node :: ancestors), List.flatMap_map]
        apply List.flatMap_congr
        intro placed member
        obtain ⟨_, inner, path, within⟩ := Source.ancestors_placedAll member
        obtain ⟨inText, notShut⟩ := block_flags path role
          (fun other deeper => inside other (within other deeper)) around
        rw [pickAt, notShut, inText]
        rfl
      rw [visited_of_not_open notOpen, Node.placed_eq, List.flatMap_cons, List.flatMap_cons, own,
        pickAt_free pick around, below, List.flatMap_nil, List.append_nil]

end Spread

section Numbered

variable (placeholderClass : Text) (root : Node) (declared : Source.Size)

theorem around_root : ∀ outer ∈ [root.numbered],
    IsOpen (numberedRoles placeholderClass root declared) outer := by
  intro outer member
  rw [List.mem_singleton.mp member]
  exact .inr (classified_children placeholderClass root declared).1

theorem standing_descendants : ∀ placed ∈ root.numbered.descendants,
    Standing (numberedRoles placeholderClass root declared) placed := by
  intro placed member
  rw [Node.descendants, Source.placedAll_eq_flatMap] at member
  obtain ⟨child, isChild, found⟩ := List.mem_flatMap.mp member
  exact ((classified_children placeholderClass root declared).2 child isChild).standing
    (around_root placeholderClass root declared) placed found

/-- Adding the nodes that are visited in a numbered tree amounts to asking every node below the root
in document order. -/
theorem flatMap_visitedAll {β : Type} (pick : Bool → Node → List β) :
    (visitedAll (numberedRoles placeholderClass root declared)
        root.numbered.children).flatMap
        (spread (numberedRoles placeholderClass root declared) pick) =
      root.numbered.descendants.flatMap
        (pickAt (numberedRoles placeholderClass root declared) pick) := by
  rw [visitedAll_eq_flatMap, Node.descendants, Source.placedAll_eq_flatMap, List.flatMap_assoc,
    List.flatMap_assoc]
  exact List.flatMap_congr fun child member =>
    ((classified_children placeholderClass root declared).2 child member).flatMap_visited pick
      (around_root placeholderClass root declared)

end Numbered

end SlidePress.Slide
