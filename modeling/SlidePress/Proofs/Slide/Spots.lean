import SlidePress.Proofs.Slide.VisibleText

/-! Spots: the nodes inside a block in document order, each with its place. A place knows the way to
its node, the way to the nearest list item around it, and the marker of the nearest list. Collecting
the segments of a block goes from spot to spot. -/

namespace SlidePress.Source

/-- Induction over siblings: from what is inside the first of them, and from the others. -/
@[elab_as_elim]
theorem byForest {motive : List Node → Prop} (nil : motive [])
    (cons : ∀ node rest, motive node.children → motive rest → motive (node :: rest))
    (nodes : List Node) : motive nodes := by
  have inner : ∀ node : Node, motive node.children := by
    intro node
    induction node using Node.byChildren with
    | step node ih =>
        have below : ∀ nodes : List Node, (∀ child ∈ nodes, motive child.children) →
            motive nodes := by
          intro nodes each
          induction nodes with
          | nil => exact nil
          | cons first rest later =>
              apply cons first rest (each first List.mem_cons_self)
              exact later fun child member => each child (List.mem_cons_of_mem _ member)
        exact below node.children ih
  induction nodes with
  | nil => exact nil
  | cons node rest later => exact cons node rest (inner node) later

end SlidePress.Source

namespace SlidePress.Slide

open Source (Node Kind subtrees)

structure Place where
  /-- The numbers among siblings on the way to the node, its own first. -/
  way : List Nat
  /-- The way to the nearest list item around the node; none outside of all items. -/
  item : Option (List Nat)
  /-- The marker of the nearest list around the node. -/
  marker : ListMarker

namespace Place

def child (place : Place) (index : Nat) : Place := { place with way := index :: place.way }

def into (place : Place) (node : Node) : Place :=
  { place with
    item := if node.kind = .listItem then some place.way else place.item
    marker := if node.kind = .list then markerOf node.tag else place.marker }

end Place

structure Spot where
  place : Place
  node : Node

mutual

/-- A node and all nodes inside it, in document order. -/
def spots (place : Place) : Node → List Spot
  | ⟨tag, attributes, text, style, box, children, order, path⟩ =>
      let node : Node := ⟨tag, attributes, text, style, box, children, order, path⟩
      ⟨place, node⟩ :: spotsAll (place.into node) 0 children

def spotsAll (place : Place) (index : Nat) : List Node → List Spot
  | [] => []
  | node :: rest => spots (place.child index) node ++ spotsAll place (index + 1) rest

end

theorem spotsAll_cons (place : Place) (index : Nat) (node : Node) (rest : List Node) :
    spotsAll place index (node :: rest) =
      ⟨place.child index, node⟩ :: (spotsAll ((place.child index).into node) 0 node.children ++
        spotsAll place (index + 1) rest) := by
  cases node
  rfl

/-- Spots are the nodes in document order. -/
theorem map_node_spotsAll (place : Place) (index : Nat) (nodes : List Node) :
    (spotsAll place index nodes).map (·.node) = subtrees nodes := by
  induction nodes using Source.byForest generalizing place index with
  | nil => rfl
  | cons node rest inner later =>
      rw [spotsAll_cons, subtrees, Node.subtree_eq, List.map_cons, List.map_append, inner, later]
      rfl

/-- The marker that items right inside a block get. -/
def blockMarker (block : Node) : ListMarker :=
  match block.kind with
  | .list => markerOf block.tag
  | .listItem => .bullet
  | _ => .none

def blockSpots (block : Node) : List Spot := spotsAll ⟨[], none, blockMarker block⟩ 0 block.children

theorem map_node_blockSpots (block : Node) : (blockSpots block).map (·.node) = block.inside :=
  map_node_spotsAll ..

namespace Collector

/-- What a single node does to the segments, whatever is inside it. -/
def visit (collector : Collector) (spot : Spot) : Collector :=
  match spot.node.kind with
  | .text => collector.addText spot.node.text spot.node.style
  | .lineBreak => collector.addBreak
  | .listItem => collector.startParagraph spot.place.marker (alignOf spot.node.style)
  | _ => collector

/-- Segments are collected from spot to spot. -/
theorem addAll_eq_foldl {nodes : List Node} (proper : ∀ inner ∈ subtrees nodes, inner.IsProper)
    (place : Place) (index : Nat) (collector : Collector) :
    addAll place.marker nodes collector = (spotsAll place index nodes).foldl visit collector := by
  induction nodes using Source.byForest generalizing place index collector with
  | nil => rfl
  | cons node rest inner later =>
      rw [subtrees, Node.subtree_eq] at proper
      have own : node.IsProper := proper node List.mem_cons_self
      have below : ∀ other ∈ subtrees node.children, other.IsProper := fun other member =>
        proper other (List.mem_append_left _ (List.mem_cons_of_mem _ member))
      have behind : ∀ other ∈ subtrees rest, other.IsProper := fun other member =>
        proper other (List.mem_append_right _ member)
      rw [addAll, later behind place (index + 1), spotsAll_cons, List.foldl_cons, List.foldl_append]
      congr 1
      -- What is inside gets the marker of the list, if the node is one.
      have inside := inner below ((place.child index).into node) 0
      rw [add_eq, visit]
      cases kind : node.kind with
      | text => rw [own (.inl kind)]; rfl
      | lineBreak => rw [own (.inr kind)]; rfl
      | _ =>
          rw [← inside]
          simp [Place.into, Place.child, kind]

end Collector

def opening (block : Node) : Collector :=
  { align := alignOf block.style
    pendingMarker := if block.kind = .listItem then .bullet else .none }

theorem segmentsOf_eq {block : Node} (proper : ∀ inner ∈ block.inside, inner.IsProper) :
    segmentsOf block =
      ((blockSpots block).foldl Collector.visit (opening block)).segments.reverse := by
  have collected := Collector.addAll_eq_foldl proper ⟨[], none, blockMarker block⟩ 0 (opening block)
  rw [blockSpots, ← collected, segmentsOf]
  cases kind : block.kind <;>
    simp [opening, blockMarker, kind, Collector.startParagraph]

end SlidePress.Slide
