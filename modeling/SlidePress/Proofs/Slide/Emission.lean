import Mathlib.Data.List.Forall2
import SlidePress.Proofs.Slide.Yield
import SlidePress.Slide.Assembly

/-! What a mapping emits. Apart from its name, a primitive is known from its node: the frame, the
place in the drawing order and the source are those of the node, and the body is the one that its
role asks for. The primitives of a numbered tree are those of the nodes that are to be shown, once
each and in document order; the drawing order is therefore strictly ascending, and a finished slide
keeps it. -/

namespace SlidePress.Slide

open Source (Node NodeRef Tree Kind Size Placed placedAll subtrees)
open Style

def bodyOf (roles : List Role) (node : Node) : Body :=
  match roleOf roles node with
  | .textBlock => .text (textContent node)
  | .shapeContainer => .shape (shapeStyle node)
  | .placeholder => .placeholder
  | _ => imageBody node

/-- The node is to be shown: by its role, as a block of text with something in it, or as an image
in the flow of a text. -/
def isShown (roles : List Role) (placed : Placed) : Bool :=
  let role := roleOf roles placed.node
  role == .shapeContainer || role == .image || role == .placeholder ||
    (role == .textBlock && !(textContent placed.node).runs.isEmpty) ||
    (isShownImage placed.node && placed.inText roles)

theorem pickAt_pickSketch {roles : List Role} {placed : Placed} (standing : Standing roles placed) :
    pickAt roles (pickSketch roles) placed =
      if isShown roles placed then [sketchOf placed.node (bodyOf roles placed.node)] else [] := by
  cases standing with
  | free around _ =>
      obtain ⟨notInText, notShut⟩ := free_flags around
      rw [pickAt, notShut, isShown, notInText, bodyOf, pickSketch]
      cases roleOf roles placed.node <;> simp
  | inBlock role inner block outer path isBlock between around =>
      obtain ⟨inText, notShut⟩ := block_flags path isBlock between around
      rw [pickAt, notShut, isShown, inText, bodyOf, pickSketch, role]
      simp
  | inClosed role inner closed outer path isClosed between around =>
      obtain ⟨notInText, shut⟩ := closed_flags path isClosed between around
      rw [pickAt, shut, isShown, notInText, role]
      simp

structure Depicts (roles : List Role) (primitive : Primitive) (node : Node) : Prop where
  frame : primitive.header.frame = node.box
  zOrder : primitive.header.zOrder = node.order
  source : primitive.header.source = node.ref
  body : primitive.body = bodyOf roles node

theorem depicts_of_sketch {roles : List Role} {primitive : Primitive} {node : Node}
    (same : primitive.sketch = sketchOf node (bodyOf roles node)) : Depicts roles primitive node :=
  ⟨congrArg Sketch.frame same, congrArg Sketch.zOrder same, congrArg Sketch.source same,
    congrArg Sketch.body same⟩

/-- Nodes below the root have ascending numbers, whichever of them are taken. -/
theorem ascending_descendants (root : Node) (keep : Placed → Bool) :
    ((root.numbered.descendants.filter keep).map (·.node)).Pairwise
      fun first second => first.order < second.order := by
  have orders := Source.orders_numbered root
  rw [Node.subtree_eq, List.map_cons] at orders
  have all : (root.numbered.order :: root.numbered.inside.map (·.order)).Pairwise (· < ·) := by
    rw [orders]
    exact List.pairwise_lt_range
  have below := List.pairwise_map.mp (List.pairwise_cons.mp all).2
  rw [Node.inside, ← Source.map_node_placedAll [root.numbered]] at below
  exact below.sublist (List.filter_sublist.map _)

section Numbered

variable (placeholderClass : Text) (limit : Nat) (root : Node) (declared : Size)

/-- The primitives of a numbered tree, apart from their names, are the nodes that are to be shown. -/
theorem sketches_eq_shown :
    (mapNumbered placeholderClass limit root declared).primitives.map Primitive.sketch =
      (root.numbered.descendants.filter
        (isShown (numberedRoles placeholderClass root declared))).map fun placed =>
          sketchOf placed.node
            (bodyOf (numberedRoles placeholderClass root declared) placed.node) := by
  rw [(yields_mapDocument placeholderClass limit root declared).1, ← flatMap_ite_singleton]
  exact List.flatMap_congr fun placed member =>
    pickAt_pickSketch (standing_descendants placeholderClass root declared placed member)

theorem depicts_mapDocument :
    List.Forall₂ (Depicts (numberedRoles placeholderClass root declared))
      (mapNumbered placeholderClass limit root declared).primitives
      ((root.numbered.descendants.filter
        (isShown (numberedRoles placeholderClass root declared))).map (·.node)) := by
  have same := sketches_eq_shown placeholderClass limit root declared
  rw [← List.forall₂_eq_eq_eq, List.forall₂_map_left_iff, List.forall₂_map_right_iff] at same
  rw [List.forall₂_map_right_iff]
  exact same.imp fun _ _ => depicts_of_sketch

theorem ascending_mapDocument :
    (mapNumbered placeholderClass limit root declared).primitives.Pairwise
      fun first second => first.header.zOrder < second.header.zOrder := by
  have same := congrArg (List.map Sketch.zOrder)
    (sketches_eq_shown placeholderClass limit root declared)
  rw [List.map_map, List.map_map] at same
  have shown := ascending_descendants root (isShown (numberedRoles placeholderClass root declared))
  rw [List.pairwise_map] at shown
  have orders := List.pairwise_map.mpr shown
  exact List.pairwise_map.mp (same ▸ orders)

/-- Primitives in ascending drawing order are taken as they are. -/
theorem assemble_ascending {primitives : List Primitive}
    (ascending : primitives.Pairwise fun first second => first.header.zOrder < second.header.zOrder)
    (canvas : Size) (background : Option Color) :
    assemble primitives [] canvas background =
      .slide ⟨primitives.map Primitive.rounded,
        placeholderFrames (primitives.map Primitive.rounded), canvas, background⟩ := by
  have sorted : primitives.mergeSort
      (fun first second => decide (first.header.zOrder ≤ second.header.zOrder)) = primitives :=
    List.mergeSort_of_pairwise
      (ascending.imp fun less => decide_eq_true (Nat.le_of_lt less))
  rw [assemble, sorted]
  rfl

/-- A mapping shows the right nodes below the root, once each and in document order, and so in
strictly ascending drawing order, which a finished slide keeps. -/
theorem primitives_are_shown_nodes :
    List.Forall₂ (Depicts (numberedRoles placeholderClass root declared))
        (mapNumbered placeholderClass limit root declared).primitives
        ((root.numbered.descendants.filter
          (isShown (numberedRoles placeholderClass root declared))).map (·.node)) ∧
      (mapNumbered placeholderClass limit root declared).primitives.Pairwise
          (fun first second => first.header.zOrder < second.header.zOrder) ∧
      ∀ canvas background,
        assemble (mapNumbered placeholderClass limit root declared).primitives [] canvas background =
          .slide ⟨(mapNumbered placeholderClass limit root declared).primitives.map Primitive.rounded,
            placeholderFrames
              ((mapNumbered placeholderClass limit root declared).primitives.map Primitive.rounded),
            canvas, background⟩ :=
  ⟨depicts_mapDocument placeholderClass limit root declared,
    ascending_mapDocument placeholderClass limit root declared,
    assemble_ascending (ascending_mapDocument placeholderClass limit root declared)⟩

end Numbered

end SlidePress.Slide
