import SlidePress.Proofs.Slide.RoleStructure
import SlidePress.Slide.Mapping

/-! Where roles come from. Going down from the root, a node either settles the roles of everything
inside it, for one of four reasons, or it is a container that leaves the nodes inside it to
themselves. The role of a node in a numbered tree is therefore decided by the first node on the way
down to it that settles roles, and by the node itself when there is none. -/

namespace SlidePress.Slide

open Source (Node Tree Kind Size Placed placedAll subtrees)

variable {placeholderClass : Text}

/-- The reasons for which a node settles its own role and that of everything inside it. -/
inductive Settles (placeholderClass : Text) (node : Node) : Role → Role → Prop where
  | placeholder (reserved : isPlaceholder placeholderClass node = true) :
      Settles placeholderClass node .placeholder .ignorable
  | image (shown : isShownImage node = true) : Settles placeholderClass node .image .ignorable
  | text (bearing : isTextBearing node = true) : Settles placeholderClass node .textBlock .inline
  | leaf (kind : node.kind = .text ∨ node.kind = .lineBreak) :
      Settles placeholderClass node .ignorable .ignorable

theorem settles_of_settledRoles? {node : Node} {given : List Role}
    (settled : settledRoles? placeholderClass node = some given) :
    ∃ own inner, Settles placeholderClass node own inner ∧ given = rolesOver own inner node := by
  unfold settledRoles? at settled
  split at settled
  · rename_i reserved
    exact ⟨_, _, .placeholder reserved, (Option.some.inj settled).symm⟩
  · split at settled
    · rename_i shown
      exact ⟨_, _, .image shown, (Option.some.inj settled).symm⟩
    · split at settled
      · rename_i bearing
        exact ⟨_, _, .text bearing, (Option.some.inj settled).symm⟩
      · split at settled
        · rename_i leaf
          rw [Bool.or_eq_true, beq_iff_eq, beq_iff_eq] at leaf
          exact ⟨_, _, .leaf leaf, (Option.some.inj settled).symm⟩
        · cases settled

/-- The node leaves the nodes inside it to themselves. -/
structure IsContainer (placeholderClass : Text) (roles : List Role) (node : Node) : Prop where
  unsettled : settledRoles? placeholderClass node = none
  role : roleOf roles node = if hasShapeStyle node then .shapeContainer else .ignorable

theorem IsContainer.isOpen {roles : List Role} {node : Node}
    (container : IsContainer placeholderClass roles node) : IsOpen roles node := by
  rw [IsOpen, container.role]
  cases hasShapeStyle node with
  | true => exact .inl rfl
  | false => exact .inr rfl

/-- A container shows no image and is neither a text nor a line break. -/
theorem IsContainer.plain {roles : List Role} {node : Node}
    (container : IsContainer placeholderClass roles node) :
    isShownImage node = false ∧ node.kind ≠ .text ∧ node.kind ≠ .lineBreak := by
  have unsettled := container.unsettled
  unfold settledRoles? at unsettled
  split at unsettled
  · cases unsettled
  · split at unsettled
    · cases unsettled
    · rename_i notShown
      split at unsettled
      · cases unsettled
      · split at unsettled
        · cases unsettled
        · rename_i notLeaf
          rw [Bool.or_eq_true, beq_iff_eq, beq_iff_eq, not_or] at notLeaf
          exact ⟨Bool.eq_false_iff.mpr notShown, notLeaf⟩

/-- How a node below the root comes to its role; `around` are the nodes between the two, innermost
first. -/
inductive Origin (placeholderClass : Text) (roles : List Role) (around : List Node) (node : Node) :
    Prop where
  | container (outside : ∀ outer ∈ around, IsContainer placeholderClass roles outer)
      (own : IsContainer placeholderClass roles node)
  | settled {role inner : Role} (outside : ∀ outer ∈ around, IsContainer placeholderClass roles outer)
      (settles : Settles placeholderClass node role inner) (own : roleOf roles node = role)
  | within {role inner : Role} (between : List Node) (settler : Node) (outer : List Node)
      (path : around = between ++ settler :: outer)
      (outside : ∀ other ∈ outer, IsContainer placeholderClass roles other)
      (settles : Settles placeholderClass settler role inner) (own : roleOf roles settler = role)
      (inside : ∀ other ∈ node :: between, roleOf roles other = inner)

/-- In a subtree that has the roles it is given, every node has an origin for its role. -/
theorem Follows.origin {roles : List Role} (base : List Node) (node : Node) :
    Follows placeholderClass roles node →
      ∀ around, (∀ outer ∈ around, IsContainer placeholderClass roles outer) →
        ∀ placed ∈ node.placed (around ++ base), ∃ between, placed.ancestors = between ++ base ∧
          Origin placeholderClass roles between placed.node := by
  induction node using Node.byChildren with
  | step node ih =>
      intro follows around outside placed member
      unfold Follows at follows
      rw [rolesOf_eq] at follows
      rw [Node.placed_eq] at member
      split at follows
      · rename_i given settled
        obtain ⟨role, inner, settles, rfl⟩ := settles_of_settledRoles? settled
        obtain ⟨own, inside⟩ := roles_of_rolesOver follows
        rcases List.mem_cons.mp member with rfl | below
        · exact ⟨around, rfl, .settled outside settles own⟩
        · obtain ⟨found, between, path, within⟩ := Source.ancestors_placedAll below
          refine ⟨between ++ node :: around, ?_,
            .within between node around rfl outside settles own ?_⟩
          · rw [path, List.append_assoc]
            rfl
          · intro other deeper
            rcases List.mem_cons.mp deeper with rfl | further
            · exact inside _ found
            · exact inside other (within other further)
      · rename_i unsettled
        rw [Node.subtree_eq, List.map_cons, List.cons.injEq] at follows
        have container : IsContainer placeholderClass roles node := ⟨unsettled, follows.1⟩
        rcases List.mem_cons.mp member with rfl | below
        · exact ⟨around, rfl, .container outside container⟩
        · rw [Source.placedAll_eq_flatMap] at below
          obtain ⟨child, isChild, found⟩ := List.mem_flatMap.mp below
          refine ih child isChild (follows_of_all follows.2 child isChild) (node :: around) ?_
            placed found
          intro outer inAround
          rcases List.mem_cons.mp inAround with rfl | further
          · exact container
          · exact outside outer further

/-- Every node below the root of a numbered tree has an origin for its role. -/
theorem origin_descendants (root : Node) (declared : Size) :
    ∀ placed ∈ root.numbered.descendants, ∃ around, placed.ancestors = around ++ [root.numbered] ∧
      Origin placeholderClass (numberedRoles placeholderClass root declared) around placed.node := by
  intro placed member
  rw [Node.descendants, Source.placedAll_eq_flatMap] at member
  obtain ⟨child, isChild, found⟩ := List.mem_flatMap.mp member
  have follows := (follows_children placeholderClass root declared).2 child isChild
  refine follows.origin [root.numbered] child [] ?_ placed found
  intro outer inNone
  cases inNone

end SlidePress.Slide
