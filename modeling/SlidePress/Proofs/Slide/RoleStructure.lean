import SlidePress.Proofs.Slide.RoleWrites

/-! The structure of roles. `Classified` says how the roles of a node and of the nodes inside it
hang together; it holds of every child of the root of a numbered tree under the roles that the tree
is given. From it follows where a node can stand: outside everything that settles its content,
inside one block of text, or inside one image or placeholder. -/

namespace SlidePress.Slide

open Source (Node Tree Kind Size Placed placedAll subtrees)

/-- A node inside which every node has a role of its own. -/
def IsOpen (roles : List Role) (node : Node) : Prop :=
  roleOf roles node = .shapeContainer ∨ roleOf roles node = .ignorable

def IsClosed (roles : List Role) (node : Node) : Prop :=
  roleOf roles node = .placeholder ∨ roleOf roles node = .image

inductive Classified (roles : List Role) : Node → Prop where
  | container {node : Node} (role : IsOpen roles node)
      (shape : roleOf roles node = .shapeContainer → node.kind ≠ .text)
      (children : ∀ child ∈ node.children, Classified roles child) : Classified roles node
  | closed {node : Node} (role : IsClosed roles node) (notText : node.kind ≠ .text)
      (inside : ∀ inner ∈ node.inside, roleOf roles inner = .ignorable) : Classified roles node
  | block {node : Node} (role : roleOf roles node = .textBlock) (notText : node.kind ≠ .text)
      (inside : ∀ inner ∈ node.inside, roleOf roles inner = .inline) : Classified roles node

/-- Nodes that are ignored with everything inside them. -/
theorem Classified.ignored {roles : List Role} (node : Node) :
    (∀ inner ∈ node.subtree, roleOf roles inner = .ignorable) → Classified roles node := by
  induction node using Node.byChildren with
  | step node ih =>
      intro ignorable
      rw [Node.subtree_eq] at ignorable
      have own := ignorable node List.mem_cons_self
      refine .container (.inr own) (fun shape => by rw [own] at shape; cases shape) ?_
      intro child member
      refine ih child member fun inner inside => ignorable inner (List.mem_cons_of_mem _ ?_)
      rw [Node.inside, Source.subtrees_eq_flatMap]
      exact List.mem_flatMap.mpr ⟨child, member, inside⟩

section Follows

variable {placeholderClass : Text}

theorem kind_of_unsettled {node : Node} (unsettled : settledRoles? placeholderClass node = none) :
    node.kind ≠ .text := by
  intro isText
  unfold settledRoles? at unsettled
  split at unsettled
  · cases unsettled
  · split at unsettled
    · cases unsettled
    · split at unsettled
      · cases unsettled
      · simp [isText] at unsettled

/-- The nodes of a subtree have the roles that it is given. -/
def Follows (placeholderClass : Text) (roles : List Role) (node : Node) : Prop :=
  node.subtree.map (roleOf roles) = rolesOf placeholderClass node

theorem follows_of_all {roles : List Role} {nodes : List Node}
    (all : (subtrees nodes).map (roleOf roles) = rolesOfAll placeholderClass nodes) :
    ∀ node ∈ nodes, Follows placeholderClass roles node := by
  induction nodes with
  | nil => exact fun node member => nomatch member
  | cons first rest ih =>
      rw [subtrees, rolesOfAll, List.map_append] at all
      have parts := List.append_inj all (by rw [List.length_map, length_rolesOf])
      intro node member
      rcases List.mem_cons.mp member with same | later
      · exact same ▸ parts.1
      · exact ih parts.2 node later

theorem roles_of_rolesOver {roles : List Role} {node : Node} {own inner : Role}
    (same : node.subtree.map (roleOf roles) = rolesOver own inner node) :
    roleOf roles node = own ∧ ∀ other ∈ node.inside, roleOf roles other = inner := by
  rw [Node.subtree_eq, rolesOver, List.map_cons, List.cons.injEq] at same
  exact ⟨same.1, fun other member => List.map_inj_left.mp same.2 other member⟩

theorem Follows.classified {roles : List Role} (node : Node) :
    Follows placeholderClass roles node → Classified roles node := by
  induction node using Node.byChildren with
  | step node ih =>
      intro follows
      unfold Follows at follows
      rw [rolesOf_eq] at follows
      split at follows
      · rename_i given settled
        rcases settledRoles?_cases settled with ⟨own, isOwn, notText, rfl⟩ | ⟨notText, rfl⟩ | rfl
        · obtain ⟨role, inside⟩ := roles_of_rolesOver follows
          rcases isOwn with rfl | rfl
          · exact .closed (.inl role) notText inside
          · exact .closed (.inr role) notText inside
        · obtain ⟨role, inside⟩ := roles_of_rolesOver follows
          exact .block role notText inside
        · obtain ⟨role, inside⟩ := roles_of_rolesOver follows
          apply Classified.ignored
          rw [Node.subtree_eq]
          intro inner member
          rcases List.mem_cons.mp member with same | below
          · exact same ▸ role
          · exact inside inner below
      · rename_i unsettled
        rw [Node.subtree_eq, List.map_cons, List.cons.injEq] at follows
        have role : IsOpen roles node := by
          rw [IsOpen, follows.1]
          split
          · exact .inl rfl
          · exact .inr rfl
        exact .container role (fun _ => kind_of_unsettled unsettled)
          fun child member => ih child member (follows_of_all follows.2 child member)

def numberedRoles (placeholderClass : Text) (root : Node) (declared : Size) : List Role :=
  classify placeholderClass (Tree.numbered ⟨some root, declared⟩)

theorem map_getElem?_range (roles : List Role) :
    (List.range roles.length).map (fun index => (roles[index]?).getD .ignorable) = roles := by
  apply List.ext_getElem
  · simp
  · intro index first second
    simp [second]

/-- The roles of a numbered tree, read off node by node, are the roles it was given. -/
theorem map_roleOf_classify (placeholderClass : Text) (root : Node) (declared : Size) :
    root.numbered.subtree.map (roleOf (numberedRoles placeholderClass root declared)) =
      numberedRoles placeholderClass root declared := by
  have size : (numberedRoles placeholderClass root declared).length =
      root.numbered.subtree.length := by
    rw [numberedRoles, classify_numbered, Node.subtree_eq, List.length_cons, List.length_cons,
      length_rolesOfAll, Node.inside]
  generalize numberedRoles placeholderClass root declared = roles at size ⊢
  have orders := Source.orders_numbered root
  rw [← size] at orders
  calc root.numbered.subtree.map (roleOf roles)
      = (root.numbered.subtree.map (·.order)).map
          (fun index => (roles[index]?).getD .ignorable) := by
        rw [List.map_map]
        rfl
    _ = roles := by rw [orders, map_getElem?_range]

/-- The root of a numbered tree is ignorable, and the subtrees below it have the roles they are
given. -/
theorem follows_children (placeholderClass : Text) (root : Node) (declared : Size) :
    roleOf (numberedRoles placeholderClass root declared) root.numbered = .ignorable ∧
      ∀ child ∈ root.numbered.children,
        Follows placeholderClass (numberedRoles placeholderClass root declared) child := by
  have same := map_roleOf_classify placeholderClass root declared
  generalize given : numberedRoles placeholderClass root declared = roles at same ⊢
  have shape : roles = .ignorable :: rolesOfAll placeholderClass root.numbered.children :=
    given.symm.trans (classify_numbered placeholderClass root declared)
  rw [Node.subtree_eq, List.map_cons] at same
  obtain ⟨own, below⟩ := List.cons.inj (same.trans shape)
  exact ⟨own, follows_of_all below⟩

/-- The root of a numbered tree is ignorable, and the roles below it hang together. -/
theorem classified_children (placeholderClass : Text) (root : Node) (declared : Size) :
    roleOf (numberedRoles placeholderClass root declared) root.numbered = .ignorable ∧
      ∀ child ∈ root.numbered.children,
        Classified (numberedRoles placeholderClass root declared) child := by
  obtain ⟨own, follows⟩ := follows_children placeholderClass root declared
  exact ⟨own, fun child member => (follows child member).classified⟩

end Follows

/-- Where a node stands among the roles of the nodes around it. -/
inductive Standing (roles : List Role) (placed : Placed) : Prop where
  | free (around : ∀ outer ∈ placed.ancestors, IsOpen roles outer)
      (text : placed.node.kind = .text → roleOf roles placed.node = .ignorable)
  | inBlock (role : roleOf roles placed.node = .inline) (inner : List Node) (block : Node)
      (outer : List Node) (path : placed.ancestors = inner ++ block :: outer)
      (isBlock : roleOf roles block = .textBlock)
      (between : ∀ other ∈ inner, roleOf roles other = .inline)
      (around : ∀ other ∈ outer, IsOpen roles other)
  | inClosed (role : roleOf roles placed.node = .ignorable) (inner : List Node) (closed : Node)
      (outer : List Node) (path : placed.ancestors = inner ++ closed :: outer)
      (isClosed : IsClosed roles closed)
      (between : ∀ other ∈ inner, roleOf roles other = .ignorable)
      (around : ∀ other ∈ outer, IsOpen roles other)

theorem Classified.standing {roles : List Role} {node : Node} (classified : Classified roles node)
    {ancestors : List Node} (around : ∀ outer ∈ ancestors, IsOpen roles outer) :
    ∀ placed ∈ node.placed ancestors, Standing roles placed := by
  induction classified generalizing ancestors with
  | container role shape children ih =>
      rename_i node
      intro placed member
      rw [Node.placed_eq, Source.placedAll_eq_flatMap] at member
      rcases List.mem_cons.mp member with rfl | below
      · refine .free around fun isText => ?_
        rcases role with isShape | isIgnorable
        · exact (shape isShape isText).elim
        · exact isIgnorable
      · obtain ⟨child, isChild, found⟩ := List.mem_flatMap.mp below
        refine ih child isChild ?_ placed found
        intro outer inside
        rcases List.mem_cons.mp inside with rfl | further
        · exact role
        · exact around outer further
  | closed role notText inside =>
      rename_i node
      intro placed member
      rw [Node.placed_eq] at member
      rcases List.mem_cons.mp member with rfl | below
      · exact .free around fun isText => (notText isText).elim
      · obtain ⟨own, inner, path, within⟩ := Source.ancestors_placedAll below
        exact .inClosed (inside _ own) inner node ancestors path role
          (fun other deeper => inside other (within other deeper)) around
  | block role notText inside =>
      rename_i node
      intro placed member
      rw [Node.placed_eq] at member
      rcases List.mem_cons.mp member with rfl | below
      · exact .free around fun isText => (notText isText).elim
      · obtain ⟨own, inner, path, within⟩ := Source.ancestors_placedAll below
        exact .inBlock (inside _ own) inner node ancestors path role
          (fun other deeper => inside other (within other deeper)) around

end SlidePress.Slide
