import SlidePress.Proofs.Slide.RoleOrigin
import SlidePress.Proofs.Slide.TextKept

/-! The arrangement of roles in a tree. Some roles settle everything below a node: of them there is
at most one on a path, and it gives the role of all nodes below it. Every other node decides its role
by itself and by what is inside it. -/

namespace SlidePress.Slide

open Source (Node Tree Size Placed)

/-- No node below one with this role decides its role by itself. -/
def Role.settles : Role → Bool
  | .textBlock | .image | .placeholder => true
  | .shapeContainer | .ignorable | .inline => false

def ownRole (placeholderClass : Text) (node : Node) : Role :=
  if isPlaceholder placeholderClass node then .placeholder
  else if isShownImage node then .image
  else if isTextBearing node then .textBlock
  else if node.kind == .text || node.kind == .lineBreak then .ignorable
  else if hasShapeStyle node then .shapeContainer
  else .ignorable

/-- How the roles in a tree hang together. -/
structure Arranged (placeholderClass : Text) (roles : List Role) (root : Node) : Prop where
  ofRoot : roleOf roles root = .ignorable
  onePerPath : ∀ placed ∈ root.placed [],
    (placed.node :: placed.ancestors).countP (fun node => (roleOf roles node).settles) ≤ 1
  inline_iff : ∀ placed ∈ root.placed [], roleOf roles placed.node = .inline ↔
    ∃ outer ∈ placed.ancestors, roleOf roles outer = .textBlock
  covered : ∀ placed ∈ root.placed [], ∀ outer ∈ placed.ancestors,
    roleOf roles outer = .image ∨ roleOf roles outer = .placeholder →
      roleOf roles placed.node = .ignorable
  decided : ∀ placed ∈ root.descendants,
    (∀ outer ∈ placed.ancestors, (roleOf roles outer).settles = false) →
      roleOf roles placed.node = ownRole placeholderClass placed.node

/-! ## Paths -/

section Paths

variable {roles : List Role}

theorem IsOpen.not_settles {node : Node} (isOpen : IsOpen roles node) :
    (roleOf roles node).settles = false := by
  rcases isOpen with role | role <;> rw [role] <;> rfl

theorem countP_eq_zero_of_open {nodes : List Node} (opens : ∀ node ∈ nodes, IsOpen roles node) :
    nodes.countP (fun node => (roleOf roles node).settles) = 0 := by
  rw [List.countP_eq_zero]
  intro node member
  rw [(opens node member).not_settles]
  exact Bool.false_ne_true

/-- On the path to a node below one that settles its role there is no other such node. -/
theorem countP_of_settled {inner outer : List Node} {settler node : Node} {role : Role}
    (plain : role.settles = false) (own : roleOf roles node = role)
    (between : ∀ other ∈ inner, roleOf roles other = role)
    (around : ∀ other ∈ outer, IsOpen roles other) :
    (node :: (inner ++ settler :: outer)).countP (fun node => (roleOf roles node).settles) ≤ 1 := by
  have within : (node :: inner).countP (fun node => (roleOf roles node).settles) = 0 := by
    rw [List.countP_eq_zero]
    intro other member
    have same : roleOf roles other = role := by
      rcases List.mem_cons.mp member with rfl | below
      · exact own
      · exact between other below
    rw [same, plain]
    exact Bool.false_ne_true
  rw [← List.cons_append, List.countP_append, within, List.countP_cons,
    countP_eq_zero_of_open around]
  split <;> omega

theorem Standing.onePerPath {placed : Placed} (standing : Standing roles placed) :
    (placed.node :: placed.ancestors).countP (fun node => (roleOf roles node).settles) ≤ 1 := by
  cases standing with
  | free around _ =>
      rw [List.countP_cons, countP_eq_zero_of_open around]
      split <;> omega
  | inBlock role inner block outer path _ between around =>
      rw [path]
      exact countP_of_settled rfl role between around
  | inClosed role inner closed outer path _ between around =>
      rw [path]
      exact countP_of_settled rfl role between around

/-- When no node around settles anything, all of them are open. -/
theorem Standing.opens {placed : Placed} (standing : Standing roles placed)
    (unsettled : ∀ outer ∈ placed.ancestors, (roleOf roles outer).settles = false) :
    ∀ outer ∈ placed.ancestors, IsOpen roles outer := by
  cases standing with
  | free around _ => exact around
  | inBlock role inner block outer path isBlock between around =>
      have settles := unsettled block (by rw [path]; simp)
      rw [isBlock] at settles
      cases settles
  | inClosed role inner closed outer path isClosed between around =>
      have settles := unsettled closed (by rw [path]; simp)
      rcases isClosed with role | role <;> rw [role] at settles <;> cases settles

/-- Only the nodes below an image or a placeholder have such a node around them, and they are
ignored. -/
theorem Standing.covered {placed : Placed} (standing : Standing roles placed) {outer : Node}
    (member : outer ∈ placed.ancestors) (isClosed : IsClosed roles outer) :
    roleOf roles placed.node = .ignorable := by
  have settles : (roleOf roles outer).settles = true := by
    rcases isClosed with role | role <;> rw [role] <;> rfl
  cases standing with
  | free around _ =>
      rw [(around outer member).not_settles] at settles
      cases settles
  | inBlock role inner block further path isBlock between around =>
      rw [path] at member
      rcases List.mem_append.mp member with deeper | higher
      · rw [between outer deeper] at settles
        cases settles
      · rcases List.mem_cons.mp higher with rfl | above
        · rw [IsClosed, isBlock] at isClosed
          rcases isClosed with role | role <;> cases role
        · rw [(around outer above).not_settles] at settles
          cases settles
  | inClosed role => exact role

theorem Standing.inline_of_block {placed : Placed} (standing : Standing roles placed) {outer : Node}
    (member : outer ∈ placed.ancestors) (isBlock : roleOf roles outer = .textBlock) :
    roleOf roles placed.node = .inline := by
  have settles : (roleOf roles outer).settles = true := by rw [isBlock]; rfl
  cases standing with
  | free around _ =>
      rw [(around outer member).not_settles] at settles
      cases settles
  | inBlock role => exact role
  | inClosed role inner closed further path isClosed between around =>
      rw [path] at member
      rcases List.mem_append.mp member with deeper | higher
      · rw [between outer deeper] at settles
        cases settles
      · rcases List.mem_cons.mp higher with rfl | above
        · rw [IsClosed, isBlock] at isClosed
          rcases isClosed with role | role <;> cases role
        · rw [(around outer above).not_settles] at settles
          cases settles

end Paths

/-! ## Nodes that decide by themselves -/

section Deciding

variable {placeholderClass : Text} {roles : List Role}

theorem ownRole_ne_inline (node : Node) : ownRole placeholderClass node ≠ .inline := by
  unfold ownRole
  repeat' split
  all_goals exact nofun

/-- The first of the roles that a subtree is given is the own role of the node. -/
theorem head?_rolesOf (node : Node) :
    (rolesOf placeholderClass node).head? = some (ownRole placeholderClass node) := by
  rw [rolesOf_eq, settledRoles?, ownRole, isShownImage]
  split_ifs <;> rfl

theorem Follows.own {node : Node} (follows : Follows placeholderClass roles node) :
    roleOf roles node = ownRole placeholderClass node := by
  have first := congrArg List.head? follows
  rw [Node.subtree_eq, List.map_cons, List.head?_cons, head?_rolesOf] at first
  exact Option.some.inj first

/-- The children of a node that settles nothing have the roles they are given. -/
theorem Follows.children {node : Node} (follows : Follows placeholderClass roles node)
    (proper : node.IsProper) (isOpen : IsOpen roles node) :
    ∀ child ∈ node.children, Follows placeholderClass roles child := by
  intro child member
  unfold Follows at follows
  rw [rolesOf_eq] at follows
  split at follows
  · rename_i given settled
    obtain ⟨own, inner, settles, rfl⟩ := settles_of_settledRoles? settled
    have role := (roles_of_rolesOver follows).1
    have plain := isOpen.not_settles
    rw [role] at plain
    cases settles with
    | leaf kind =>
        rw [proper kind] at member
        cases member
    | placeholder | image | text => cases plain
  · rw [Node.subtree_eq, List.map_cons, List.cons.injEq] at follows
    exact follows_of_all follows.2 child member

/-- Down to the first nodes that settle something, all nodes have the roles they are given. -/
theorem Follows.of_open (node : Node) : Follows placeholderClass roles node →
    (∀ inner ∈ node.subtree, inner.IsProper) → ∀ ancestors, ∀ placed ∈ node.placed ancestors,
      (∀ outer ∈ placed.ancestors, IsOpen roles outer) →
        Follows placeholderClass roles placed.node := by
  induction node using Node.byChildren with
  | step node ih =>
      intro follows proper ancestors placed member opens
      rw [Node.placed_eq, Source.placedAll_eq_flatMap] at member
      rcases List.mem_cons.mp member with rfl | below
      · exact follows
      · obtain ⟨child, isChild, found⟩ := List.mem_flatMap.mp below
        obtain ⟨between, path, _⟩ := (Source.ancestors_placed child _ placed found).2
        have isOpen : IsOpen roles node := opens node (by rw [path]; simp)
        rw [Node.subtree_eq, Node.inside, Source.subtrees_eq_flatMap] at proper
        have own : node.IsProper := proper node List.mem_cons_self
        refine ih child isChild (follows.children own isOpen child isChild) ?_ _ placed found opens
        intro inner within
        exact proper inner
          (List.mem_cons_of_mem _ (List.mem_flatMap.mpr ⟨child, isChild, within⟩))

end Deciding

/-! ## Numbered trees -/

section Numbered

variable (placeholderClass : Text) (root : Node) (declared : Size)
  (proper : ∀ inner ∈ root.numbered.subtree, inner.IsProper)
include proper

/-- A node below the root with nothing around it that settles its role has its own role. -/
theorem own_of_unsettled {placed : Placed} (member : placed ∈ root.numbered.descendants)
    (unsettled : ∀ outer ∈ placed.ancestors,
      (roleOf (numberedRoles placeholderClass root declared) outer).settles = false) :
    roleOf (numberedRoles placeholderClass root declared) placed.node =
      ownRole placeholderClass placed.node := by
  have standing := standing_descendants placeholderClass root declared placed member
  rw [Node.descendants, Source.placedAll_eq_flatMap] at member
  obtain ⟨child, isChild, found⟩ := List.mem_flatMap.mp member
  have follows := (follows_children placeholderClass root declared).2 child isChild
  refine (follows.of_open child ?_ _ placed found (standing.opens unsettled)).own
  intro inner within
  rw [Node.subtree_eq, Node.inside, Source.subtrees_eq_flatMap] at proper
  exact proper inner (List.mem_cons_of_mem _ (List.mem_flatMap.mpr ⟨child, isChild, within⟩))

theorem arranged_numbered :
    Arranged placeholderClass (numberedRoles placeholderClass root declared) root.numbered := by
  have ofRoot := (classified_children placeholderClass root declared).1
  have standing := standing_descendants placeholderClass root declared
  have own := fun placed => @own_of_unsettled placeholderClass root declared proper placed
  generalize numberedRoles placeholderClass root declared = roles at ofRoot standing own ⊢
  have cases : ∀ placed ∈ root.numbered.placed [],
      placed = ⟨[], root.numbered⟩ ∨ placed ∈ root.numbered.descendants := by
    intro placed member
    rw [Node.placed_eq] at member
    exact List.mem_cons.mp member
  refine ⟨ofRoot, ?_, ?_, ?_, own⟩
  · intro placed member
    rcases cases placed member with rfl | below
    · rw [List.countP_cons_of_neg (by rw [ofRoot]; exact Bool.false_ne_true)]
      exact Nat.zero_le 1
    · exact (standing placed below).onePerPath
  · intro placed member
    rcases cases placed member with rfl | below
    · simp [ofRoot]
    · refine ⟨fun isInline => ?_, fun ⟨outer, around, isBlock⟩ =>
        (standing placed below).inline_of_block around isBlock⟩
      cases standing placed below with
      | free around _ =>
          have decided := own placed below fun outer inside => (around outer inside).not_settles
          exact (ownRole_ne_inline _ (decided.symm.trans isInline)).elim
      | inBlock role inner block outer path isBlock between around =>
          exact ⟨block, by rw [path]; simp, isBlock⟩
      | inClosed role inner closed outer path isClosed between around =>
          rw [role] at isInline
          cases isInline
  · intro placed member outer around isClosed
    rcases cases placed member with rfl | below
    · cases around
    · exact (standing placed below).covered around isClosed.symm

end Numbered

/-- The roles of a tree, one for each node, hang together. -/
theorem arranged_classify (placeholderClass : Text) (tree : Tree)
    (proper : ∀ root ∈ tree.numbered.root, ∀ inner ∈ root.subtree, inner.IsProper) :
    (classify placeholderClass tree.numbered).length = tree.numbered.size ∧
      ∀ root ∈ tree.numbered.root,
        Arranged placeholderClass (classify placeholderClass tree.numbered) root := by
  obtain ⟨root, declared⟩ := tree
  cases root with
  | none => exact ⟨rfl, nofun⟩
  | some root =>
      constructor
      · have sizes := congrArg List.length (map_roleOf_classify placeholderClass root declared)
        rw [List.length_map] at sizes
        exact sizes.symm
      · intro other isRoot
        obtain rfl := Option.some.inj isRoot
        exact arranged_numbered placeholderClass root declared (proper _ rfl)

section Samples

def cardPage : Tree :=
  { root := some (bareNode "body" []
      [{ bareNode "div" [] [bareNode "p" [] [bareText "later"]] with
          attributes := Table.ofList [("class", "placeholder")] },
        { bareNode "div" []
            [{ bareNode "img" [] [] with attributes := Table.ofList [("src", "a.png")] },
              bareNode "p" [] [bareText "to ", bareNode "b" [] [bareText "be"]],
              bareText "or not"] with
          style := ⟨Table.ofList [("background-color", "red")]⟩ }])
    declared := ⟨720, 405⟩ }

theorem arranged_cardPage :
    (∀ root ∈ cardPage.numbered.root, ∀ inner ∈ root.subtree, inner.IsProper) ∧
      (classify "placeholder" cardPage.numbered).length = cardPage.numbered.size ∧
      (∀ root ∈ cardPage.numbered.root,
        Arranged "placeholder" (classify "placeholder" cardPage.numbered) root) ∧
      classify "placeholder" cardPage.numbered =
        [.ignorable, .placeholder, .ignorable, .ignorable, .shapeContainer, .image, .textBlock,
          .inline, .inline, .inline, .ignorable] := by
  have proper : ∀ root ∈ cardPage.numbered.root, ∀ inner ∈ root.subtree, inner.IsProper := by
    decide +kernel
  obtain ⟨sizes, arranged⟩ := arranged_classify "placeholder" cardPage proper
  exact ⟨proper, sizes, arranged, by decide +kernel⟩

end Samples

end SlidePress.Slide
