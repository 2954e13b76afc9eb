import SlidePress.Proofs.Source.DocumentOrder
import SlidePress.Slide.Role

/-! Roles in document order. The roles of a tree are written one by one under the numbers of its
nodes, into a list that starts out ignorable throughout. In a numbered tree the numbers of a subtree
stand in a row, so that what is written for a subtree fills a stretch of the list and leaves the rest
of it: the list that comes out is that of `rolesOf`, subtree after subtree. -/

namespace SlidePress.Slide

open Source (Node Tree Size subtrees)

def rolesOver (own inner : Role) (node : Node) : List Role :=
  own :: node.inside.map fun _ => inner

/-- The role of a node that settles everything inside it as well; none for a container, whose
children are looked at one by one. -/
def settledRoles? (placeholderClass : Text) (node : Node) : Option (List Role) :=
  if isPlaceholder placeholderClass node then some (rolesOver .placeholder .ignorable node)
  else if node.kind == .image && !(node.valueOf "src").isEmpty then
    some (rolesOver .image .ignorable node)
  else if isTextBearing node then some (rolesOver .textBlock .inline node)
  else if node.kind == .text || node.kind == .lineBreak then
    some (rolesOver .ignorable .ignorable node)
  else none

mutual

def rolesOf (placeholderClass : Text) : Node → List Role
  | ⟨tag, attributes, text, style, box, children, order, path⟩ =>
      let node : Node := ⟨tag, attributes, text, style, box, children, order, path⟩
      match settledRoles? placeholderClass node with
      | some roles => roles
      | none =>
          (if hasShapeStyle node then .shapeContainer else .ignorable) ::
            rolesOfAll placeholderClass children

def rolesOfAll (placeholderClass : Text) : List Node → List Role
  | [] => []
  | node :: rest => rolesOf placeholderClass node ++ rolesOfAll placeholderClass rest

end

variable {placeholderClass : Text}

theorem rolesOf_eq (node : Node) :
    rolesOf placeholderClass node =
      match settledRoles? placeholderClass node with
      | some roles => roles
      | none =>
          (if hasShapeStyle node then Role.shapeContainer else .ignorable) ::
            rolesOfAll placeholderClass node.children := by
  cases node
  rfl

theorem rolesOfAll_eq_flatMap (nodes : List Node) :
    rolesOfAll placeholderClass nodes = nodes.flatMap (rolesOf placeholderClass) := by
  induction nodes with
  | nil => rfl
  | cons node rest ih => rw [rolesOfAll, List.flatMap_cons, ih]

/-- The ways in which the role of a node settles those inside it. -/
theorem settledRoles?_cases {node : Node} {roles : List Role}
    (settled : settledRoles? placeholderClass node = some roles) :
    (∃ own, (own = Role.placeholder ∨ own = .image) ∧ node.kind ≠ .text ∧
        roles = rolesOver own .ignorable node) ∨
      (node.kind ≠ .text ∧ roles = rolesOver .textBlock .inline node) ∨
      roles = rolesOver .ignorable .ignorable node := by
  unfold settledRoles? at settled
  split at settled
  · rename_i placeholder
    have notText : node.kind ≠ .text := by
      intro isText
      rw [isPlaceholder, isText] at placeholder
      cases placeholder
    exact .inl ⟨.placeholder, .inl rfl, notText, (Option.some.inj settled).symm⟩
  · split at settled
    · rename_i image
      have notText : node.kind ≠ .text := by
        intro isText
        rw [isText] at image
        cases image
      exact .inl ⟨.image, .inr rfl, notText, (Option.some.inj settled).symm⟩
    · split at settled
      · rename_i bearing
        have notText : node.kind ≠ .text := by
          intro isText
          rw [isTextBearing, isText] at bearing
          cases bearing
        exact .inr (.inl ⟨notText, (Option.some.inj settled).symm⟩)
      · split at settled
        · exact .inr (.inr (Option.some.inj settled).symm)
        · cases settled

theorem length_rolesOf (node : Node) :
    (rolesOf placeholderClass node).length = node.subtree.length := by
  induction node using Node.byChildren with
  | step node ih =>
      have size : ∀ own inner, (rolesOver own inner node).length = node.subtree.length := by
        intro own inner
        rw [Node.subtree_eq, rolesOver, List.length_cons, List.length_cons, List.length_map]
      rw [rolesOf_eq]
      split
      · rename_i roles settled
        rcases settledRoles?_cases settled with ⟨own, _, _, rfl⟩ | ⟨_, rfl⟩ | rfl
        · exact size own .ignorable
        · exact size .textBlock .inline
        · exact size .ignorable .ignorable
      · rw [Node.subtree_eq, List.length_cons, List.length_cons, Node.inside,
          Source.subtrees_eq_flatMap, rolesOfAll_eq_flatMap, List.length_flatMap, List.length_flatMap]
        have sizes : node.children.map (fun child => (rolesOf placeholderClass child).length) =
            node.children.map (fun child => child.subtree.length) :=
          List.map_congr_left ih
        rw [sizes]

theorem length_rolesOfAll (nodes : List Node) :
    (rolesOfAll placeholderClass nodes).length = (subtrees nodes).length := by
  rw [rolesOfAll_eq_flatMap, Source.subtrees_eq_flatMap, List.length_flatMap, List.length_flatMap,
    funext length_rolesOf]

/-- From a place on, a list that is ignorable there gets the given roles, and nothing else of it
changes. -/
def Fills (start : Nat) (given : List Role) (write : List Role → List Role) : Prop :=
  ∀ before after : List Role, before.length = start →
    write (before ++ (List.replicate given.length .ignorable ++ after)) = before ++ (given ++ after)

namespace Fills

variable {start : Nat} {first second : List Role} {write next : List Role → List Role}

theorem skip (start count : Nat) : Fills start (List.replicate count .ignorable) id := by
  intro before after _
  rw [List.length_replicate]
  rfl

theorem andThen (fills : Fills start first write) (others : Fills (start + first.length) second next) :
    Fills start (first ++ second) (next ∘ write) := by
  intro before after size
  have own := fills before (List.replicate second.length .ignorable ++ after) size
  have rest := others (before ++ first) after (by rw [List.length_append, size])
  calc next (write (before ++ (List.replicate (first ++ second).length .ignorable ++ after)))
      = next (write (before ++ (List.replicate first.length .ignorable ++
          (List.replicate second.length .ignorable ++ after)))) := by
        rw [List.length_append, List.replicate_add, List.append_assoc]
    _ = next (before ++ first ++ (List.replicate second.length .ignorable ++ after)) := by
        rw [own, List.append_assoc]
    _ = before ++ (first ++ second ++ after) := by
        rw [rest]
        simp only [List.append_assoc]

theorem assign (role : Role) (node : Node) :
    Fills node.order [role] fun roles => Slide.assign role roles node := by
  intro before after size
  change List.set _ _ _ = _
  rw [← size, List.set_append_right _ _ (Nat.le_refl _), Nat.sub_self]
  rfl

end Fills

/-- The numbers of the nodes go up one by one. -/
def InRow (start : Nat) (nodes : List Node) : Prop :=
  nodes.map (·.order) = List.range' start nodes.length

namespace InRow

variable {start : Nat} {node : Node} {nodes others : List Node}

theorem cons (inRow : InRow start (node :: nodes)) :
    node.order = start ∧ InRow (start + 1) nodes := by
  rw [InRow, List.map_cons, List.length_cons, List.range'_succ] at inRow
  exact List.cons.inj inRow

theorem append (inRow : InRow start (nodes ++ others)) :
    InRow start nodes ∧ InRow (start + nodes.length) others := by
  rw [InRow, List.map_append, List.length_append, ← List.range'_append_1] at inRow
  exact List.append_inj inRow (by simp)

theorem fills_foldl (role : Role) (inRow : InRow start nodes) :
    Fills start (nodes.map fun _ => role) fun roles => nodes.foldl (assign role) roles := by
  induction nodes generalizing start with
  | nil => exact .skip start 0
  | cons node rest ih =>
      obtain ⟨rfl, below⟩ := inRow.cons
      exact (Fills.assign role node).andThen (ih below)

theorem fills_rolesOver (own inner : Role) (inRow : InRow start node.subtree) :
    Fills start (rolesOver own inner node) fun roles =>
      markInside inner (assign own roles node) node := by
  rw [Node.subtree_eq] at inRow
  obtain ⟨rfl, below⟩ := inRow.cons
  exact (Fills.assign own node).andThen (below.fills_foldl inner)

theorem classifyNode_eq (node : Node) :
    classifyNode placeholderClass node = fun roles =>
      if isPlaceholder placeholderClass node then
        markInside .ignorable (assign .placeholder roles node) node
      else if node.kind == .image && !(node.valueOf "src").isEmpty then
        markInside .ignorable (assign .image roles node) node
      else if isTextBearing node then markInside .inline (assign .textBlock roles node) node
      else if node.kind == .text || node.kind == .lineBreak then assign .ignorable roles node
      else
        classifyAll placeholderClass node.children
          (assign (if hasShapeStyle node then .shapeContainer else .ignorable) roles node) := by
  cases node
  rfl

theorem fills_classifyAll {nodes : List Node}
    (each : ∀ node ∈ nodes, ∀ {start : Nat}, InRow start node.subtree →
      Fills start (rolesOf placeholderClass node) (classifyNode placeholderClass node))
    (inRow : InRow start (subtrees nodes)) :
    Fills start (rolesOfAll placeholderClass nodes) (classifyAll placeholderClass nodes) := by
  induction nodes generalizing start with
  | nil => exact .skip start 0
  | cons node rest ih =>
      obtain ⟨own, below⟩ := inRow.append
      have size : (rolesOf placeholderClass node).length = node.subtree.length := length_rolesOf node
      rw [← size] at below
      exact (each node List.mem_cons_self own).andThen
        (ih (fun other member => each other (List.mem_cons_of_mem _ member)) below)

/-- What is written for the nodes of a subtree are their roles in document order. -/
theorem fills_classifyNode (node : Node) : ∀ {start : Nat}, InRow start node.subtree →
    Fills start (rolesOf placeholderClass node) (classifyNode placeholderClass node) := by
  induction node using Node.byChildren with
  | step node ih =>
      intro start inRow
      rw [rolesOf_eq, classifyNode_eq, settledRoles?]
      by_cases placeholder : isPlaceholder placeholderClass node = true
      · simp only [placeholder, if_true]
        exact inRow.fills_rolesOver .placeholder .ignorable
      by_cases image : (node.kind == .image && !(node.valueOf "src").isEmpty) = true
      · simp only [placeholder, image, if_true]
        exact inRow.fills_rolesOver .image .ignorable
      by_cases bearing : isTextBearing node = true
      · simp only [placeholder, image, bearing, if_true]
        exact inRow.fills_rolesOver .textBlock .inline
      rw [Node.subtree_eq] at inRow
      obtain ⟨rfl, below⟩ := inRow.cons
      by_cases single : (node.kind == .text || node.kind == .lineBreak) = true
      -- Nothing is written below a text or a line break, where the list is ignorable already.
      · simp only [placeholder, image, bearing, single, if_true]
        have rest := (Fills.assign .ignorable node).andThen (.skip (node.order + 1) node.inside.length)
        rwa [← List.map_const'] at rest
      · simp only [placeholder, image, bearing, single]
        exact (Fills.assign _ node).andThen (fills_classifyAll ih below)

end InRow

/-- The roles of a numbered tree, in document order. -/
theorem classify_numbered (placeholderClass : Text) (root : Node) (declared : Size) :
    classify placeholderClass (Tree.numbered ⟨some root, declared⟩) =
      .ignorable :: rolesOfAll placeholderClass root.numbered.children := by
  have inRow : InRow 0 root.numbered.subtree := by
    rw [InRow, ← List.range_eq_range']
    exact Source.orders_numbered root
  have size : (Tree.numbered ⟨some root, declared⟩).size =
      (rolesOfAll placeholderClass root.numbered.children).length + 1 := by
    rw [length_rolesOfAll]
    exact congrArg List.length root.numbered.subtree_eq
  rw [Node.subtree_eq] at inRow
  have fills : Fills 1 (rolesOfAll placeholderClass root.numbered.children)
      (classifyAll placeholderClass root.numbered.children) :=
    inRow.cons.2.fills_classifyAll fun node _ => InRow.fills_classifyNode node
  have filled := fills [.ignorable] [] rfl
  rw [List.append_nil, List.append_nil] at filled
  change classifyAll placeholderClass root.numbered.children (List.replicate _ .ignorable) = _
  rw [size]
  exact filled

end SlidePress.Slide
