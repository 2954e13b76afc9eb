import SlidePress.Proofs.Layout.PeerBlocks

/-! Whole trees side by side. Where the area that absolute boxes are placed against goes along with a
block, or is part of the block itself, everything inside goes where the block goes. So a tree that is
set elsewhere has the same boxes, moved, and trees that differ in one child have boxes that differ in
the box of that child alone. -/

namespace SlidePress.Layout

open Polling

variable {α : Type} [Scalar α] {inFlex : Bool} {node other : Styled α} {placement : Placement α}
  {drift : Drift α} {area : Rect α}

/-! ## Areas that go along -/

/-- The area that absolute boxes inside a block are placed against goes along with the block, or is
part of it. -/
def Placement.GoesAlong (node : Styled α) (placement : Placement α) (drift : Drift α) (area : Rect α) :
    Prop :=
  area = drift.carry placement.positioned ∨ node.isPositioned = true

theorem setsAgain_carry (resembles : node.Resembles other) :
    setsAgain other (placement.carried drift area) = setsAgain node placement := by
  rw [setsAgain, setsAgain, knownHeight?_carry resembles.toAkin placement area, resembles.isPositioned]

section Along

variable (resembles : node.Resembles other) (rigid : drift.Rigid)
  (along : placement.GoesAlong node drift area)
include resembles rigid along

theorem positioned_carry :
    (blockInterior other (placement.carried drift area)).positioned =
      drift.carry (blockInterior node placement).positioned := by
  unfold blockInterior
  dsimp only
  rw [← resembles.isPositioned, knownHeight?_carry resembles.toAkin placement area, ← resembles.padding,
    paddingArea_carry resembles.toAkin placement area rigid]
  split
  · rfl
  · rename_i anywhere
    exact along.resolve_right anywhere

theorem hangArea_carry (taken : α) :
    hangArea other (placement.carried drift area) taken = drift.carry (hangArea node placement taken) := by
  unfold hangArea
  rw [setsAgain_carry resembles, positioned_carry resembles rigid along, ← resembles.border,
    paddingArea_carry resembles.toAkin placement area rigid,
    blockFrame_carry resembles.toAkin placement area]
  split <;> rfl

omit along in
theorem hangTop_carry (staticY : α) :
    hangTop other (placement.carried drift area) (drift.below staticY) =
      drift.below (hangTop node placement staticY) := by
  unfold hangTop
  rw [setsAgain_carry resembles, blockInterior_carry resembles.toAkin placement area rigid]
  split <;> rfl

end Along

theorem width_hangArea (node : Styled α) (placement : Placement α) (taken : α) :
    (hangArea node placement taken).width = (blockInterior node placement).positioned.width := by
  unfold hangArea
  split
  · rename_i again
    have positioned : node.isPositioned = true := (Bool.and_eq_true_iff.mp again).1
    unfold blockInterior
    rw [if_pos positioned]
    rfl
  · rfl

theorem Peers.SetAt.rigid {peers : Peers α inFlex} {there : Drift α}
    (setAt : peers.SetAt node drift there) (rigid : drift.Rigid) : there.Rigid := by
  rcases setAt with rfl | ⟨-, rfl⟩
  · exact rigid
  · exact rigid.append peers.rigid

theorem Peers.SetAt.eq_of_still {peers : Peers α inFlex} {there : Drift α}
    (setAt : peers.SetAt node drift there) (still : peers.apart = .none) : there = drift := by
  rcases setAt with same | ⟨-, same⟩
  · exact same
  · rw [same, still, Drift.append_none]

/-- The boxes of peers that stand alone, at last: set at a placement inside the block, and both moved
alike. -/
structure Peers.Ends (peers : Peers α inFlex) (node : Styled α) (placement : Placement α)
    (drift : Drift α) (placed : Placement α) (there lift : Drift α) (inner innerSet box set : Box α) :
    Prop where
  first : (peers.first.layout placed).Yields inner
  second : (peers.second.layout (placed.carried there (drift.carry placed.positioned))).Yields innerSet
  isBox : box = inner.drifted lift
  isSet : set = innerSet.drifted lift
  setAt : peers.SetAt node drift there
  width : placed.containingWidth =
    if peers.first.node.isAbsolute then (blockInterior node placement).positioned.width
    else (blockInterior node placement).area.width
  positioned : placed.positioned.width = (blockInterior node placement).positioned.width
  rises : ∀ height, placed.forcedHeight = some height →
    (inFlex = true ∨ peers.first.node.isAbsolute = true) ∧ peers.first.Rises height

theorem Peers.Come.exists_ends {peers : Peers α inFlex} {box set : Box α}
    (come : peers.Come node (blockInterior node placement) drift
      (drift.carry (blockInterior node placement).positioned) box set)
    (inFlow : peers.first.node.isAbsolute = false) :
    (peers.first.node.standsAlone inFlex = false ∧ set = box.drifted drift) ∨
      ∃ placed there lift inner innerSet,
        peers.Ends node placement drift placed there lift inner innerSet box set := by
  cases come with
  | line inLine => exact .inl ⟨inLine, rfl⟩
  | @block placed _ _ _ _ within _ freeHeight first second =>
      rw [← within.positioned] at second
      refine .inr ⟨placed, drift, .none, box, set, first, second, box.drifted_none.symm,
        set.drifted_none.symm, .inl rfl, ?_, congrArg Rect.width within.positioned, ?_⟩
      · simp [inFlow, within.containingWidth]
      · simp [freeHeight]
  | @item placed inner innerSet there lift isItem _ within rises _ setAt first second =>
      rw [← within.positioned] at second
      refine .inr ⟨placed, there, lift, inner, innerSet, first, second, rfl, rfl, setAt, ?_,
        congrArg Rect.width within.positioned, fun height forced => ⟨.inl isItem, rises height forced⟩⟩
      simp [inFlow, within.containingWidth]
  | absolute isAbsolute => cases inFlow.symm.trans isAbsolute

section Along

variable (resembles : node.Resembles other) (rigid : drift.Rigid)
  (along : placement.GoesAlong node drift area)
include resembles rigid along

/-- Absolute peers with one style hang in the same way, wherever the block is. -/
theorem Peers.exists_ends_of_absolute {peers : Peers α inFlex} {taken staticY : α} {box set : Box α}
    (isAbsolute : peers.first.node.isAbsolute = true)
    (style : peers.first.node.style = peers.second.node.style) (still : peers.apart = .none)
    (hung :
      (layoutAbsolute peers.first (hangArea node placement taken)
        (blockInterior node placement).area.x (hangTop node placement staticY)).Yields box)
    (hungToo :
      (layoutAbsolute peers.second (hangArea other (placement.carried drift area) taken)
        (drift.across (blockInterior node placement).area.x)
        (hangTop other (placement.carried drift area) (drift.below staticY))).Yields set) :
    ∃ placed there lift inner innerSet,
      peers.Ends node placement drift placed there lift inner innerSet box set := by
  have alike : peers.first.node.PlacedLike peers.second.node := ⟨peers.alike, style⟩
  let placed := absolutePlacement peers.first.node (hangArea node placement taken)
    (blockInterior node placement).area.x (hangTop node placement staticY)
  obtain ⟨inner, innerSet, yields, yieldsToo, frame⟩ :=
    peers.level rigid placed (drift.carry placed.positioned)
  rw [hangArea_carry resembles rigid along, hangTop_carry resembles rigid] at hungToo
  have second := exists_of_layoutAbsolute hungToo
    (by rw [absolutePlacement_carry alike rigid]; exact yieldsToo)
  refine ⟨placed, drift, hangDrift peers.first.node (hangArea node placement taken) inner.frame,
    inner, innerSet, yields, yieldsToo, exists_of_layoutAbsolute hung yields, ?_, .inl rfl, ?_,
    width_hangArea node placement taken, fun height forced => ⟨.inr isAbsolute, ?_⟩⟩
  · rw [second, frame, still]
    exact congrArg innerSet.drifted (hangDrift_carry alike rigid _ inner.frame)
  · rw [isAbsolute]
    exact width_hangArea node placement taken
  · exact rises_absolutePlacement peers.first forced

/-- Peers that stand alone end up at placements inside the block. -/
theorem Peers.End.exists_ends {peers : Peers α inFlex} {taken : α} {box set : Box α}
    (ends : peers.End node other placement drift area taken box set)
    (absolute : peers.first.node.isAbsolute = true →
      peers.first.node.style = peers.second.node.style ∧ peers.apart = .none) :
    (peers.first.node.standsAlone inFlex = false ∧ set = box.drifted drift) ∨
      ∃ placed there lift inner innerSet,
        peers.Ends node placement drift placed there lift inner innerSet box set := by
  cases ends with
  | inFlow inFlow come =>
      rw [positioned_carry resembles rigid along] at come
      exact come.exists_ends inFlow
  | absolute isAbsolute hung hungToo =>
      obtain ⟨style, still⟩ := absolute isAbsolute
      exact .inr (Peers.exists_ends_of_absolute resembles rigid along isAbsolute style still hung hungToo)

end Along

/-! ## Trees -/

/-- A child whose box goes where the child is placed, with everything inside unless something is
placed against an area that goes elsewhere. -/
def Child.Moves (child : Child α) : Prop :=
  ∀ ⦃drift : Drift α⦄, drift.Rigid → ∀ (placement : Placement α) (area : Rect α),
    (child.layout placement).Pairs (child.layout (placement.carried drift area)) fun box set =>
      set.frame = drift.carry box.frame ∧
        (placement.GoesAlong child.node drift area → set = box.drifted drift)

def Child.Moves.peers {child : Child α} (moves : child.Moves) (inFlex : Bool) : Peers α inFlex where
  first := child
  second := child
  apart := .none
  rigid := .none
  alike := (Styled.Like.refl child.node).toAlike
  level _ rigid placement area := (moves rigid placement area).weaken fun _ _ both => both.1
  plain _ := ⟨rfl, rfl⟩

theorem Child.Moves.moved {child : Child α} (moves : child.Moves) {taken : α} {box set : Box α}
    (ends : (moves.peers inFlex).End node other placement drift area taken box set)
    (resembles : node.Resembles other) (rigid : drift.Rigid)
    (along : placement.GoesAlong node drift area) : set = box.drifted drift := by
  rcases ends.exists_ends resembles rigid along fun _ => ⟨rfl, rfl⟩ with
    ⟨-, same⟩ | ⟨placed, there, lift, inner, innerSet, ends⟩
  · exact same
  · have second := ends.second
    rw [ends.setAt.eq_of_still rfl] at second
    obtain ⟨_, _, yields, yieldsToo, -, goes⟩ := moves rigid placed (drift.carry placed.positioned)
    obtain rfl := yields.unique ends.first
    obtain rfl := yieldsToo.unique second
    rw [ends.isBox, ends.isSet, goes (.inl rfl), rigid.drifted_comm]

structure SamePeers (children : List (Child α)) (peers : List (Peers α inFlex)) : Prop where
  first : peers.map (·.first) = children
  second : peers.map (·.second) = children
  moved : ∀ peer ∈ peers, ∀ {node other : Styled α} {placement : Placement α} {drift : Drift α}
    {area : Rect α} {taken : α} {box set : Box α},
    peer.End node other placement drift area taken box set → node.Resembles other → drift.Rigid →
      placement.GoesAlong node drift area → set = box.drifted drift

theorem exists_samePeers {children : List (Child α)} (moves : ∀ child ∈ children, child.Moves)
    (inFlex : Bool) : ∃ peers : List (Peers α inFlex), SamePeers children peers := by
  induction children with
  | nil => exact ⟨[], rfl, rfl, List.forall_mem_nil _⟩
  | cons child rest ih =>
      obtain ⟨isMoving, areMoving⟩ := List.forall_mem_cons.mp moves
      obtain ⟨peers, first, second, moved⟩ := ih areMoving
      exact ⟨isMoving.peers inFlex :: peers, congrArg (child :: ·) first, congrArg (child :: ·) second,
        List.forall_mem_cons.mpr ⟨isMoving.moved, moved⟩⟩

theorem SamePeers.exists_peer {children : List (Child α)} {peers : List (Peers α inFlex)}
    (same : SamePeers children peers) {index : Nat} {child : Child α}
    (isChild : children[index]? = some child) :
    ∃ peer, peers[index]? = some peer ∧ peer.first = child ∧ peer.second = child := by
  have isFirst := isChild
  rw [← same.first, List.getElem?_map] at isFirst
  obtain ⟨peer, isPeer, first⟩ := Option.map_eq_some_iff.mp isFirst
  refine ⟨peer, isPeer, first, ?_⟩
  rw [← same.second, List.getElem?_map, isPeer] at isChild
  exact Option.some.inj isChild

theorem SamePeers.map_drifted {children : List (Child α)} {peers : List (Peers α inFlex)}
    (same : SamePeers children peers) {taken : α} {boxes sets : List (Box α)}
    (ends : Threefold (Peers.End node other placement drift area taken) peers boxes sets)
    (resembles : node.Resembles other) (rigid : drift.Rigid)
    (along : placement.GoesAlong node drift area) : sets = boxes.map (Box.drifted drift) := by
  have moved := same.moved
  clear same
  induction ends with
  | nil => rfl
  | cons head tail ih =>
      obtain ⟨isMoved, areMoved⟩ := List.forall_mem_cons.mp moved
      rw [List.map_cons, isMoved head resembles rigid along, ih areMoved]

/-- A block whose children drift away with it. -/
theorem blockBox_carry (node : Styled α) (drift : Drift α) (frame : Rect α) (padding : Edges α)
    (boxes : List (Box α)) :
    blockBox node (drift.carry frame) padding (boxes.map (Box.drifted drift)) =
      (blockBox node frame padding boxes).drifted drift := by
  rw [Box.drifted_eq]
  rfl

theorem moves_layoutBlock (node : Styled α) {children : List (Child α)}
    (moves : ∀ child ∈ children, child.Moves) : (⟨node, layoutBlock node children⟩ : Child α).Moves := by
  intro drift rigid placement area
  obtain ⟨peers, same⟩ := exists_samePeers moves node.isFlex
  have resembles := Styled.Resembles.refl node
  have pairs := level_layoutBlock rfl resembles.toAkin rigid peers placement area
  rw [same.first, same.second] at pairs
  refine pairs.weaken ?_
  rintro _ _ ⟨taken, boxes, sets, rfl, rfl, ends⟩
  constructor
  · rw [Box.frame_drifted, Box.frame_drifted]
    exact rigid.carry_comm _ _
  · intro along
    rw [same.map_drifted ends resembles rigid along, blockBox_carry, rigid.drifted_comm]

theorem moves_image (node : Styled α) :
    (⟨node, fun placement => return layoutImage node placement⟩ : Child α).Moves := by
  intro drift rigid placement area
  have set : layoutImage node (placement.carried drift area) =
      (layoutImage node placement).drifted drift := by
    rw [Box.drifted_eq]
    rfl
  refine .pure ?_
  rw [set]
  exact ⟨Box.frame_drifted drift _, fun _ => rfl⟩

mutual

/-- The box of a node goes where the node is placed. -/
theorem moves_layoutNode (node : Styled α) : (⟨node, layoutNode node⟩ : Child α).Moves := by
  cases node with
  | text content style fontSize =>
      rw [layoutNode]
      exact moves_layoutBlock _ (List.forall_mem_nil _)
  | element head style fontSize children =>
      rw [layoutNode]
      split
      · exact moves_image _
      · exact moves_layoutBlock _ (moves_layoutChildren children)

theorem moves_layoutChildren (nodes : List (Styled α)) :
    ∀ child ∈ layoutChildren nodes, child.Moves := by
  cases nodes with
  | nil =>
      rw [layoutChildren]
      exact List.forall_mem_nil _
  | cons node rest =>
      rw [layoutChildren]
      exact List.forall_mem_cons.mpr ⟨moves_layoutNode node, moves_layoutChildren rest⟩

end

/-- A node gives a box wherever it is placed. -/
theorem exists_layoutNode (node : Styled α) (placement : Placement α) :
    ∃ box, (layoutNode node placement).Yields box := by
  obtain ⟨box, _, yields, -⟩ := moves_layoutNode node .none placement placement.positioned
  exact ⟨box, yields⟩

/-- The frame of a block, whatever is in it. -/
theorem exists_blockFrame {box : Box α} (notImage : node.tag ≠ "img")
    (yields : (layoutNode node placement).Yields box) :
    ∃ taken, box.frame =
      (ownDrift node placement.containingWidth).carry (blockFrame node placement taken) := by
  have blocks : ∀ {children : List (Child α)}, (∀ child ∈ children, child.Moves) →
      (layoutBlock node children placement).Yields box → ∃ taken, box.frame =
        (ownDrift node placement.containingWidth).carry (blockFrame node placement taken) := by
    intro children moves yields
    obtain ⟨peers, same⟩ := exists_samePeers moves node.isFlex
    obtain ⟨_, _, again, -, ⟨taken, boxes, sets, rfl, -⟩⟩ := level_layoutBlock rfl
      (Styled.Resembles.refl node).toAkin .none peers placement placement.positioned
    rw [same.first] at again
    rw [← again.unique yields]
    exact ⟨taken, Box.frame_drifted _ _⟩
  cases node with
  | text content style fontSize => exact blocks (List.forall_mem_nil _) (by rwa [layoutNode] at yields)
  | element head style fontSize children =>
      rw [layoutNode, if_neg (by simpa [Styled.tag] using notImage)] at yields
      exact blocks (moves_layoutChildren children) yields

/-! ## Trees that differ in one child -/

theorem layoutChildren_eq_map (nodes : List (Styled α)) :
    layoutChildren nodes = nodes.map fun node => ⟨node, layoutNode node⟩ := by
  induction nodes with
  | nil => rw [layoutChildren, List.map_nil]
  | cons node rest ih => rw [layoutChildren, List.map_cons, ih]

def Box.withChild (box : Box α) (index : Nat) (child : Box α) : Box α :=
  { box with children := box.children.set index child }

theorem Drift.drifted_withChild (drift : Drift α) (box : Box α) (index : Nat) (child : Box α) :
    (box.withChild index child).drifted drift =
      (box.drifted drift).withChild index (child.drifted drift) := by
  rw [Box.withChild, Box.drifted_eq, Box.drifted_eq drift box, List.map_set]
  rfl

/-- What two blocks hold that differ in one child at most. -/
structure Box.Holds (node other : Styled α) (placement : Placement α) (drift : Drift α)
    (area : Rect α) (peers : Peers α inFlex) (index : Nat) (box set : Box α) : Prop where
  intro ::
  parts : ∃ taken inner innerSet,
    box.frame = (ownDrift node placement.containingWidth).carry (blockFrame node placement taken) ∧
    set.frame = drift.carry box.frame ∧
    box.children[index]? = some (inner.drifted (ownDrift node placement.containingWidth)) ∧
    set.children[index]? = some (innerSet.drifted (ownDrift node placement.containingWidth)) ∧
    peers.End node other placement drift area taken inner innerSet ∧
    (placement.GoesAlong node drift area →
      set = (box.drifted drift).withChild index
        (innerSet.drifted (ownDrift node placement.containingWidth)))

/-- The boxes on both sides of a child go along with the block. -/
theorem exists_exchanged {before after : List (Child α)} {befores afters : List (Peers α inFlex)}
    {peers : Peers α inFlex} {taken : α} {boxes sets : List (Box α)}
    (sameBefore : SamePeers before befores) (sameAfter : SamePeers after afters)
    (ends : Threefold (Peers.End node other placement drift area taken) (befores ++ peers :: afters)
      boxes sets)
    (resembles : node.Resembles other) (rigid : drift.Rigid) :
    ∃ inner innerSet, boxes[before.length]? = some inner ∧ sets[before.length]? = some innerSet ∧
      peers.End node other placement drift area taken inner innerSet ∧
      (placement.GoesAlong node drift area →
        sets = (boxes.map (Box.drifted drift)).set before.length innerSet) := by
  have length : befores.length = before.length := by
    rw [← sameBefore.first, List.length_map]
  obtain ⟨boxes, _, sets, _, rfl, rfl, begins, rest⟩ := ends.exists_append
  obtain ⟨isIndex, isIndexToo⟩ := begins.length_eq
  cases rest with
  | @cons _ inner innerSet _ more moreSets atPlace goesOn =>
      refine ⟨inner, innerSet, ?_, ?_, atPlace, fun along => ?_⟩
      · simp [← length, ← isIndex]
      · simp [← length, ← isIndexToo]
      · rw [sameBefore.map_drifted begins resembles rigid along,
          sameAfter.map_drifted goesOn resembles rigid along]
        simp [← length, ← isIndex]

variable {head : Html.Element} {style : Properties} {fontSize : α} {before after : List (Styled α)}

theorem map_around {each : Peers α inFlex → Child α} {befores afters : List (Peers α inFlex)}
    {peers : Peers α inFlex} (isBefore : befores.map each = layoutChildren before)
    (isHere : each peers = ⟨node, layoutNode node⟩) (isAfter : afters.map each = layoutChildren after) :
    (befores ++ peers :: afters).map each = layoutChildren (before ++ node :: after) := by
  rw [layoutChildren_eq_map] at isBefore isAfter ⊢
  simp [isBefore, isHere, isAfter]

/-- Elements that differ in one child at most set it alike, and all others the same. -/
theorem level_inside (notImage : head.tag ≠ "img")
    (isFlex : (Styled.element head style fontSize (before ++ node :: after)).isFlex = inFlex)
    (peers : Peers α inFlex) (first : peers.first = ⟨node, layoutNode node⟩)
    (second : peers.second = ⟨other, layoutNode other⟩) (rigid : drift.Rigid)
    (placement : Placement α) (area : Rect α) :
    (layoutNode (.element head style fontSize (before ++ node :: after)) placement).Pairs
      (layoutNode (.element head style fontSize (before ++ other :: after))
        (placement.carried drift area))
      (Box.Holds (.element head style fontSize (before ++ node :: after))
        (.element head style fontSize (before ++ other :: after)) placement drift area peers
        before.length) := by
  obtain ⟨befores, sameBefore⟩ := exists_samePeers (moves_layoutChildren before) inFlex
  obtain ⟨afters, sameAfter⟩ := exists_samePeers (moves_layoutChildren after) inFlex
  let parent := Styled.element head style fontSize (before ++ node :: after)
  have resembles : parent.Resembles (.element head style fontSize (before ++ other :: after)) :=
    .of_head head style fontSize _ _
  have pairs := level_layoutBlock isFlex resembles.toAkin rigid (befores ++ peers :: afters) placement
    area
  rw [map_around sameBefore.first first sameAfter.first,
    map_around sameBefore.second second sameAfter.second] at pairs
  rw [layoutNode, layoutNode, if_neg (by simpa using notImage), if_neg (by simpa using notImage)]
  refine pairs.weaken ?_
  rintro _ _ ⟨taken, boxes, sets, rfl, rfl, ends⟩
  obtain ⟨inner, innerSet, isInner, isInnerSet, atPlace, exchanged⟩ :=
    exists_exchanged sameBefore sameAfter ends resembles rigid
  have length : (layoutChildren before).length = before.length := by
    rw [layoutChildren_eq_map, List.length_map]
  rw [length] at isInner isInnerSet exchanged
  refine ⟨taken, inner, innerSet, Box.frame_drifted _ _, ?_, Box.child_drifted _ isInner,
    Box.child_drifted _ isInnerSet, atPlace, fun along => ?_⟩
  · rw [Box.frame_drifted, Box.frame_drifted]
    exact rigid.carry_comm _ _
  · rw [exchanged along, ← rigid.drifted_comm, ← blockBox_carry parent]
    exact (ownDrift parent placement.containingWidth).drifted_withChild
      (blockBox parent (drift.carry (blockFrame parent placement taken))
        (parent.padding placement.containingWidth) (boxes.map (Box.drifted drift))) before.length
      innerSet

end SlidePress.Layout
