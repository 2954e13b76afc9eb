import SlidePress.Proofs.Layout.PeerItems

/-! Peers as children of blocks. A block sets its children in its interior and, where they are placed
against the block itself and nothing fixes its height, sets the absolute ones again once the height is
known. Blocks that are akin set their peers alike, wherever the second one is placed; their frames do
not depend on the area that absolute boxes inside are placed against. -/

namespace SlidePress.Layout

open Polling

variable {α : Type} [Scalar α] {inFlex : Bool} {node other : Styled α} {placement : Placement α}
  {drift : Drift α} {area : Rect α}

/-! ## The parts of a block -/

section Parts

variable (node : Styled α) (placement : Placement α)

def blockBox (frame : Rect α) (padding : Edges α) (boxes : List (Box α)) : Box α :=
  ⟨frame, node.tag, [], node.attributes, withPadding node.style padding, boxes⟩

def paddingArea (height : α) : Rect α :=
  ⟨placement.x + node.border.left, placement.y + node.border.top,
    blockWidth node placement (node.padding placement.containingWidth) node.border -
      node.border.horizontal, height⟩

/-- The height of the content of a block, if it is known before the children are set. -/
def knownHeight? : Option α :=
  (placement.forcedHeight.or (node.fixedHeight? placement.containingHeight)).map fun height =>
    Scalar.positive (height - (node.padding placement.containingWidth).vertical -
      node.border.vertical)

variable {node placement} in
theorem knownHeight?_of_free (noHeight : ∀ base, node.fixedHeight? base = none)
    (free : placement.forcedHeight = none) : knownHeight? node placement = none := by
  rw [knownHeight?, free, noHeight]
  rfl

/-- The interior of a block. Where absolute boxes are placed against the block, its height counts as
far as it is known. -/
def blockInterior : Interior α where
  area :=
    ⟨placement.x + node.border.left + (node.padding placement.containingWidth).left,
      placement.y + node.border.top + (node.padding placement.containingWidth).top,
      Scalar.positive
        (blockWidth node placement (node.padding placement.containingWidth) node.border -
          (node.padding placement.containingWidth).horizontal - node.border.horizontal), 0.0⟩
  height := knownHeight? node placement
  positioned :=
    if node.isPositioned then
      paddingArea node placement ((knownHeight? node placement).getD 0.0 +
        (node.padding placement.containingWidth).vertical)
    else placement.positioned

def blockFrame (taken : α) : Rect α :=
  ⟨placement.x, placement.y,
    blockWidth node placement (node.padding placement.containingWidth) node.border,
    Scalar.positive
      (contentHeight node placement (node.padding placement.containingWidth) node.border
        (knownHeight? node placement) taken +
          (node.padding placement.containingWidth).vertical + node.border.vertical)⟩

def setsAgain : Bool := node.isPositioned && (knownHeight? node placement).isNone

def hangArea (taken : α) : Rect α :=
  if setsAgain node placement then
    paddingArea node placement ((blockFrame node placement taken).height - node.border.vertical)
  else (blockInterior node placement).positioned

/-- The height at which an absolute child stands without offsets at last, from the height that it
has in the flow. -/
def hangTop (staticY : α) : α :=
  if setsAgain node placement then (blockInterior node placement).area.y else staticY

def ownDrift (containingWidth : α) : Drift α :=
  if node.value "position" == "relative" then
    let (right, down) := relativeShift node containingWidth
    if right == 0.0 && down == 0.0 then .none else ⟨[right], [down]⟩
  else .none

theorem moveRelative_eq_drifted (containingWidth : α) (box : Box α) :
    moveRelative node containingWidth box = box.drifted (ownDrift node containingWidth) := by
  unfold moveRelative ownDrift
  split
  · dsimp only
    split
    · exact (Box.drifted_none box).symm
    · rfl
  · exact (Box.drifted_none box).symm

/-- The box of a child at last, from its box in the first pass: an absolute child may be set again. -/
def lastBox (taken : α) (child : Child α) (box : Box α) : Polling (Box α) :=
  if child.node.isAbsolute && setsAgain node placement then
    layoutAbsolute child (hangArea node placement taken) (blockInterior node placement).area.x
      (blockInterior node placement).area.y
  else return box

/-- The boxes of a block at last, when there is one for each child. -/
theorem resetAbsolutes_eq (taken : α) {children : List (Child α)} {boxes : List (Box α)}
    (sameLength : boxes.length = children.length) :
    resetAbsolutes node
        { blockInterior node placement with
          positioned :=
            if node.isPositioned then
              paddingArea node placement
                ((blockFrame node placement taken).height - node.border.vertical)
            else placement.positioned }
        children boxes =
      (children.zip boxes).mapM fun (child, box) => lastBox node placement taken child box := by
  have known : (blockInterior node placement).height = knownHeight? node placement := rfl
  unfold resetAbsolutes lastBox hangArea
  dsimp only
  rw [known, sameLength, beq_self_eq_true, Bool.and_true, ← setsAgain]
  by_cases again : setsAgain node placement = true
  · have positioned : node.isPositioned = true := (Bool.and_eq_true_iff.mp again).1
    simp only [again, positioned, if_true, Bool.and_true]
  · have kept : (children.zip boxes).mapM (fun pair => (return pair.2 : Polling (Box α))) =
        return boxes := by
      rw [List.mapM_pure, List.map_snd_zip sameLength.le]
    simp only [again, Bool.and_false, if_false, Bool.false_eq_true]
    exact kept.symm

/-- A block sets its children, gives the absolute ones their boxes at last, and moves by its own
offsets. -/
theorem layoutBlock_eq (children : List (Child α)) :
    layoutBlock node children placement = do
      let contents ← layoutContents node (blockInterior node placement) children
      let boxes ←
        resetAbsolutes node
          { blockInterior node placement with
            positioned :=
              if node.isPositioned then
                paddingArea node placement
                  ((blockFrame node placement contents.height).height - node.border.vertical)
              else placement.positioned }
          children contents.boxes
      return (blockBox node (blockFrame node placement contents.height)
        (node.padding placement.containingWidth) boxes).drifted
          (ownDrift node placement.containingWidth) := by
  refine bind_congr fun contents => bind_congr fun boxes => ?_
  rw [← moveRelative_eq_drifted]
  rfl

end Parts

/-! ## Blocks of peers -/

theorem Placement.sameRoom_carried (placement : Placement α) (drift : Drift α) (area : Rect α) :
    placement.SameRoom (placement.carried drift area) := ⟨rfl, rfl, rfl, rfl⟩

section Akin

variable (akin : node.Akin other) (placement : Placement α) (area : Rect α)
include akin

theorem knownHeight?_carry (drift : Drift α) :
    knownHeight? other (placement.carried drift area) = knownHeight? node placement := by
  unfold knownHeight?
  rw [← akin.fixedHeight?, ← akin.padding, ← akin.border]
  rfl

theorem blockFrame_carry (drift : Drift α) (taken : α) :
    blockFrame other (placement.carried drift area) taken =
      drift.carry (blockFrame node placement taken) := by
  unfold blockFrame
  rw [knownHeight?_carry akin placement area, ← akin.padding, ← akin.border,
    blockWidth_eq akin (placement.sameRoom_carried drift area),
    contentHeight_eq akin (placement.sameRoom_carried drift area)]
  rfl

variable (rigid : drift.Rigid)
include rigid

theorem paddingArea_carry (height : α) :
    paddingArea other (placement.carried drift area) height =
      drift.carry (paddingArea node placement height) := by
  unfold paddingArea
  rw [← akin.padding, ← akin.border, blockWidth_eq akin (placement.sameRoom_carried drift area)]
  simp [Drift.carry, Placement.carried, rigid.across.add, rigid.below.add]

/-- The interiors of blocks that are akin differ in where they are, and in the area for absolute
boxes. -/
theorem blockInterior_carry :
    blockInterior other (placement.carried drift area) =
      (blockInterior node placement).carried drift
        (blockInterior other (placement.carried drift area)).positioned := by
  unfold blockInterior
  rw [knownHeight?_carry akin placement area, ← akin.padding, ← akin.border,
    blockWidth_eq akin (placement.sameRoom_carried drift area)]
  simp [Drift.carry, Placement.carried, Interior.carried, rigid.across.add, rigid.below.add]

end Akin

/-- How the boxes of peers come about in a block, once the absolute ones are set again. -/
inductive Peers.End (node other : Styled α) (placement : Placement α) (drift : Drift α) (area : Rect α)
    (taken : α) (peers : Peers α inFlex) : Box α → Box α → Prop where
  | inFlow {box set : Box α} (inFlow : peers.first.node.isAbsolute = false)
      (come : peers.Come node (blockInterior node placement) drift
        (blockInterior other (placement.carried drift area)).positioned box set) :
      End node other placement drift area taken peers box set
  | absolute {staticY : α} {box set : Box α} (isAbsolute : peers.first.node.isAbsolute = true)
      (first :
        (layoutAbsolute peers.first (hangArea node placement taken)
          (blockInterior node placement).area.x (hangTop node placement staticY)).Yields box)
      (second :
        (layoutAbsolute peers.second (hangArea other (placement.carried drift area) taken)
          (drift.across (blockInterior node placement).area.x)
          (hangTop other (placement.carried drift area) (drift.below staticY))).Yields set) :
      End node other placement drift area taken peers box set

/-- Blocks of peers, moved by offsets of their own. -/
structure Box.Level (node other : Styled α) (placement : Placement α) (drift : Drift α)
    (area : Rect α) (peers : List (Peers α inFlex)) (box set : Box α) : Prop where
  intro ::
  blocks : ∃ taken boxes sets,
    box = (blockBox node (blockFrame node placement taken) (node.padding placement.containingWidth)
      boxes).drifted (ownDrift node placement.containingWidth) ∧
    set = (blockBox other (drift.carry (blockFrame node placement taken))
      (node.padding placement.containingWidth) sets).drifted
        (ownDrift other placement.containingWidth) ∧
    Threefold (Peers.End node other placement drift area taken) peers boxes sets

theorem level_layoutContents (isFlex : node.isFlex = inFlex) (akin : node.Akin other)
    (rigid : drift.Rigid) (interior : Interior α) (area : Rect α) (peers : List (Peers α inFlex)) :
    (layoutContents node interior (peers.map (·.first))).Pairs
      (layoutContents other (interior.carried drift area) (peers.map (·.second)))
      (Contents.Level node interior drift area peers) := by
  unfold layoutContents
  rw [← akin.isFlex, isFlex]
  cases inFlex with
  | true => exact level_layoutFlex isFlex akin rigid peers
  | false => exact level_layoutFlow akin rigid peers

/-- Where the box of an absolute child hangs at last, from its box in the first pass. -/
theorem exists_lastBox {child : Child α} {staticX staticY : α} {box : Box α} (taken : α)
    (left : (blockInterior node placement).area.x = staticX)
    (isAbsolute : child.node.isAbsolute = true)
    (first :
      (layoutAbsolute child (blockInterior node placement).positioned staticX staticY).Yields box)
    (runs : ∃ set,
      (layoutAbsolute child (hangArea node placement taken) staticX
        (blockInterior node placement).area.y).Yields set) :
    ∃ last, (lastBox node placement taken child box).Yields last ∧
      (layoutAbsolute child (hangArea node placement taken) staticX
        (hangTop node placement staticY)).Yields last := by
  subst left
  unfold lastBox hangTop
  rw [isAbsolute, Bool.true_and]
  cases again : setsAgain node placement with
  | true =>
      obtain ⟨set, yields⟩ := runs
      exact ⟨set, yields, yields⟩
  | false =>
      have kept : hangArea node placement taken = (blockInterior node placement).positioned := by
        rw [hangArea, again]
        rfl
      rw [kept]
      exact ⟨box, fun _ => rfl, first⟩

theorem lastBox_inFlow (taken : α) {child : Child α} (inFlow : child.node.isAbsolute = false)
    (box : Box α) : lastBox node placement taken child box = return box := by
  rw [lastBox, inFlow]
  rfl

/-- The boxes of peers at last. -/
theorem Peers.Come.last {peers : Peers α inFlex} {box set : Box α} (akin : node.Akin other)
    (rigid : drift.Rigid)
    (come : peers.Come node (blockInterior node placement) drift
      (blockInterior other (placement.carried drift area)).positioned box set) (taken : α) :
    (lastBox node placement taken peers.first box).Pairs
      (lastBox other (placement.carried drift area) taken peers.second set)
      (peers.End node other placement drift area taken) := by
  have stays : peers.first.node.isAbsolute = false →
      (lastBox node placement taken peers.first box).Pairs
        (lastBox other (placement.carried drift area) taken peers.second set)
        (peers.End node other placement drift area taken) := by
    intro inFlow
    rw [lastBox_inFlow taken inFlow, lastBox_inFlow taken (peers.alike.isAbsolute.symm.trans inFlow)]
    exact .pure (.inFlow inFlow come)
  cases come with
  | line _ inFlow => exact stays inFlow
  | block _ inFlow => exact stays (Bool.not_eq_true' _ ▸ (Bool.and_eq_true_iff.mp inFlow).2)
  | item _ inFlow => exact stays inFlow
  | @absolute staticY _ _ isAbsolute first second =>
      have left : (blockInterior other (placement.carried drift area)).area.x =
          drift.across (blockInterior node placement).area.x :=
        congrArg (fun interior => interior.area.x) (blockInterior_carry akin placement area rigid)
      obtain ⟨again, againToo, yields, yieldsToo, -⟩ := peers.pairs_layoutAbsolute
        (hangArea node placement taken) (hangArea other (placement.carried drift area) taken)
        (blockInterior node placement).area.x (drift.across (blockInterior node placement).area.x)
        (blockInterior node placement).area.y
        (blockInterior other (placement.carried drift area)).area.y
      obtain ⟨last, lastYields, hung⟩ := exists_lastBox taken rfl isAbsolute first ⟨again, yields⟩
      obtain ⟨lastToo, lastYieldsToo, hungToo⟩ := exists_lastBox taken left
        (peers.alike.isAbsolute.symm.trans isAbsolute) second ⟨againToo, yieldsToo⟩
      exact ⟨last, lastToo, lastYields, lastYieldsToo, .absolute isAbsolute hung hungToo⟩

/-- Blocks that are akin set their peers alike, wherever the second one is placed. -/
theorem level_layoutBlock (isFlex : node.isFlex = inFlex) (akin : node.Akin other)
    (rigid : drift.Rigid) (peers : List (Peers α inFlex)) (placement : Placement α) (area : Rect α) :
    (layoutBlock node (peers.map (·.first)) placement).Pairs
      (layoutBlock other (peers.map (·.second)) (placement.carried drift area))
      (Box.Level node other placement drift area peers) := by
  have contents := level_layoutContents isFlex akin rigid (blockInterior node placement)
    (blockInterior other (placement.carried drift area)).positioned peers
  rw [← blockInterior_carry akin placement area rigid] at contents
  rw [layoutBlock_eq, layoutBlock_eq]
  refine contents.bind ?_
  rintro contents too ⟨come, height⟩
  obtain ⟨sameLength, lengthToo⟩ := come.length_eq
  rw [resetAbsolutes_eq node placement _ (sameLength.trans (List.length_map _).symm),
    resetAbsolutes_eq other _ _ (lengthToo.trans (List.length_map _).symm), height, ← akin.padding,
    blockFrame_carry akin placement area]
  refine (Pairs.mapM (zip_follow come) ?_).bind fun boxes sets ends =>
    .pure ⟨contents.height, boxes, sets, rfl, rfl, ends⟩
  rintro peers ⟨child, box⟩ ⟨childToo, set⟩ ⟨rfl, rfl, come⟩
  exact come.last akin rigid contents.height

end SlidePress.Layout
