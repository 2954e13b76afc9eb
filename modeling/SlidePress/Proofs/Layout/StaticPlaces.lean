import SlidePress.Proofs.Layout.AnchoredBoxes

/-! Absolute boxes without offsets. Such a box stands where it would stand in the flow of its parent.
If its parent gets a position it stays at its place from left to right; but where nothing fixes the
height of the parent it is set again at the top of the parent, below no matter how much of the flow it
came. It stays where it is if nothing but absolute boxes came before. -/

namespace SlidePress.Layout

open Polling

variable {α : Type} [Scalar α]

/-! ## A block that gets a position -/

def Styled.relative : Styled α → Styled α
  | .text content style fontSize => .text content style fontSize
  | .element head style fontSize children =>
      .element head (style.insert "position" "relative") fontSize children

def Styled.HasNoOffsets (node : Styled α) : Prop :=
  ∀ property ∈ (["left", "right", "top", "bottom"] : List Text), ∀ base,
    node.offset? property base = none

variable {node block child : Styled α} {placement : Placement α} {box : Box α} {index : Nat}

omit [Scalar α] in
theorem get?_relative {property : Text} (another : property ≠ "position") :
    node.relative.style.get? property = node.style.get? property := by
  cases node with
  | text content style fontSize => rfl
  | element head style fontSize children => exact Table.get?_insert_of_ne (Ne.symm another) _ _

theorem offset?_relative {property : Text} (another : property ≠ "position") (base : α) :
    node.relative.offset? property base = node.offset? property base := by
  have lengths : node.relative.lengths base = node.lengths base := by
    cases node with
    | text content style fontSize => rfl
    | element head style fontSize children => rfl
  rw [Styled.offset?, Styled.offset?, Styled.length?, Styled.length?, lengths, Styled.value,
    Styled.value, styleValueOf, styleValueOf, styleValue, styleValue, get?_relative another]

omit [Scalar α] in
theorem value_relative (notText : block.isText = false) :
    block.relative.value "position" = "relative" := by
  cases block with
  | text content style fontSize => cases notText
  | element head style fontSize children =>
      have position : (Styled.element head style fontSize children).relative.style.get? "position" =
          some ("relative" : Text) := Table.get?_insert_self _ _ _
      rw [Styled.value, styleValueOf, styleValue, position]
      decide

omit [Scalar α] in
theorem akin_relative (notText : block.isText = false) (unpositioned : block.isPositioned = false) :
    block.Akin block.relative := by
  have isAbsolute : block.isAbsolute = block.relative.isAbsolute :=
    (not_absolute_of_unpositioned unpositioned).trans
      (positioned_of_relative (value_relative notText)).2.symm
  have style : ∀ property, isPlacing property = false →
      block.style.get? property = block.relative.style.get? property := by
    intro property another
    refine (get?_relative ?_).symm
    rintro rfl
    exact absurd another (by decide)
  cases block with
  | text content style fontSize => cases notText
  | element head style fontSize children => exact ⟨rfl, rfl, rfl, rfl, isAbsolute, style⟩

/-- A relative block without offsets stays where it is. -/
theorem ownDrift_relative (zero : ((0.0 : α) == 0.0) = true) (notText : block.isText = false)
    (noOffsets : block.HasNoOffsets) (containingWidth : α) :
    ownDrift block.relative containingWidth = .none := by
  have nothing : ∀ property ∈ (["left", "right", "top", "bottom"] : List Text), ∀ base,
      block.relative.offset? property base = none := by
    intro property member base
    have another : property ≠ "position" := by
      rintro rfl
      exact absurd member (by decide)
    rw [offset?_relative another]
    exact noOffsets property member base
  have shift : relativeShift block.relative containingWidth = (0.0, 0.0) := by
    unfold relativeShift
    rw [nothing "left" (by decide), nothing "right" (by decide), nothing "top" (by decide),
      nothing "bottom" (by decide)]
  have both : ((0.0 : α) == 0.0 && (0.0 : α) == 0.0) = true := by
    rw [zero]
    rfl
  rw [ownDrift, value_relative notText, if_pos (by decide), shift]
  exact if_pos both

/-- The boxes of a block, and of the block with a position, at the same placement. -/
theorem level_relative {drift : Drift α} (rigid : drift.Rigid) {head : Html.Element}
    {style : Properties} {fontSize : α} {children : List (Styled α)}
    (unpositioned : (Styled.element head style fontSize children).isPositioned = false)
    (notImage : head.tag ≠ "img")
    (peers : List (Peers α (Styled.element head style fontSize children).isFlex))
    (first : peers.map (·.first) = layoutChildren children)
    (second : peers.map (·.second) = layoutChildren children) (placement : Placement α)
    (area : Rect α) :
    (layoutNode (.element head style fontSize children) placement).Pairs
      (layoutNode (Styled.element head style fontSize children).relative
        (placement.carried drift area))
      (Box.Level (.element head style fontSize children)
        (Styled.element head style fontSize children).relative placement drift area peers) := by
  have pairs := level_layoutBlock rfl (akin_relative rfl unpositioned) rigid peers placement area
  rw [first, second] at pairs
  rw [layoutNode, Styled.relative, layoutNode, if_neg (by simpa using notImage),
    if_neg (by simpa using notImage)]
  exact pairs

/-- That a block gets a position is not noticed outside. -/
theorem unnoticed_relative (zero : ((0.0 : α) == 0.0) = true)
    (unpositioned : block.isPositioned = false) (noOffsets : block.HasNoOffsets)
    (notImage : block.tag ≠ "img") (notText : block.isText = false) :
    Unnoticed block block.relative := by
  have akin := akin_relative notText unpositioned
  cases block with
  | text content style fontSize => cases notText
  | element head style fontSize children =>
      refine ⟨?_, fun drift rigid placement area => ?_, fun isAbsolute => ?_⟩
      · refine .element ⟨rfl, rfl, rfl, rfl, akin.isAbsolute, akin.style⟩ ?_
        exact List.forall₂_same.mpr fun node _ => (Styled.Like.refl node).toAlike
      · obtain ⟨peers, same⟩ := exists_samePeers (moves_layoutChildren children)
          (Styled.element head style fontSize children).isFlex
        refine (level_relative rigid unpositioned notImage peers same.first same.second placement
          area).weaken ?_
        rintro _ _ ⟨taken, boxes, sets, rfl, rfl, -⟩
        rw [ownDrift_relative zero rfl noOffsets, ownDrift_of_unpositioned unpositioned,
          Box.drifted_none, Box.drifted_none]
        rfl
      · cases (not_absolute_of_unpositioned unpositioned).symm.trans isAbsolute

/-! ## Boxes without offsets -/

/-- The box of an absolute node stands where it is placed. -/
theorem place_layoutNode (isAbsolute : node.isAbsolute = true)
    (yields : (layoutNode node placement).Yields box) :
    box.frame.x = placement.x ∧ box.frame.y = placement.y := by
  have still : ∀ containingWidth : α, ownDrift node containingWidth = .none := by
    intro containingWidth
    have notRelative : (node.value "position" == "relative") = false := by
      refine beq_eq_false_iff_ne.mpr fun relative => ?_
      cases (positioned_of_relative relative).2.symm.trans isAbsolute
    rw [ownDrift, notRelative]
    rfl
  by_cases isImage : node.tag = "img"
  · cases node with
    | text content style fontSize =>
        exact absurd (show Html.textTag = "img" from isImage) (by decide)
    | element head style fontSize children =>
        rw [layoutNode, if_pos (by simpa [Styled.tag] using isImage)] at yields
        have same : box = layoutImage (.element head style fontSize children) placement :=
          yields.unique fun _ => rfl
        rw [same]
        exact ⟨rfl, rfl⟩
  · obtain ⟨taken, frame⟩ := exists_blockFrame isImage yields
    rw [frame, still]
    exact ⟨rfl, rfl⟩

/-- An absolute box without offsets stands at its place in the flow. -/
theorem place_layoutAbsolute (isAbsolute : child.isAbsolute = true) (noOffsets : child.HasNoOffsets)
    {area : Rect α} {staticX staticY : α}
    (yields : (layoutAbsolute ⟨child, layoutNode child⟩ area staticX staticY).Yields box) :
    box.frame.x = staticX + (child.margin area.width).left ∧
      box.frame.y = staticY + (child.margin area.width).top := by
  let place := absolutePlacement child area staticX staticY
  obtain ⟨inner, yieldsInner⟩ := exists_layoutNode child place
  have hangs := exists_of_layoutAbsolute yields yieldsInner
  have still : hangDrift child area inner.frame = .none := by
    unfold hangDrift hangsBy?
    rw [noOffsets "top" (by decide), noOffsets "bottom" (by decide)]
  have left : place.x = staticX + (child.margin area.width).left := by
    change absoluteLeft _ _ _ _ _ _ = _
    rw [noOffsets "left" (by decide), noOffsets "right" (by decide)]
    rfl
  have top : place.y = staticY + (child.margin area.width).top := by
    simp only [place, absolutePlacement, noOffsets "top" (by decide)]
  obtain ⟨atX, atY⟩ := place_layoutNode isAbsolute yieldsInner
  rw [hangs, still, Box.drifted_none, atX, atY]
  exact ⟨left, top⟩

/-- The absolute children of a block stand at its left edge. Once the block has a position and no known
height, they stand at the top of its content as well. -/
structure StaticPair (block child : Styled α) (placement : Placement α) (staticY : α) (box set : Box α) :
    Prop where
  left : set.frame.x = box.frame.x
  top : box.frame.y = staticY + (child.margin 0.0).top
  again : set.frame.y = (if (knownHeight? block placement).isNone then
    (blockInterior block placement).area.y else staticY) + (child.margin 0.0).top

theorem hangTop_relative (notText : block.isText = false) (unpositioned : block.isPositioned = false)
    (staticY : α) :
    hangTop block.relative placement staticY =
      if (knownHeight? block placement).isNone then (blockInterior block placement).area.y
      else staticY := by
  have akin := akin_relative notText unpositioned
  have known : knownHeight? block.relative placement = knownHeight? block placement :=
    knownHeight?_carry akin placement placement.positioned .none
  have interior := congrArg Interior.area
    (blockInterior_carry akin placement placement.positioned .none)
  have area : (blockInterior block.relative placement).area = (blockInterior block placement).area :=
    interior
  have positioned : block.relative.isPositioned = true :=
    (positioned_of_relative (value_relative notText)).1
  rw [hangTop, setsAgain, known, area, positioned, Bool.true_and]

theorem staticPair_of_layoutAbsolute (notText : block.isText = false)
    (unpositioned : block.isPositioned = false) (isAbsolute : child.isAbsolute = true)
    (noOffsets : child.HasNoOffsets) (margins : ∀ base, child.margin base = child.margin 0.0)
    {area areaToo : Rect α} {staticX staticY : α} {box set : Box α}
    (hangs : (layoutAbsolute ⟨child, layoutNode child⟩ area staticX
      (hangTop block placement staticY)).Yields box)
    (hangsToo : (layoutAbsolute ⟨child, layoutNode child⟩ areaToo staticX
      (hangTop block.relative placement staticY)).Yields set) :
    StaticPair block child placement staticY box set := by
  have once : hangTop block placement staticY = staticY := by
    rw [hangTop, setsAgain, unpositioned, Bool.false_and]
    rfl
  rw [once] at hangs
  rw [hangTop_relative notText unpositioned] at hangsToo
  obtain ⟨left, top⟩ := place_layoutAbsolute isAbsolute noOffsets hangs
  obtain ⟨leftToo, topToo⟩ := place_layoutAbsolute isAbsolute noOffsets hangsToo
  rw [margins] at left top leftToo topToo
  exact ⟨leftToo.trans left.symm, top, topToo⟩

theorem exists_staticPair (unpositioned : block.isPositioned = false) (notImage : block.tag ≠ "img")
    (isChild : block.children[index]? = some child) (isAbsolute : child.isAbsolute = true)
    (noOffsets : child.HasNoOffsets)
    (margins : ∀ base, child.margin base = child.margin 0.0) {box set : Box α}
    (yields : (layoutNode block placement).Yields box)
    (yieldsToo : (layoutNode block.relative placement).Yields set) :
    ∃ taken staticY inner innerSet,
      box.frame = blockFrame block placement taken ∧ box.children[index]? = some inner ∧
      set.children[index]? =
        some (innerSet.drifted (ownDrift block.relative placement.containingWidth)) ∧
      StaticPair block child placement staticY inner innerSet := by
  cases block with
  | text content style fontSize => cases isChild
  | element head style fontSize children =>
      obtain ⟨peers, same⟩ := exists_samePeers (moves_layoutChildren children)
        (Styled.element head style fontSize children).isFlex
      obtain ⟨_, _, again, againToo, taken, boxes, sets, rfl, rfl, ends⟩ := level_relative .none
        unpositioned notImage peers same.first same.second placement placement.positioned
      rw [← again.unique yields, ← againToo.unique yieldsToo,
        ownDrift_of_unpositioned unpositioned, Box.drifted_none]
      have isHere : (layoutChildren children)[index]? = some ⟨child, layoutNode child⟩ := by
        rw [layoutChildren_eq_map, List.getElem?_map,
          show children[index]? = some child from isChild]
        rfl
      obtain ⟨peer, isPeer, isFirst, isSecond⟩ := same.exists_peer isHere
      obtain ⟨inner, innerSet, isInner, isInnerSet, ends⟩ := ends.exists_getElem? isPeer
      have isInnerSet : (blockBox (Styled.element head style fontSize children).relative
          (blockFrame (.element head style fontSize children) placement taken)
          ((Styled.element head style fontSize children).padding placement.containingWidth)
          sets).children[index]? = some innerSet := isInnerSet
      refine ⟨taken, ?_⟩
      cases ends with
      | inFlow inFlow =>
          rw [isFirst] at inFlow
          cases inFlow.symm.trans isAbsolute
      | @absolute staticY _ _ _ hangs hangsToo =>
          rw [isFirst] at hangs
          rw [isSecond] at hangsToo
          exact ⟨staticY, inner, innerSet, rfl, isInner, Box.child_drifted _ isInnerSet,
            staticPair_of_layoutAbsolute rfl unpositioned isAbsolute noOffsets margins hangs hangsToo⟩

/-! ## Absolute children in front of a flow -/

section Front

variable {parent : Styled α} {interior : Interior α}

/-- Absolute children in front leave the flow where it begins. -/
theorem yields_behind_absolutes {befores rest : List (Child α)}
    (areAbsolute : ∀ child ∈ befores, child.node.isAbsolute = true) {flow : Flow α}
    {progress : Progress (Flow α)}
    (yields : (stepThrough (Flow.add parent interior) flow (segments (befores ++ rest))).Yields
      progress) :
    (stepThrough (Flow.add parent interior)
      { flow with
        slots := (befores.map fun child => Slot.absolute child flow.cursor).reverse ++ flow.slots }
      (segments rest)).Yields progress := by
  induction befores generalizing flow with
  | nil => exact yields
  | cons child befores ih =>
      obtain ⟨isAbsolute, areAbsolute⟩ := List.forall_mem_cons.mp areAbsolute
      rw [List.cons_append, segments, if_pos isAbsolute, stepThrough] at yields
      have stepped := ih areAbsolute (yields.of_bind yields_poll)
      rw [List.map_cons, List.reverse_cons, List.append_assoc]
      exact stepped

/-- What stands in the slots of a flow stays there. -/
theorem exists_slots {parts : List (Segment α)}
    (cancellable : ∀ part ∈ parts, ∀ child ∈ part.members, child.Cancellable) {flow : Flow α}
    {progress : Progress (Flow α)}
    (yields : (stepThrough (Flow.add parent interior) flow parts).Yields progress) :
    progress.complete = true ∧ ∃ more, progress.state.slots = more ++ flow.slots := by
  induction parts generalizing flow with
  | nil =>
      rw [stepThrough] at yields
      rw [← yields.eq_of_pure]
      exact ⟨rfl, [], rfl⟩
  | cons part parts ih =>
      obtain ⟨isCancellable, areCancellable⟩ := List.forall_mem_cons.mp cancellable
      rw [stepThrough] at yields
      have stepped := yields.of_bind yields_poll
      have added : ∃ next, (flow.add parent interior part).Yields next ∧
          ∃ more, next.slots = more ++ flow.slots := by
        cases part with
        | absolute child => exact ⟨_, fun _ => rfl, [.absolute child flow.cursor], rfl⟩
        | inline run => exact ⟨_, fun _ => rfl, _, Flow.slots_addInline parent interior flow run⟩
        | block child =>
            obtain ⟨box, isBox⟩ := (isCancellable child List.mem_cons_self _).yields
            exact ⟨_, isBox.bind fun _ => rfl, [.box box], rfl⟩
      obtain ⟨next, isNext, more, slots⟩ := added
      obtain ⟨complete, further, slotsToo⟩ := ih areCancellable (stepped.of_bind isNext)
      refine ⟨complete, further ++ more, ?_⟩
      rw [slotsToo, slots, List.append_assoc]

omit [Scalar α] in
/-- Each result of a list of computations is that of the computation at its place. -/
theorem exists_mapM {β γ : Type} {each : β → Polling γ} {items : List β}
    (runs : ∀ item ∈ items, ∃ result, (each item).Yields result) :
    ∃ results : List γ, (items.mapM each).Yields results ∧ ∀ (index : Nat) item, items[index]? = some item →
      ∃ result, results[index]? = some result ∧ (each item).Yields result := by
  induction items with
  | nil => exact ⟨[], fun _ => rfl, fun _ _ isItem => nomatch isItem⟩
  | cons first rest ih =>
      obtain ⟨⟨head, isHead⟩, restRuns⟩ := List.forall_mem_cons.mp runs
      obtain ⟨tail, isTail, places⟩ := ih restRuns
      refine ⟨head :: tail, ?_, fun index item isItem => ?_⟩
      · rw [List.mapM_cons]
        exact isHead.bind (isTail.bind fun _ => rfl)
      · cases index with
        | zero =>
            cases isItem
            exact ⟨head, rfl, isHead⟩
        | succ index => exact places index item isItem

/-- An absolute child that comes before all others that are not stands at the top of the flow. -/
theorem exists_front {befores afters : List (Child α)} {child : Child α}
    (cancellable : ∀ other ∈ befores ++ child :: afters, other.Cancellable)
    (areAbsolute : ∀ other ∈ befores, other.node.isAbsolute = true)
    (isAbsolute : child.node.isAbsolute = true) {contents : Contents α}
    (yields : (layoutFlow parent interior (befores ++ child :: afters)).Yields contents) :
    ∃ box, contents.boxes[befores.length]? = some box ∧
      (layoutAbsolute child interior.positioned interior.area.x interior.area.y).Yields box := by
  have waiting : Flow.Cancellable (⟨interior.area.y, none, []⟩ : Flow α) :=
    fun _ _ member => nomatch member
  have parts : ∀ part ∈ segments (befores ++ child :: afters), ∀ other ∈ part.members,
      other.Cancellable := by
    intro part isPart other member
    refine cancellable other ?_
    rw [← members_segments (befores ++ child :: afters)]
    exact List.mem_flatMap.mpr ⟨part, isPart, member⟩
  have loop := Cancellable.stepThrough (fun flow kept part isPart =>
    cancellable_addSegment kept parent interior (parts part isPart)) waiting
  obtain ⟨_, progress, steady⟩ := loop.steady
  have kept : progress.state.Cancellable := loop.given steady
  have fronts : ∀ other ∈ befores ++ [child], other.node.isAbsolute = true :=
    List.forall_mem_append.mpr ⟨areAbsolute, List.forall_mem_singleton.mpr isAbsolute⟩
  have behind := steady.unchecked
  rw [List.append_cons] at behind
  have partsBehind : ∀ part ∈ segments afters, ∀ other ∈ part.members, other.Cancellable := by
    intro part isPart other member
    have inside : other ∈ afters := by
      rw [← members_segments afters]
      exact List.mem_flatMap.mpr ⟨part, isPart, member⟩
    exact cancellable other (List.mem_append_right _ (List.mem_cons_of_mem _ inside))
  obtain ⟨complete, more, slots⟩ := exists_slots partsBehind (yields_behind_absolutes fronts behind)
  have place : progress.state.slots.reverse[befores.length]? =
      some (.absolute child interior.area.y) := by
    rw [slots, List.append_nil, List.reverse_append, List.reverse_reverse, List.map_append,
      List.append_assoc, List.getElem?_append_right (by simp), List.length_map, Nat.sub_self]
    rfl
  have fills : ∀ slot ∈ progress.state.slots.reverse, ∃ box, (fillSlot interior slot).Yields box := by
    intro slot member
    refine (cancellable_fillSlot interior fun other staticY same => kept other staticY ?_).yields
    exact same ▸ List.mem_reverse.mp member
  obtain ⟨boxes, isBoxes, places⟩ := exists_mapM fills
  have ended := yields.of_bind steady.unchecked
  dsimp only at ended
  rw [if_pos complete] at ended
  rw [ended.unique (isBoxes.bind fun _ => rfl)]
  exact places befores.length _ place

end Front

/-- The box of an absolute child of a block without position that only absolute ones come before. -/
theorem exists_front_of_yields (notImage : block.tag ≠ "img") (notFlex : block.isFlex = false)
    (unpositioned : block.isPositioned = false) (isChild : block.children[index]? = some child)
    (areAbsolute : ∀ other ∈ block.children.take index, other.isAbsolute = true)
    (isAbsolute : child.isAbsolute = true) (yields : (layoutNode block placement).Yields box) :
    ∃ inner, box.children[index]? = some inner ∧
      (layoutAbsolute ⟨child, layoutNode child⟩ (blockInterior block placement).positioned
        (blockInterior block placement).area.x (blockInterior block placement).area.y).Yields inner := by
  cases block with
  | text content style fontSize => cases isChild
  | element head style fontSize children =>
      obtain ⟨befores, afters, rfl, rfl, -⟩ :=
        exists_modify (show children[index]? = some child from isChild)
      let parent := Styled.element head style fontSize (befores ++ child :: afters)
      let childOf : Styled α → Child α := fun node => ⟨node, layoutNode node⟩
      have split : layoutChildren (befores ++ child :: afters) =
          befores.map childOf ++ childOf child :: afters.map childOf := by
        rw [layoutChildren_eq_map, List.map_append, List.map_cons]
      have cancellable := cancellable_layoutChildren (befores ++ child :: afters)
      obtain ⟨contents, isContents⟩ :=
        (cancellable_layoutContents parent (blockInterior parent placement) cancellable).yields
      have inFlow := isContents
      rw [layoutContents, notFlex, if_neg Bool.false_ne_true, split] at inFlow
      rw [split] at cancellable
      obtain ⟨inner, isInner, hangs⟩ := exists_front cancellable (fun other member => by
        obtain ⟨node, isNode, rfl⟩ := List.mem_map.mp member
        refine areAbsolute node ?_
        rw [Styled.children, List.take_left]
        exact isNode) isAbsolute inFlow
      rw [layoutNode, if_neg (by simpa [Styled.tag] using notImage), layoutBlock_eq] at yields
      have last := yields.of_bind isContents
      rw [resetAbsolutes, unpositioned, Bool.false_and, Bool.false_and, if_neg Bool.false_ne_true,
        ownDrift_of_unpositioned unpositioned] at last
      refine ⟨inner, ?_, hangs⟩
      rw [← (last.of_bind (yields_pure contents.boxes)).eq_of_pure, Box.drifted_none]
      rw [List.length_map] at isInner
      exact isInner

/-! ## Documents -/

def layoutRelatively (author : Css.Stylesheet) (viewport : Viewport α) (document : Html.Document)
    (path : List Nat) : Box α :=
  (layoutRoot viewport ((styledFreely author document).changeAt Styled.relative path)).freely

/-- A child without offsets stands at the top of the content of a block, and is moved along with it. -/
def AtContentTop (block child : Styled α) (containingWidth : α) (around box : Box α) : Prop :=
  ∃ (top : α) (steps : List α), around.frame.y = steps.foldl (· + ·) top ∧
    box.frame.y = steps.foldl (· + ·)
      (top + block.border.top + (block.padding containingWidth).top + (child.margin 0.0).top)

namespace StaticPair

variable {staticY taken : α} {held heldSet : Box α}
  (static : StaticPair block child placement staticY held heldSet)
include static

/-- Where the height of a block is not known, the child is set at the top of the content. -/
theorem atContentTop (unknown : knownHeight? block placement = none)
    (frame : box.frame = blockFrame block placement taken) (drift : Drift α) (path : List Nat)
    (height : α) :
    AtContentTop block child placement.containingWidth ((box.drifted drift).filled path height)
      (heldSet.drifted drift) := by
  refine ⟨placement.y, drift.down, ?_, ?_⟩
  · rw [Box.y_filled, Box.frame_drifted, frame]
    rfl
  · rw [Box.frame_drifted, Drift.carry, static.again, unknown]
    rfl

/-- Where the height of a block is known, the child stays where it is. -/
theorem y_eq_of_known {height : α} (known : knownHeight? block placement = some height) :
    heldSet.frame.y = held.frame.y := by
  rw [static.again, static.top, known]
  rfl

/-- Behind absolute children alone, the child is at the top of the content anyway. -/
theorem y_eq_of_front (notImage : block.tag ≠ "img") (notFlex : block.isFlex = false)
    (unpositioned : block.isPositioned = false) (isChild : block.children[index]? = some child)
    (areAbsolute : ∀ other ∈ block.children.take index, other.isAbsolute = true)
    (isAbsolute : child.isAbsolute = true) (noOffsets : child.HasNoOffsets)
    (margins : ∀ base, child.margin base = child.margin 0.0)
    (yields : (layoutNode block placement).Yields box) (isHeld : box.children[index]? = some held) :
    heldSet.frame.y = held.frame.y := by
  obtain ⟨front, isFront, hangs⟩ := exists_front_of_yields notImage notFlex unpositioned isChild
    areAbsolute isAbsolute yields
  obtain rfl : held = front := Option.some.inj (isHeld.symm.trans isFront)
  have atFront := (place_layoutAbsolute isAbsolute noOffsets hangs).2
  rw [margins] at atFront
  rw [static.again]
  split
  · exact atFront.symm
  · exact static.top.symm

end StaticPair

theorem Box.drifted_x_eq {box set : Box α} (same : set.frame.x = box.frame.x) (drift : Drift α) :
    (set.drifted drift).frame.x = (box.drifted drift).frame.x := by
  rw [Box.frame_drifted, Box.frame_drifted, Drift.carry, Drift.carry, same]

theorem Box.drifted_y_eq {box set : Box α} (same : set.frame.y = box.frame.y) (drift : Drift α) :
    (set.drifted drift).frame.y = (box.drifted drift).frame.y := by
  rw [Box.frame_drifted, Box.frame_drifted, Drift.carry, Drift.carry, same]

omit [Scalar α] in
theorem isText_of_isChild (isChild : block.children[index]? = some child) : block.isText = false := by
  cases block with
  | text content style fontSize => cases isChild
  | element head style fontSize children => rfl

/-- That a block gets a position does not move an absolute child without offsets to either side, and
does not move it up or down if only absolute children come before. Any other is moved to the top of the
content, unless the height of the block is given to it as an item. -/
theorem static_place_of_relative (zero : ((0.0 : α) == 0.0) = true) (author : Css.Stylesheet)
    (viewport : Viewport α) (document : Html.Document) {path : List Nat}
    (found : (styledFreely author document).blockAt? path = some block)
    (notFlex : block.isFlex = false) (unpositioned : block.isPositioned = false)
    (noHeight : ∀ base, block.fixedHeight? base = none) (blockOffsets : block.HasNoOffsets)
    (isChild : block.children[index]? = some child) (isAbsolute : child.isAbsolute = true)
    (noOffsets : child.HasNoOffsets) (margins : ∀ base, child.margin base = child.margin 0.0) :
    ∃ around box again : Box α, (layoutFreely author viewport document).at? path = some around ∧
      (layoutFreely author viewport document).at? (path ++ [index]) = some box ∧
      (layoutRelatively author viewport document path).at? (path ++ [index]) = some again ∧
      again.frame.x = box.frame.x ∧
      ((∀ other ∈ block.children.take index, other.isAbsolute = true) →
        again.frame.y = box.frame.y) ∧
      (again.frame.y = box.frame.y ∨
        AtContentTop block child (widthAt author viewport document path) around again) ∧
      ((styledFreely author document : Styled α).isItemAt path = false →
        AtContentTop block child (widthAt author viewport document path) around again) := by
  have notImage := notImage_of_blockAt? found
  have notText := isText_of_isChild isChild
  obtain ⟨placement, drift, inner, innerSet, has, hasSet, yields, yieldsSet, width, gives⟩ :=
    documents_reach author viewport document
      (unnoticed_relative zero unpositioned blockOffsets notImage notText) found
  obtain ⟨taken, staticY, held, heldSet, frame, isHeld, isHeldSet, static⟩ :=
    exists_staticPair unpositioned notImage isChild isAbsolute noOffsets margins yields yieldsSet
  rw [ownDrift_relative zero notText blockOffsets, Box.drifted_none] at isHeldSet
  have atTop := fun unknown =>
    static.atContentTop unknown frame drift path viewport.height
  rw [← width]
  refine ⟨_, _, _, has.here, has.child (Box.child_drifted drift isHeld),
    hasSet.child (Box.child_drifted drift isHeldSet), Box.drifted_x_eq static.left drift,
    fun areAbsolute => ?_, ?_, fun notItem => atTop (knownHeight?_of_free noHeight ?_)⟩
  · refine Box.drifted_y_eq ?_ drift
    exact static.y_eq_of_front notImage notFlex unpositioned isChild areAbsolute isAbsolute noOffsets
      margins yields isHeld
  · cases known : knownHeight? block placement with
    | none => exact .inr (atTop known)
    | some height => exact .inl (Box.drifted_y_eq (static.y_eq_of_known known) drift)
  · refine gives.unforced (not_or.mpr ⟨Bool.eq_false_iff.mp notItem, ?_⟩)
    exact Bool.eq_false_iff.mp (not_absolute_of_unpositioned unpositioned)

/-! ## Pages -/

def behindPage : Html.Document :=
  (Html.Document.parse "<div>a<div style=\"position:absolute\">b</div></div>").1

def movingProperties : List Text :=
  (["left", "right", "top", "bottom"] : List Text) ++
    Side.all.map fun side => Css.sideProperty "margin" side []

def Styled.isUnmoved (node : Styled α) : Bool :=
  movingProperties.all fun property => (node.value property).isEmpty

section Unmoved

variable (unmoved : node.isUnmoved = true)
include unmoved

theorem length?_of_isUnmoved {property : Text} (member : property ∈ movingProperties) (base : α) :
    node.length? property base = none := by
  have empty := List.all_eq_true.mp unmoved property member
  rw [Styled.length?, List.isEmpty_iff.mp empty]
  rfl

theorem hasNoOffsets_of_isUnmoved : node.HasNoOffsets := by
  intro property member base
  rw [Styled.offset?, length?_of_isUnmoved unmoved (List.mem_append_left _ member)]
  rfl

theorem margin_of_isUnmoved (base : α) : node.margin base = node.margin 0.0 := by
  have none : ∀ side base, node.length? (Css.sideProperty "margin" side []) base = none := by
    intro side base
    refine length?_of_isUnmoved unmoved (List.mem_append_right _ ?_) base
    exact List.mem_map.mpr ⟨side, by cases side <;> decide, rfl⟩
  unfold Styled.margin Styled.edges
  simp only [none]

end Unmoved

/-- A block in a flow without position, and an absolute child, both without offsets and margins. -/
structure HasStatic (block child : Styled ℚ) : Prop where
  found : (styledFreely ⟨[]⟩ behindPage : Styled ℚ).blockAt? [0] = some block
  notFlex : block.isFlex = false
  unpositioned : block.isPositioned = false
  noHeight : ∀ base, block.fixedHeight? base = none
  blockOffsets : block.HasNoOffsets
  isChild : block.children[1]? = some child
  isAbsolute : child.isAbsolute = true
  noOffsets : child.HasNoOffsets
  margins : ∀ base, child.margin base = child.margin 0.0

theorem exists_hasStatic : ∃ block child, HasStatic block child := by
  have reads : ((styledFreely ⟨[]⟩ behindPage : Styled ℚ).blockAt? [0]).map (fun block =>
      (!block.isFlex && !block.isPositioned && (block.value "height").isEmpty && block.isUnmoved,
        block.children[1]?.map fun child => child.isAbsolute && child.isUnmoved)) =
      some (true, some true) := by decide +kernel
  obtain ⟨block, found, reads⟩ := Option.map_eq_some_iff.mp reads
  simp only [Prod.mk.injEq, Bool.and_eq_true, Bool.not_eq_true', Option.map_eq_some_iff] at reads
  obtain ⟨⟨⟨⟨notFlex, unpositioned⟩, height⟩, unmoved⟩, child, isChild, isAbsolute, unmovedChild⟩ :=
    reads
  refine ⟨block, child, found, notFlex, unpositioned, fun base => ?_,
    hasNoOffsets_of_isUnmoved unmoved, isChild, isAbsolute, hasNoOffsets_of_isUnmoved unmovedChild,
    margin_of_isUnmoved unmovedChild⟩
  rw [Styled.fixedHeight?, List.isEmpty_iff.mp height]
  rfl

/-- The absolute box stays at the left edge, and moves to the top. -/
theorem static_place_behind : ∃ (block child : Styled ℚ) (around box again : Box ℚ),
    HasStatic block child ∧
    (layoutFreely ⟨[]⟩ ⟨800, 600⟩ behindPage).at? [0] = some around ∧
    (layoutFreely ⟨[]⟩ ⟨800, 600⟩ behindPage).at? [0, 1] = some box ∧
    (layoutRelatively ⟨[]⟩ ⟨800, 600⟩ behindPage [0]).at? [0, 1] = some again ∧
    again.frame.x = box.frame.x ∧
    AtContentTop block child (widthAt ⟨[]⟩ ⟨800, 600⟩ behindPage [0]) around again := by
  obtain ⟨block, child, static⟩ := exists_hasStatic
  obtain ⟨around, box, again, atPlace, atChild, atChildToo, left, -, -, top⟩ :=
    static_place_of_relative (by decide +kernel) ⟨[]⟩ ⟨800, 600⟩ behindPage static.found static.notFlex
      static.unpositioned static.noHeight static.blockOffsets static.isChild static.isAbsolute
      static.noOffsets static.margins
  exact ⟨block, child, around, box, again, static, atPlace, atChild, atChildToo, left,
    top (by decide +kernel)⟩

/-- The absolute box does not stay where it stood. -/
theorem not_static_place_behind : ∃ (block child : Styled ℚ) (box again : Box ℚ),
    HasStatic block child ∧
    (layoutFreely ⟨[]⟩ ⟨800, 600⟩ behindPage).at? [0, 1] = some box ∧
    (layoutRelatively ⟨[]⟩ ⟨800, 600⟩ behindPage [0]).at? [0, 1] = some again ∧
    again.frame.y ≠ box.frame.y := by
  obtain ⟨block, child, static⟩ := exists_hasStatic
  have before : ((layoutFreely ⟨[]⟩ ⟨800, 600⟩ behindPage : Box ℚ).at? [0, 1]).map (·.frame.y) =
      some 19.2 := by decide +kernel
  have after : ((layoutRelatively ⟨[]⟩ ⟨800, 600⟩ behindPage [0] : Box ℚ).at? [0, 1]).map
      (·.frame.y) = some 0 := by decide +kernel
  obtain ⟨box, isBox, atBox⟩ := Option.map_eq_some_iff.mp before
  obtain ⟨again, isAgain, atAgain⟩ := Option.map_eq_some_iff.mp after
  refine ⟨block, child, box, again, static, isBox, isAgain, fun same => ?_⟩
  rw [atBox, atAgain] at same
  exact absurd same (by decide +kernel)

end SlidePress.Layout
