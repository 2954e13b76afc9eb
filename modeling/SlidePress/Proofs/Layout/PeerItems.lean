import SlidePress.Proofs.Layout.Peers

/-! Peers as items of flex containers. Two containers with the same room measure and plan their peers
alike, and place them alike, the second one elsewhere. Every item that is no text ends up with its box
at a placement inside the container, moved along the cross axis by its alignment; a height that it is
given there comes from its style, from a box of its own, or is a distance that is not negative. An item
that is stretched over a row is set a second time, beginning where its first box stands; here a peer
that has moved away from its place moves away once more. -/

namespace SlidePress.Layout

open Polling

variable {α : Type} [Scalar α] {parent other : Styled α} {interior : Interior α} {drift : Drift α}
  {area : Rect α}

/-! ## Sizes -/

theorem Peers.level_probeHeight (peers : Peers α true) (akin : parent.Akin other)
    (margin : Edges α) :
    (probeHeight parent interior peers.first margin).Pairs
      (probeHeight other (interior.carried drift area) peers.second margin)
      fun height found => found = height ∧
        (peers.first.node.isText = false → peers.first.Rises height) := by
  unfold probeHeight
  dsimp only
  rw [← peers.alike.isText]
  refine .ite (fun isText => ?_) fun _ => ?_
  · have same := (peers.plain (by rw [Styled.standsAlone, isText]; rfl)).1
    refine .pure ⟨?_, fun notText => ?_⟩
    · rw [← same, layoutInline_eq_of_akin akin]
      rfl
    · rw [isText] at notText
      cases notText
  · -- Both are set at the same place to see, wherever the containers are.
    refine (peers.level .none _ area).keep.bind ?_
    rintro box set ⟨yields, -, frame⟩
    refine .pure ⟨?_, fun _ => .own yields⟩
    rw [frame]
    rfl

theorem Peers.level_baseSize (peers : Peers α true) (isRow : Bool) (akin : parent.Akin other)
    (margin : Edges α) :
    (baseSize parent isRow interior peers.first margin).Pairs
      (baseSize other isRow (interior.carried drift area) peers.second margin)
      fun size found => found = size ∧
        (isRow = false → peers.first.node.isText = false → peers.first.Rises size) := by
  have room := interior.sameRoom_carried drift area
  unfold baseSize
  dsimp only
  rw [room.mainSize, room.width, room.height, ← peers.alike.lengths, ← peers.alike.isText,
    ← peers.alike.line, ← peers.alike.width, ← peers.alike.fixedWidth?, ← peers.alike.fixedHeight?,
    ← peers.alike.valueD (show isPlacing "flex-basis" = false by decide)]
  split
  · rename_i length basis
    refine .pure ⟨rfl, fun _ _ => .basis ?_⟩
    exact of_decide_eq_true (Option.filter_eq_some_iff.mp basis).2
  · refine .ite (fun inRow => ?_) fun _ => ?_
    · have nowhere : ∀ size : α, isRow = false → peers.first.node.isText = false →
          peers.first.Rises size := fun _ inColumn => absurd inRow (by rw [inColumn]; exact nofun)
      exact .ite (fun _ => .pure ⟨rfl, nowhere _⟩) fun _ => .pure ⟨rfl, nowhere _⟩
    · split
      · rename_i height fixed
        refine .pure ⟨rfl, fun _ notText => ?_⟩
        rw [notText] at fixed
        exact .fixed fixed
      · exact (peers.level_probeHeight akin margin).weaken fun height found both =>
          ⟨both.1, fun _ => both.2⟩

structure FlexBase.Rising (isRow : Bool) (base : FlexBase α) : Prop where
  grow : ∃ factor, base.grow = Scalar.positive factor
  base : isRow = false → base.child.node.isText = false → base.child.Rises base.base

def FlexItem.Rising (isRow : Bool) (item : FlexItem α) : Prop :=
  isRow = false → item.child.node.isText = false → item.child.Rises item.main

structure LevelBases (isRow : Bool) (done : List (Peers α true)) (bases found : List (FlexBase α)) :
    Prop where
  follow : Threefold (FlexBase.Follow Peers.first Peers.second) done bases.reverse found.reverse
  rising : ∀ base ∈ bases, base.Rising isRow

theorem exists_flexFactor (node : Styled α) (property default : Text) :
    ∃ factor : α, flexFactor node property default = Scalar.positive factor := by
  unfold flexFactor
  split
  · exact ⟨_, rfl⟩
  · exact ⟨_, rfl⟩

theorem LevelBases.addBase {isRow : Bool} {done : List (Peers α true)}
    {bases found : List (FlexBase α)} (level : LevelBases isRow done bases found)
    (peers : Peers α true) (akin : parent.Akin other) :
    (addBase parent isRow interior bases peers.first).Pairs
      (Layout.addBase other isRow (interior.carried drift area) found peers.second)
      (LevelBases isRow (done ++ [peers])) := by
  unfold Layout.addBase
  dsimp only
  rw [← peers.alike.margin,
    ← peers.alike.flexFactor (show isPlacing "flex-grow" = false by decide),
    ← peers.alike.flexFactor (show isPlacing "flex-shrink" = false by decide)]
  refine (peers.level_baseSize isRow akin _).bind ?_
  rintro size _ ⟨rfl, rises⟩
  refine .pure ⟨?_, List.forall_mem_cons.mpr ⟨⟨exists_flexFactor _ _ _, rises⟩, level.rising⟩⟩
  rw [List.reverse_cons, List.reverse_cons]
  exact level.follow.concat ⟨rfl, rfl⟩

/-- What grows or shrinks from a height is one too. -/
theorem rising_flexSizes {isRow : Bool} {bases : List (FlexBase α)}
    (rising : ∀ base ∈ bases, base.Rising isRow) (free : α) :
    ∀ item ∈ flexSizes free bases, item.Rising isRow := by
  intro item member inColumn notText
  obtain ⟨base, isBase, rfl⟩ := List.mem_map.mp member
  obtain ⟨⟨factor, grow⟩, rises⟩ := rising base isBase
  have height := rises inColumn notText
  dsimp only
  split
  · rename_i grows
    rw [grow]
    exact .grown factor height grows.1 grows.2
  · split
    · exact .positive _
    · exact height

/-! ## Places -/

theorem flexPlacement_carry {peers : Peers α true} {item found : FlexItem α}
    (follow : item.Follow Peers.first Peers.second peers found) (rigid : drift.Rigid)
    (rules : FlexRules α) (cursor : α) :
    flexPlacement rules (interior.carried drift area) cursor found =
      (flexPlacement rules interior cursor item).carried drift area := by
  obtain ⟨first, rfl⟩ := follow
  unfold flexPlacement
  dsimp only
  split
  · simp [Placement.carried, Interior.carried, Drift.carry, rigid.across.add, rigid.below.add]
  · rw [first, columnWidth?_eq peers.alike rules (interior.sameRoom_carried drift area)]
    simp [Placement.carried, Interior.carried, Drift.carry, rigid.across.add, rigid.below.add]

theorem within_flexPlacement (rules : FlexRules α) (interior : Interior α) (cursor : α)
    (item : FlexItem α) : (flexPlacement rules interior cursor item).Within interior := by
  unfold flexPlacement
  dsimp only
  split
  · exact ⟨rfl, rfl, rfl⟩
  · exact ⟨rfl, rfl, rfl⟩

theorem rises_flexPlacement {rules : FlexRules α} {item : FlexItem α}
    (rising : item.Rising rules.isRow) (interior : Interior α) (cursor : α)
    (notText : item.child.node.isText = false) :
    ∀ height, (flexPlacement rules interior cursor item).forcedHeight = some height →
      item.child.Rises height := by
  intro height forced
  unfold flexPlacement at forced
  dsimp only at forced
  split at forced
  · cases forced
  · rename_i inColumn
    cases forced
    exact rising (Bool.eq_false_iff.mpr inColumn) notText

structure FlexSet.Level (parent : Styled α) (interior : Interior α) (drift : Drift α) (area : Rect α)
    (peers : Peers α true) (item found : FlexSet α) : Prop where
  isFirst : item.child = peers.first
  isSecond : found.child = peers.second
  margin : found.margin = item.margin
  frame : found.box.frame = peers.apart.carry (drift.carry item.box.frame)
  inFlow : peers.first.node.isAbsolute = false
  come : peers.Come parent interior drift area item.box found.box

structure FlexPass.Level (parent : Styled α) (interior : Interior α) (drift : Drift α) (area : Rect α)
    (done : List (Peers α true)) (pass found : FlexPass α) : Prop where
  cursor : found.cursor = pass.cursor
  placed : Threefold (FlexSet.Level parent interior drift area) done pass.placed.reverse
    found.placed.reverse

theorem textItem_carry (akin : parent.Akin other) (rigid : drift.Rigid) (node : Styled α)
    (isRow : Bool) (placement : Placement α) :
    textItem other node isRow (placement.carried drift area) =
      (textItem parent node isRow placement).drifted drift := by
  have set := layoutInline_carry rigid akin [node]
    ⟨placement.x, placement.y, placement.availableWidth, 0.0⟩
  obtain ⟨box, isBox⟩ := List.length_eq_one_iff.mp (length_layoutInline parent [node]
    ⟨placement.x, placement.y, placement.availableWidth, 0.0⟩)
  unfold textItem
  dsimp only [Placement.carried, Drift.carry] at set ⊢
  rw [set, isBox, List.map_singleton]
  dsimp only
  split
  · rfl
  · rw [Box.drifted_eq, Box.drifted_eq]
    rfl

theorem Peers.level_layoutItem (peers : Peers α true) (akin : parent.Akin other)
    (rigid : drift.Rigid) (isRow : Bool) (inFlow : peers.first.node.isAbsolute = false)
    {placement : Placement α} (within : placement.Within interior)
    (rises : peers.first.node.isText = false → ∀ height, placement.forcedHeight = some height →
      peers.first.Rises height) :
    (layoutItem parent isRow peers.first placement).Pairs
      (layoutItem other isRow peers.second (placement.carried drift area))
      fun box set => set.frame = peers.apart.carry (drift.carry box.frame) ∧
        peers.Come parent interior drift area box set := by
  unfold layoutItem
  rw [← peers.alike.isText]
  refine .ite (fun isText => ?_) fun notText => ?_
  · have inLine : peers.first.node.standsAlone true = false := by
      rw [Styled.standsAlone, isText]
      rfl
    obtain ⟨same, still⟩ := peers.plain inLine
    refine .pure ?_
    rw [← same, textItem_carry akin rigid, still]
    exact ⟨Box.frame_drifted drift _, .line inLine inFlow⟩
  · refine (peers.level rigid placement area).keep.weaken ?_
    rintro box set ⟨yields, yieldsToo, frame⟩
    refine ⟨frame, ?_⟩
    rw [← Box.drifted_none box, ← Box.drifted_none set]
    exact .item rfl inFlow within (rises (Bool.eq_false_iff.mpr notText)) (.inl rfl) (.inl rfl)
      yields yieldsToo

theorem FlexPass.Level.placeItem {done : List (Peers α true)} {pass found : FlexPass α}
    (level : pass.Level parent interior drift area done found) (akin : parent.Akin other)
    (rigid : drift.Rigid) (rules : FlexRules α) (spacing : α) {peers : Peers α true}
    {item planned : FlexItem α} (inFlow : peers.first.node.isAbsolute = false)
    (same : item.Follow Peers.first Peers.second peers planned) (rising : item.Rising rules.isRow) :
    (placeItem parent rules interior spacing pass item).Pairs
      (Layout.placeItem other rules (interior.carried drift area) spacing found planned)
      (FlexPass.Level parent interior drift area (done ++ [peers])) := by
  have carried : flexPlacement rules (interior.carried drift area) pass.cursor planned =
      (flexPlacement rules interior pass.cursor item).carried drift area :=
    flexPlacement_carry same rigid rules pass.cursor
  have rises := rises_flexPlacement rising interior pass.cursor
  unfold Layout.placeItem
  dsimp only
  rw [level.cursor, carried]
  obtain ⟨first, rfl⟩ := same
  rw [first] at rises ⊢
  have within := within_flexPlacement rules interior pass.cursor item
  refine (peers.level_layoutItem akin rigid rules.isRow inFlow within rises).bind ?_
  rintro box set ⟨frame, come⟩
  refine .pure ⟨rfl, ?_⟩
  rw [List.reverse_cons, List.reverse_cons]
  exact level.placed.concat ⟨rfl, rfl, rfl, frame, inFlow, come⟩

/-! ## Alignment -/

theorem Peers.Come.lift {peers : Peers α true} {box set : Box α}
    (come : peers.Come parent interior drift area box set) (rigid : drift.Rigid)
    (inFlow : peers.first.node.isAbsolute = false) {further : Drift α}
    (lifted : further.down = [] ∨ Lifts parent interior peers.first.node) :
    peers.Come parent interior drift area (box.drifted further) (set.drifted further) := by
  cases come with
  | line inLine inFlow =>
      rw [rigid.drifted_comm]
      exact .line inLine inFlow
  | block notFlex => cases notFlex
  | absolute isAbsolute => cases inFlow.symm.trans isAbsolute
  | item isItem inFlow within rises before setAt first second =>
      rw [Box.drifted_drifted, Box.drifted_drifted]
      refine .item isItem inFlow within rises ?_ setAt first second
      rcases before with before | before
      · exact lifted.imp_left fun lifted => List.append_eq_nil_iff.mpr ⟨before, lifted⟩
      · exact .inr before

theorem FlexSet.Level.crossSize_eq {peers : Peers α true} {item found : FlexSet α}
    (level : item.Level parent interior drift area peers found) (isRow : Bool) :
    crossSize isRow found.box = crossSize isRow item.box := by
  rw [crossSize, crossSize, level.frame]
  rfl

theorem FlexSet.Level.stretch {peers : Peers α true} {item found : FlexSet α}
    (level : item.Level parent interior drift area peers found) (rigid : drift.Rigid)
    (stretches : Stretches parent peers.first.node) (cross : α) :
    (stretchItem interior cross item).Pairs
      (stretchItem (interior.carried drift area) cross found)
      (peers.Come parent interior drift area) := by
  unfold stretchItem
  dsimp only
  rw [level.isFirst, level.isSecond, level.margin, level.frame, ← Drift.carry_append]
  refine .ite (fun _ => ?_) fun _ => .pure level.come
  refine (peers.level (rigid.append peers.rigid) _ area).keep.weaken ?_
  rintro box set ⟨yields, yieldsToo, -⟩
  rw [← Box.drifted_none box, ← Box.drifted_none set]
  refine .item rfl level.inFlow ⟨rfl, rfl, rfl⟩ (fun height forced => ?_) (.inl rfl)
    (.inr ⟨stretches, rfl⟩) yields yieldsToo
  cases forced
  exact .positive _

/-- Peers that are shifted across a container alike. -/
theorem FlexSet.Level.shift {peers : Peers α true} {item found : FlexSet α}
    (level : item.Level parent interior drift area peers found) (rigid : drift.Rigid)
    (aligned : alignment (flexRules parent interior) peers.first.node ∈
      (["center", "flex-end", "end"] : List Text)) (distance : α) :
    peers.Come parent interior drift area
      (if distance == 0.0 then item.box
        else if (flexRules parent interior).isRow then item.box.moveY distance
        else item.box.moveX distance)
      (if distance == 0.0 then found.box
        else if (flexRules parent interior).isRow then found.box.moveY distance
        else found.box.moveX distance) := by
  rw [Box.moveY_eq_drifted, Box.moveY_eq_drifted, Box.moveX_eq_drifted, Box.moveX_eq_drifted]
  split
  · exact level.come
  · split
    · rename_i isRow
      exact level.come.lift rigid level.inFlow (.inr ⟨isRow, aligned⟩)
    · exact level.come.lift rigid level.inFlow (.inl rfl)

theorem FlexSet.Level.align {peers : Peers α true} {item found : FlexSet α}
    (level : item.Level parent interior drift area peers found) (rigid : drift.Rigid)
    (isFlex : parent.isFlex = true) (cross : α) :
    (alignItem (flexRules parent interior) interior cross item).Pairs
      (alignItem (flexRules parent interior) (interior.carried drift area) cross found)
      (peers.Come parent interior drift area) := by
  have alignment : alignment (flexRules parent interior) peers.second.node =
      alignment (flexRules parent interior) peers.first.node := by
    unfold Layout.alignment
    rw [peers.alike.valueD (show isPlacing "align-self" = false by decide)]
  unfold alignItem
  dsimp only
  rw [level.isFirst, level.isSecond, level.margin, alignment, level.crossSize_eq,
    ← peers.alike.isText, ← peers.alike.fixedHeight?]
  refine .ite (fun stretched => ?_) fun _ => ?_
  · simp only [Bool.and_eq_true, beq_iff_eq, Option.isNone_iff_eq_none] at stretched
    obtain ⟨⟨⟨align, isRow⟩, -⟩, unfixed⟩ := stretched
    exact level.stretch rigid ⟨isFlex, isRow, fun _ => align, _, unfixed⟩ cross
  refine .ite (fun center => ?_) fun _ => .ite (fun atEnd => ?_) fun _ => .pure level.come
  · refine .pure (level.shift rigid ?_ _)
    simp [beq_iff_eq.mp center]
  · refine .pure (level.shift rigid ?_ _)
    rcases Bool.or_eq_true_iff.mp atEnd with flexEnd | plainEnd
    · simp [beq_iff_eq.mp flexEnd]
    · simp [beq_iff_eq.mp plainEnd]

/-! ## Containers -/

theorem level_finishFlex (isFlex : parent.isFlex = true) (rigid : drift.Rigid) (used : α)
    (peers : List (Peers α true)) {placed found : List (FlexSet α)}
    (level : Threefold (FlexSet.Level parent interior drift area)
      (peers.filter (!·.first.node.isAbsolute)) placed found) :
    (finishFlex (flexRules parent interior) interior used (peers.map (·.first)) placed).Pairs
      (finishFlex (flexRules parent interior) (interior.carried drift area) used
        (peers.map (·.second)) found)
      (Contents.Level parent interior drift area peers) := by
  have absolute := fun peers : Peers α true => peers.alike.isAbsolute
  have room := interior.sameRoom_carried drift area
  have extent := crossExtent_eq level (fun _ _ _ same => same.margin) fun _ _ _ same =>
    same.crossSize_eq (flexRules parent interior).isRow
  unfold finishFlex
  dsimp only
  rw [extent, room.mainSize, room.isDefinite]
  refine (Pairs.mapM level fun peers item found same => same.align rigid isFlex _).bind
    fun boxes sets come => ?_
  refine (Pairs.mapM (filter_follow absolute peers) fun peers child too picked => ?_).bind
    fun hung sets comeHung => .pure ⟨weave_follow absolute peers come comeHung, rfl⟩
  obtain ⟨rfl, rfl, isAbsolute⟩ := picked
  refine (peers.pairs_layoutAbsolute interior.positioned area interior.area.x _ _ _).keep.weaken ?_
  rintro box set ⟨yields, yieldsToo, -⟩
  exact .absolute isAbsolute yields yieldsToo

/-- All items are measured, one after another. -/
theorem level_measure (akin : parent.Akin other) (isRow : Bool) (interior : Interior α)
    (drift : Drift α) (area : Rect α) (peers : List (Peers α true)) :
    (stepThrough (addBase parent isRow interior) []
        ((peers.map (·.first)).filter (!·.node.isAbsolute))).Pairs
      (stepThrough (addBase other isRow (interior.carried drift area)) []
        ((peers.map (·.second)).filter (!·.node.isAbsolute)))
      fun measured too => measured.complete = true ∧ too.complete = true ∧
        LevelBases isRow (peers.filter (!·.first.node.isAbsolute)) measured.state too.state := by
  have items : Threefold (PickedSides Peers.first Peers.second (!·.isAbsolute)) _ _ _ :=
    filter_follow (fun peers => congrArg (!·) peers.alike.isAbsolute) peers
  refine .stepThrough (LevelBases isRow) items ?_
    (show LevelBases isRow [] [] [] from ⟨.nil, List.forall_mem_nil _⟩)
  rintro done bases found held peers child too ⟨rfl, rfl, -⟩
  exact held.addBase peers akin

/-- An item that is planned: it is in the flow, and so is what it has for its height. -/
def FlexItem.Planned (isRow : Bool) (peers : Peers α true) (item found : FlexItem α) : Prop :=
  item.Follow Peers.first Peers.second peers found ∧ peers.first.node.isAbsolute = false ∧
    item.Rising isRow

/-- All items are placed, one after another. -/
theorem level_placeItems (akin : parent.Akin other) (rigid : drift.Rigid) (rules : FlexRules α)
    (offset spacing : α) {peers : List (Peers α true)} {items found : List (FlexItem α)}
    (planned : Threefold (FlexItem.Planned rules.isRow) peers items found) :
    (stepThrough (placeItem parent rules interior spacing) ⟨offset, []⟩ items).Pairs
      (stepThrough (placeItem other rules (interior.carried drift area) spacing) ⟨offset, []⟩ found)
      fun placing too => placing.complete = true ∧ too.complete = true ∧
        placing.state.Level parent interior drift area peers too.state := by
  refine .stepThrough (FlexPass.Level parent interior drift area) planned ?_
    (show FlexPass.Level parent interior drift area [] _ _ from ⟨rfl, .nil⟩)
  rintro done pass found held peers item planned ⟨follow, inFlow, rising⟩
  exact held.placeItem akin rigid rules spacing inFlow follow rising

/-- Peers in a flex container are set alike. -/
theorem level_layoutFlex (isFlex : parent.isFlex = true) (akin : parent.Akin other)
    (rigid : drift.Rigid) (peers : List (Peers α true)) :
    (layoutFlex parent interior (peers.map (·.first))).Pairs
      (layoutFlex other (interior.carried drift area) (peers.map (·.second)))
      (Contents.Level parent interior drift area peers) := by
  have sameRoom := interior.sameRoom_carried drift area
  unfold layoutFlex
  dsimp only
  rw [flexRules_eq akin sameRoom]
  refine (level_measure akin (flexRules parent interior).isRow interior drift area peers).bind ?_
  rintro ⟨bases, _⟩ ⟨found, _⟩ ⟨rfl, rfl, measured, rising⟩
  refine .ite (fun cut => ?_) fun _ => ?_
  · cases cut
  have plan := flexPlan_follow measured (flexRules parent interior) sameRoom
  have planned := plan.items.attach
    (fun peers member => Bool.not_eq_true' _ ▸ (List.mem_filter.mp member).2)
    (rising_flexSizes (fun base member => rising base (List.mem_reverse.mp member)) _)
  rw [plan.offset, plan.spacing, plan.used]
  refine (level_placeItems akin rigid (flexRules parent interior) _ _ planned).bind ?_
  rintro ⟨pass, _⟩ ⟨too, _⟩ ⟨rfl, rfl, placed⟩
  refine .ite (fun cut => ?_) fun _ => ?_
  · cases cut
  exact level_finishFlex isFlex rigid _ peers placed.placed

end SlidePress.Layout
