import SlidePress.Proofs.Layout.ImageSizes

/-! Which sizes fall below zero. Flows, flex containers and absolute placement leave no block and no line
too small, and hand no size below zero to an image that keeps its own; so the boxes of a document are
sized as their nodes ask. -/

namespace SlidePress.Layout

open Number (NotNegative)
open Polling

/-! ## Children -/

structure Child.Sized (child : Child Number) : Prop where
  flows : child.node.isText = true → child.node.isAbsolute = false
  layout : child.node.isText = false → ∀ placement,
    (child.node.IsSoundImage → placement.Fair child.node) →
      (child.layout placement).Gives (Box.Sized child.node.ownSetting child.node)

def Box.SizedIn (parent : Styled Number) (child : Child Number) (box : Box Number) : Prop :=
  box.Sized (Setting.block.inside parent child.node) child.node

section Settings

variable {parent node : Styled Number}

theorem ownSetting_of_isImage (isImage : node.tag = "img") : node.ownSetting = .image :=
  if_pos (beq_iff_eq.mpr isImage)

theorem ownSetting_of_notImage (notImage : node.tag ≠ "img") : node.ownSetting = .block :=
  if_neg fun isImage => notImage (beq_iff_eq.mp isImage)

theorem inside_of_standsAlone (alone : node.standsAlone parent.isFlex = true) :
    Setting.block.inside parent node = node.ownSetting := if_pos alone

theorem inside_of_inLine (inLine : node.standsAlone parent.isFlex = false) :
    Setting.block.inside parent node = .line (lineHeight parent.style parent.fontSize) :=
  if_neg (Bool.eq_false_iff.mp inLine)

theorem notText_of_isFlowBlock (inFlow : node.isFlowBlock = true) : node.isText = false := by
  rw [Styled.isFlowBlock, Bool.and_eq_true, Bool.not_eq_true'] at inFlow
  exact (Bool.or_eq_false_iff.mp inFlow.1).1

theorem standsAlone_of_isFlowBlock (inFlow : node.isFlowBlock = true) (inFlex : Bool) :
    node.standsAlone inFlex = true := by
  have notText := notText_of_isFlowBlock inFlow
  rw [Styled.isFlowBlock, Bool.and_eq_true, Bool.not_eq_true'] at inFlow
  rw [Styled.standsAlone, notText, inFlow.1, Bool.not_false, Bool.or_true]
  rfl

theorem standsAlone_of_notText (isFlex : parent.isFlex = true) (notText : node.isText = false) :
    node.standsAlone parent.isFlex = true := by
  rw [Styled.standsAlone, notText, isFlex]
  rfl

end Settings

/-- A box of a child that stands by itself. -/
theorem Box.Sized.sizedIn {parent : Styled Number} {child : Child Number} {box : Box Number}
    (sized : box.Sized child.node.ownSetting child.node)
    (alone : child.node.standsAlone parent.isFlex = true) : box.SizedIn parent child := by
  rw [Box.SizedIn, inside_of_standsAlone alone]
  exact sized

theorem notNegative_of_sized {node : Styled Number} (sound : node.IsSoundImage) {box : Box Number}
    (sized : box.Sized node.ownSetting node) :
    box.frame.width.NotNegative ∧ box.frame.height.NotNegative := by
  have bounds := sized.own
  rw [ownSetting_of_isImage sound.isImage] at bounds
  exact bounds sound.keeps

theorem Child.Sized.notText {child : Child Number} (sized : child.Sized)
    (absolute : child.node.isAbsolute = true) : child.node.isText = false := by
  cases isText : child.node.isText with
  | false => rfl
  | true =>
      rw [sized.flows isText] at absolute
      cases absolute

theorem Child.Sized.standsAlone {child : Child Number} (sized : child.Sized)
    (absolute : child.node.isAbsolute = true) (inFlex : Bool) :
    child.node.standsAlone inFlex = true := by
  rw [Styled.standsAlone, sized.notText absolute, absolute, Bool.or_true]
  rfl

theorem sized_layoutAbsolute {child : Child Number} (sized : child.Sized)
    (absolute : child.node.isAbsolute = true) (parent : Styled Number) (containing : Rect Number)
    (staticX staticY : Number) :
    (layoutAbsolute child containing staticX staticY).Gives (Box.SizedIn parent child) := by
  have alone := sized.standsAlone absolute parent.isFlex
  refine (sized.layout (sized.notText absolute) _ fun sound => ?fair).bind fun box isSized => ?_
  case fair =>
    -- The area between two borders may itself be below zero, so its width says nothing here.
    exact ⟨.some (notNegative_absoluteWidth sound absolute _ _ _ _),
      noneNegative_absoluteHeight? sound _ _ _ _, .inr absolute⟩
  split
  · exact .pure ((isSized.sizedIn alone).mapFrames (fun _ => rfl) fun _ => rfl)
  · exact .pure (isSized.sizedIn alone)

/-! ## Flow -/

section Flow

variable {parent : Styled Number}

inductive Slot.Due (parent : Styled Number) (child : Child Number) : Slot Number → Prop where
  | box {box : Box Number} (sized : box.SizedIn parent child) : Due parent child (.box box)
  | absolute {staticY : Number} (sized : child.Sized) (absolute : child.node.isAbsolute = true) :
      Due parent child (.absolute child staticY)

def Flow.Holding (parent : Styled Number) (done : List (Segment Number)) (flow : Flow Number) : Prop :=
  List.Forall₂ (Slot.Due parent) (done.flatMap Segment.members) flow.slots.reverse

/-- Slots for the children of the next part are added in front. -/
theorem Flow.Holding.add {done : List (Segment Number)} {flow next : Flow Number}
    (holding : flow.Holding parent done) {segment : Segment Number} (added : List (Slot Number))
    (grown : next.slots = added.reverse ++ flow.slots)
    (due : List.Forall₂ (Slot.Due parent) segment.members added) :
    next.Holding parent (done ++ [segment]) := by
  rw [Flow.Holding, grown, List.reverse_append, List.reverse_reverse, List.flatMap_append,
    List.flatMap_singleton]
  exact List.rel_append holding due

/-- A part of a flow is of the kind that its children ask for. -/
theorem follow_segments (children : List (Child Number)) :
    ∀ segment ∈ segments children, ∃ run other, Segment.Follow id id run segment other := by
  obtain ⟨parts, -, follow⟩ := @segments_follow _ _ id id (fun _ => rfl) (fun _ => rfl) children
  rw [List.map_id] at follow
  exact fun segment member => follow.exists_of_mem member

theorem slots_addBlock (parent : Styled Number) {interior : Interior Number}
    (wide : interior.area.width.NotNegative) (flow : Flow Number) {child : Child Number}
    (sized : child.Sized) (inFlow : child.node.isFlowBlock = true) :
    (flow.addBlock interior child).Gives fun next =>
      ∃ box, next.slots = .box box :: flow.slots ∧ box.SizedIn parent child := by
  have notText : child.node.isText = false := notText_of_isFlowBlock inFlow
  refine (sized.layout notText _ fun _ => ?fair).bind fun box isSized => ?_
  case fair => exact ⟨.none, .none, .inl wide⟩
  exact .pure ⟨box, rfl, isSized.sizedIn (standsAlone_of_isFlowBlock inFlow _)⟩

/-- The step. -/
theorem holding_add (notFlex : parent.isFlex = false) {interior : Interior Number}
    (wide : interior.area.width.NotNegative) {done : List (Segment Number)} {flow : Flow Number}
    (holding : flow.Holding parent done) {segment other : Segment Number} {run : List (Child Number)}
    (follow : Segment.Follow id id run segment other)
    (sized : ∀ child ∈ segment.members, child.Sized) :
    (flow.add parent interior segment).Gives (Flow.Holding parent (done ++ [segment])) := by
  cases follow with
  | @absolute child absolute =>
      refine .pure (holding.add [.absolute child flow.cursor] rfl (.cons ?_ .nil))
      exact .absolute (sized child List.mem_cons_self) absolute
  | inline inLine =>
      rw [List.map_id] at sized ⊢
      refine .pure (holding.add _ (Flow.slots_addInline parent interior flow run) ?_)
      have boxes := sized_layoutInline parent (run.map (·.node))
        { interior.area with y := flow.cursor + flow.lastMargin.getD 0.0 }
      rw [List.forall₂_map_left_iff] at boxes
      rw [List.forall₂_map_right_iff]
      refine ((List.forall₂_and_left run _).mpr ⟨inLine, boxes⟩).imp fun child box both => .box ?_
      rw [Box.SizedIn, inside_of_inLine (notFlex ▸ both.1)]
      exact both.2
  | @block child inFlow =>
      refine (slots_addBlock parent wide flow (sized child List.mem_cons_self) inFlow).weaken ?_
      rintro next ⟨box, grown, isSized⟩
      exact holding.add [.box box] grown (.cons (.box isSized) .nil)

theorem sized_fillSlot (interior : Interior Number) {child : Child Number} {slot : Slot Number}
    (due : slot.Due parent child) : (fillSlot interior slot).Gives (Box.SizedIn parent child) := by
  cases due with
  | box sized => exact .pure sized
  | absolute sized absolute => exact sized_layoutAbsolute sized absolute parent _ _ _

/-- The run. -/
theorem sized_layoutFlow (notFlex : parent.isFlex = false) {interior : Interior Number}
    (wide : interior.area.width.NotNegative) {children : List (Child Number)}
    (sized : ∀ child ∈ children, child.Sized) :
    (layoutFlow parent interior children).Gives fun contents =>
      List.Forall₂ (Box.SizedIn parent) children contents.boxes := by
  have loop : (stepThrough (Flow.add parent interior) ⟨interior.area.y, none, []⟩
      (segments children)).Gives fun progress =>
        progress.complete = true ∧ progress.state.Holding parent ([] ++ segments children) := by
    refine .stepThrough (fun done flow holding segment member => ?_) .nil
    obtain ⟨run, other, follow⟩ := follow_segments children segment member
    refine holding_add notFlex wide holding follow fun child isMember => sized child ?_
    rw [← members_segments children]
    exact List.mem_flatMap.mpr ⟨segment, member, isMember⟩
  refine loop.bind fun progress ends => ?_
  obtain ⟨complete, due⟩ := ends
  refine .ite (fun _ => ?_) fun cut => (cut complete).elim
  rw [Flow.Holding, List.nil_append, members_segments] at due
  refine (Gives.mapM_forall₂ (due.imp fun child slot => sized_fillSlot interior)).bind
    fun boxes areSized => ?_
  exact .pure areSized

end Flow

/-! ## Flex containers -/

section Flex

variable {parent : Styled Number} {interior : Interior Number}

theorem notNegative_flexFactor (node : Styled Number) (property default : Text) :
    (flexFactor node property default : Number).NotNegative := by
  unfold flexFactor
  split
  · exact notNegative_positive _
  · exact notNegative_positive _

/-- The height that a column sees. -/
theorem notNegative_probeHeight (wide : interior.area.width.NotNegative) {child : Child Number}
    (sized : child.Sized) (margin : Edges Number) :
    (probeHeight parent interior child margin).Gives fun height =>
      child.node.IsSoundImage → height.NotNegative := by
  refine .ite (fun isText => .pure fun sound => ?_) fun notText => ?_
  · rw [sound.notText] at isText
    cases isText
  · rw [Bool.not_eq_true] at notText
    refine (sized.layout notText _ fun _ => ?fair).bind fun box isSized => .pure fun sound => ?_
    case fair => exact ⟨.none, .none, .inl wide⟩
    exact (notNegative_of_sized sound isSized).2

theorem notNegative_baseSize (isRow : Bool) (wide : interior.area.width.NotNegative)
    {child : Child Number} (sized : child.Sized) (margin : Edges Number) :
    (baseSize parent isRow interior child margin).Gives fun size =>
      child.node.IsSoundImage → size.NotNegative := by
  rw [baseSize]
  split
  · rename_i length basis
    have least : (0.0 : Number) ≤ length := of_decide_eq_true (Option.filter_eq_some_iff.mp basis).2
    exact .pure fun _ => Number.notNegative_of_le least
  · refine .ite (fun _ => .ite (fun isText => .pure fun sound => ?_) fun _ => .pure fun sound => ?_)
      fun _ => ?_
    · rw [sound.notText] at isText
      cases isText
    · exact (sound.noneNegative_fixedWidth? (.inl wide)).getD sound.notNegative_maxContentWidth
    · split
      · rename_i height fixed
        refine .pure fun sound => ?_
        rw [sound.notText] at fixed
        exact sound.noneNegative_fixedHeight? _ height fixed
      · exact notNegative_probeHeight wide sized margin

/-- An item that is measured: an image that keeps its size has no base below zero. -/
structure FlexBase.Sound (item : FlexBase Number) : Prop where
  base : item.child.node.IsSoundImage → item.base.NotNegative
  grow : item.grow.NotNegative

structure Measures (done : List (Child Number)) (bases : List (FlexBase Number)) : Prop where
  children : Measured done bases
  sound : ∀ base ∈ bases, base.Sound

theorem measures_addBase (isRow : Bool) (wide : interior.area.width.NotNegative)
    {done : List (Child Number)} {bases : List (FlexBase Number)} (measures : Measures done bases)
    {child : Child Number} (sized : child.Sized) :
    (addBase parent isRow interior bases child).Gives (Measures (done ++ [child])) := by
  refine (notNegative_baseSize isRow wide sized _).bind fun size least => .pure ⟨?_, ?_⟩
  · rw [Measured, List.reverse_cons, List.map_append, measures.children]
    rfl
  · exact List.forall_mem_cons.mpr ⟨⟨least, notNegative_flexFactor _ _ _⟩, measures.sound⟩

/-- An item with a main size: an image that keeps its size has none below zero. -/
def FlexItem.Sound (item : FlexItem Number) : Prop :=
  item.child.node.IsSoundImage → item.main.NotNegative

/-- What grows stays above zero, and what shrinks is brought to zero. -/
theorem sound_flexSizes (free : Number) {bases : List (FlexBase Number)}
    (sound : ∀ base ∈ bases, base.Sound) : ∀ item ∈ flexSizes free bases, item.Sound := by
  intro item member isSound
  obtain ⟨base, isBase, rfl⟩ := List.mem_map.mp member
  have least := (sound base isBase).base isSound
  dsimp only
  split
  · rename_i grows
    have share := (Number.notNegative_of_pos grows.1).mul (sound base isBase).grow
    exact least.add (share.div grows.2)
  · split
    · exact notNegative_positive _
    · exact least

theorem fair_flexPlacement (rules : FlexRules Number) (wide : interior.area.width.NotNegative)
    (cursor : Number) {item : FlexItem Number} (sound : item.Sound)
    (isSound : item.child.node.IsSoundImage) :
    (flexPlacement rules interior cursor item).Fair item.child.node := by
  unfold flexPlacement
  split
  · exact ⟨.some (sound isSound), .none, .inl wide⟩
  · exact ⟨noneNegative_columnWidth? isSound rules wide _, .some (sound isSound), .inl wide⟩

theorem sized_textItem {node : Styled Number} (isText : node.isText = true) (isRow : Bool)
    (placement : Placement Number) :
    (textItem parent node isRow placement).Sized (Setting.block.inside parent node) node := by
  have inLine : node.standsAlone parent.isFlex = false := by
    rw [Styled.standsAlone, isText]
    rfl
  have boxes := sized_layoutInline parent [node]
    ⟨placement.x, placement.y, placement.availableWidth, 0.0⟩
  rw [inside_of_inLine inLine, textItem]
  split
  · rename_i box rest shape
    rw [shape] at boxes
    cases boxes with
    | cons sized _ =>
        split
        · exact sized
        · have own := sized.own
          exact sized.withFrame ⟨own.width, fun least => notNegative_max (own.height least) _⟩
  · rename_i shape
    rw [shape] at boxes
    cases boxes

section Items

variable (isFlex : parent.isFlex = true)
include isFlex

theorem sized_layoutItem (isRow : Bool) {child : Child Number} (sized : child.Sized)
    {placement : Placement Number} (fair : child.node.IsSoundImage → placement.Fair child.node) :
    (layoutItem parent isRow child placement).Gives (Box.SizedIn parent child) := by
  refine .ite (fun isText => .pure (sized_textItem isText isRow placement)) fun notText => ?_
  rw [Bool.not_eq_true] at notText
  exact (sized.layout notText placement fair).weaken fun box isSized =>
    isSized.sizedIn (standsAlone_of_notText isFlex notText)

structure FlexPass.Places (parent : Styled Number) (done : List (FlexItem Number))
    (pass : FlexPass Number) : Prop where
  children : pass.placed.reverse.map (·.child) = done.map (·.child)
  sized : ∀ item ∈ pass.placed, item.box.SizedIn parent item.child

theorem places_placeItem (rules : FlexRules Number) (wide : interior.area.width.NotNegative)
    (spacing : Number) {done : List (FlexItem Number)} {pass : FlexPass Number}
    (places : pass.Places parent done) {item : FlexItem Number} (sound : item.Sound)
    (sized : item.child.Sized) :
    (placeItem parent rules interior spacing pass item).Gives
      (FlexPass.Places parent (done ++ [item])) := by
  refine (sized_layoutItem isFlex rules.isRow sized fun isSound => ?fair).bind
    fun box isSized => .pure ⟨?_, List.forall_mem_cons.mpr ⟨isSized, places.sized⟩⟩
  case fair => exact fair_flexPlacement rules wide _ sound isSound
  rw [List.reverse_cons, List.map_append, places.children, List.map_append]
  rfl

/-- An item that is stretched is as wide as it was, and has a height of zero or more. -/
theorem sized_stretchItem (wide : interior.area.width.NotNegative) (cross : Number)
    {item : FlexSet Number} (sized : item.child.Sized) (notText : item.child.node.isText = false)
    (isSized : item.box.SizedIn parent item.child) :
    (stretchItem interior cross item).Gives (Box.SizedIn parent item.child) := by
  have alone := standsAlone_of_notText isFlex notText
  have own := isSized
  rw [Box.SizedIn, inside_of_standsAlone alone] at own
  refine .ite (fun _ => ?_) fun _ => .pure isSized
  refine (sized.layout notText _ fun sound => ?fair).weaken fun box again => again.sizedIn alone
  case fair =>
    exact ⟨.some (notNegative_of_sized sound own).1, .some (notNegative_positive _), .inl wide⟩

theorem sized_alignItem (rules : FlexRules Number) (wide : interior.area.width.NotNegative)
    (cross : Number) {item : FlexSet Number} (sized : item.child.Sized)
    (isSized : item.box.SizedIn parent item.child) :
    (alignItem rules interior cross item).Gives (Box.SizedIn parent item.child) := by
  have shifted : ∀ shift : Number, Box.SizedIn parent item.child (if shift == 0.0 then item.box
      else if rules.isRow then item.box.moveY shift else item.box.moveX shift) := by
    intro shift
    split
    · exact isSized
    · split
      · exact isSized.mapFrames (fun _ => rfl) fun _ => rfl
      · exact isSized.mapFrames (fun _ => rfl) fun _ => rfl
  refine .ite (fun stretches => ?_) fun _ => ?_
  · simp only [Bool.and_eq_true, Bool.not_eq_true'] at stretches
    exact sized_stretchItem isFlex wide cross sized stretches.1.2 isSized
  · refine .ite (fun _ => .pure (shifted _)) fun _ => ?_
    exact .ite (fun _ => .pure (shifted _)) fun _ => .pure isSized

end Items

theorem sized_finishFlex (isFlex : parent.isFlex = true) (rules : FlexRules Number)
    (wide : interior.area.width.NotNegative) (used : Number) {children : List (Child Number)}
    (sized : ∀ child ∈ children, child.Sized) {placed : List (FlexSet Number)}
    (items : placed.map (·.child) = children.filter (!·.node.isAbsolute))
    (areSized : ∀ item ∈ placed, item.box.SizedIn parent item.child) :
    (finishFlex rules interior used children placed).Gives fun contents =>
      List.Forall₂ (Box.SizedIn parent) children contents.boxes := by
  have aligned : (placed.mapM (alignItem rules interior (if rules.isRow then
      interior.height.getD (crossExtent rules.isRow placed) else interior.area.width))).Gives
        (List.Forall₂ (fun item => Box.SizedIn parent item.child) placed) := by
    refine .mapM_forall₂ (List.forall₂_same.mpr fun item member => ?_)
    have isChild : item.child ∈ placed.map (·.child) := List.mem_map_of_mem member
    rw [items] at isChild
    exact sized_alignItem isFlex rules wide _ (sized _ (List.mem_filter.mp isChild).1)
      (areSized item member)
  refine aligned.bind fun boxes isItems => ?_
  have placedAbsolutes : ((children.filter (·.node.isAbsolute)).mapM fun child =>
      layoutAbsolute child interior.positioned interior.area.x interior.area.y).Gives
        (List.Forall₂ (Box.SizedIn parent) (children.filter (·.node.isAbsolute))) := by
    refine .mapM_forall₂ (List.forall₂_same.mpr fun child member => ?_)
    obtain ⟨isChild, absolute⟩ := List.mem_filter.mp member
    exact sized_layoutAbsolute (sized child isChild) absolute parent _ _ _
  refine placedAbsolutes.bind fun absolutes isAbsolutes => ?_
  rw [← List.forall₂_map_left_iff, items] at isItems
  exact .pure (forall₂_weave children isItems isAbsolutes)

theorem sized_layoutFlex (isFlex : parent.isFlex = true) (wide : interior.area.width.NotNegative)
    {children : List (Child Number)} (sized : ∀ child ∈ children, child.Sized) :
    (layoutFlex parent interior children).Gives fun contents =>
      List.Forall₂ (Box.SizedIn parent) children contents.boxes := by
  let rules := flexRules parent interior
  let members := children.filter (!·.node.isAbsolute)
  have measure : (stepThrough (addBase parent rules.isRow interior) [] members).Gives
      fun progress => progress.complete = true ∧ Measures ([] ++ members) progress.state := by
    refine .stepThrough (fun done bases measures child member => ?_) ⟨rfl, List.forall_mem_nil _⟩
    exact measures_addBase _ wide measures (sized child (List.mem_filter.mp member).1)
  refine measure.bind fun measured ends => ?_
  obtain ⟨complete, bases, soundBases⟩ := ends
  refine .ite (fun cut => ?_) fun _ => ?_
  · rw [complete] at cut
    cases cut
  let plan := flexPlan rules interior measured.state.reverse
  have planned : plan.items.map (·.child) = members := (map_child_flexPlan _ _ _).trans bases
  have soundItems : ∀ item ∈ plan.items, item.Sound :=
    sound_flexSizes _ fun base member => soundBases base (List.mem_reverse.mp member)
  have place : (stepThrough (placeItem parent rules interior plan.spacing) ⟨plan.offset, []⟩
      plan.items).Gives fun progress =>
        progress.complete = true ∧ progress.state.Places parent ([] ++ plan.items) := by
    refine .stepThrough (fun done pass places item member => ?_) ⟨rfl, List.forall_mem_nil _⟩
    have isChild : item.child ∈ plan.items.map (·.child) := List.mem_map_of_mem member
    rw [planned] at isChild
    exact places_placeItem isFlex rules wide _ places (soundItems item member)
      (sized _ (List.mem_filter.mp isChild).1)
  refine place.bind fun placing ends => ?_
  obtain ⟨complete, items, areSized⟩ := ends
  refine .ite (fun cut => ?_) fun _ => ?_
  · rw [complete] at cut
    cases cut
  refine sized_finishFlex isFlex rules wide _ sized (items.trans planned) fun item member => ?_
  exact areSized item (List.mem_reverse.mp member)

end Flex

/-! ## Blocks and documents -/

section Blocks

variable {node : Styled Number} {interior : Interior Number} {children : List (Child Number)}

theorem sized_layoutContents (wide : interior.area.width.NotNegative)
    (sized : ∀ child ∈ children, child.Sized) :
    (layoutContents node interior children).Gives fun contents =>
      List.Forall₂ (Box.SizedIn node) children contents.boxes :=
  .ite (fun isFlex => sized_layoutFlex isFlex wide sized) fun notFlex =>
    sized_layoutFlow (Bool.eq_false_iff.mpr notFlex) wide sized

theorem sized_resetAbsolutes (sized : ∀ child ∈ children, child.Sized) {boxes : List (Box Number)}
    (areSized : List.Forall₂ (Box.SizedIn node) children boxes) :
    (resetAbsolutes node interior children boxes).Gives
      (List.Forall₂ (Box.SizedIn node) children) := by
  refine .ite (fun _ => ?_) fun _ => .pure areSized
  have pairs := (List.forall₂_and_left children _).mpr ⟨sized, forall₂_zip areSized⟩
  refine .mapM_forall₂ (pairs.imp fun child pair both => ?_)
  obtain ⟨isSized, rfl, before⟩ := both
  refine .ite (fun absolute => ?_) fun _ => .pure before
  exact sized_layoutAbsolute isSized absolute node _ _ _

theorem sized_moveRelative {setting : Setting} {box : Box Number} (sized : box.Sized setting node)
    (containingWidth : Number) : (moveRelative node containingWidth box).Sized setting node := by
  unfold moveRelative
  split
  · dsimp only
    split
    · exact sized
    · exact sized.mapFrames (fun _ => rfl) fun _ => rfl
  · exact sized

theorem zero_le_blockWidth (placement : Placement Number) (padding border : Edges Number) :
    0.0 ≤ blockWidth node placement padding border := by
  unfold blockWidth
  dsimp only
  split
  · exact zero_le_positive _
  · exact zero_le_positive _

theorem sized_layoutBlock (nodes : children.map (·.node) = node.children)
    (sized : ∀ child ∈ children, child.Sized) (placement : Placement Number) :
    (layoutBlock node children placement).Gives (Box.Sized .block node) := by
  refine (sized_layoutContents ?wide sized).bind fun contents areSized => ?_
  -- The content area is brought to zero, so that no percentage of it is below zero.
  case wide => exact notNegative_positive _
  refine (sized_resetAbsolutes sized areSized).bind fun boxes areSized => ?_
  refine .pure (sized_moveRelative (Box.Sized.intro ?own fun index inner isInner => ?inside) _)
  case own => exact ⟨zero_le_blockWidth placement _ _, zero_le_positive _⟩
  case inside =>
    obtain ⟨child, isChild, isSized⟩ := forall₂_getElem? areSized isInner
    refine ⟨child.node, ?_, isSized⟩
    rw [← nodes, List.getElem?_map, isChild]
    rfl

mutual

theorem sized_layoutNode (node : Styled Number) (settled : node.Settled)
    (notText : node.isText = false) (placement : Placement Number)
    (fair : node.IsSoundImage → placement.Fair node) :
    (layoutNode node placement).Gives (Box.Sized node.ownSetting node) := by
  cases settled with
  | text flows => cases notText
  | @element head style fontSize children border inside =>
      rw [layoutNode]
      have tag : (Styled.element head style fontSize children).tag = head.tag := rfl
      by_cases isImage : head.tag = "img"
      · rw [if_pos (beq_iff_eq.mpr isImage), ownSetting_of_isImage (tag.trans isImage)]
        exact .pure (sized_layoutImage (tag.trans isImage) border fair)
      · rw [if_neg fun same => isImage (beq_iff_eq.mp same),
          ownSetting_of_notImage fun same => isImage (tag.symm.trans same)]
        refine sized_layoutBlock ?_ (sized_layoutChildren children inside) placement
        rw [layoutChildren_eq_map, List.map_map]
        exact List.map_id _

theorem sized_layoutChildren (nodes : List (Styled Number)) (settled : ∀ node ∈ nodes, node.Settled) :
    ∀ child ∈ layoutChildren nodes, child.Sized := by
  cases nodes with
  | nil =>
      rw [layoutChildren]
      exact List.forall_mem_nil _
  | cons node rest =>
      rw [layoutChildren]
      obtain ⟨first, others⟩ := List.forall_mem_cons.mp settled
      refine List.forall_mem_cons.mpr ⟨⟨fun isText => ?_, ?_⟩, sized_layoutChildren rest others⟩
      · cases first with
        | text flows => exact flows
        | element => cases isText
      · exact sized_layoutNode node first

end

theorem sized_layoutRoot (viewport : Viewport Number) {root : Styled Number} (settled : root.Settled)
    (notText : root.isText = false) (notImage : root.tag ≠ "img") :
    (layoutRoot viewport root).Gives (Box.Sized .block root) := by
  refine (sized_layoutNode root settled notText _ fun sound => ?fair).bind fun box sized => ?_
  case fair => exact absurd sound.isImage notImage
  rw [ownSetting_of_notImage notImage] at sized
  obtain ⟨width, height⟩ := sized.own
  exact .pure (sized.withFrame ⟨width, zero_le_max height _⟩)

end Blocks

/-- The sizes of the boxes of a document. A block has sizes of zero or more, whatever lengths are
declared and whatever the viewport is. A box in lines is never narrower than nothing, and lower than
nothing only where the line height of the block around it is below zero. An image has a size below zero
only where a padding makes it smaller. -/
theorem sizes_not_negative (author : Css.Stylesheet) (viewport : Viewport Number)
    (document : Html.Document) {path : List Nat} {box : Box Number}
    (isBox : (layoutFreely author viewport document).at? path = some box) :
    ∃ setting node, (styledFreely author document).setAt? path .block = some (setting, node) ∧
      setting.Bounds node box.frame := by
  obtain ⟨root, yields, settled, notText, notImage⟩ := settled_styleDocument author document
  obtain ⟨whole, yieldsBox, sized⟩ := sized_layoutRoot viewport settled notText notImage
  rw [layoutFreely_eq, styledFreely, yields.freely, yieldsBox.freely] at isBox
  rw [styledFreely, yields.freely]
  exact sized path box isBox

def shrunkImage : Html.Document :=
  (Html.Document.parse
    "a<img style=\"width:5px;height:5px;padding-left:-10px;padding-top:-8px\">").1

theorem sizes_not_negative_shrunkImage : ∃ box,
    (layoutFreely ⟨[]⟩ ⟨800, 600⟩ shrunkImage).at? [0] = some box ∧
    ∃ setting node, (styledFreely ⟨[]⟩ shrunkImage).setAt? [0] .block = some (setting, node) ∧
      setting.Bounds node box.frame := by
  have isSome : ((layoutFreely ⟨[]⟩ ⟨800, 600⟩ shrunkImage : Box Number).at? [0]).isSome = true := by
    decide +kernel
  obtain ⟨box, isBox⟩ := Option.isSome_iff_exists.mp isSome
  exact ⟨box, isBox, sizes_not_negative ⟨[]⟩ ⟨800, 600⟩ shrunkImage isBox⟩

def sunkenLine : Html.Document :=
  (Html.Document.parse "<div style=\"line-height:-5px\">a</div>").1

/-- The image is five pixels less than nothing wide, and the line five pixels less than nothing high. -/
theorem sizes_negative :
    (∃ box : Box Number, (layoutFreely ⟨[]⟩ ⟨800, 600⟩ shrunkImage).at? [1] = some box ∧
      box.frame.width < 0.0 ∧ box.frame.height < 0.0) ∧
    ∃ box : Box Number, (layoutFreely ⟨[]⟩ ⟨800, 600⟩ sunkenLine).at? [0, 0] = some box ∧
      box.frame.height < 0.0 := by
  have image : ((layoutFreely ⟨[]⟩ ⟨800, 600⟩ shrunkImage : Box Number).at? [1]).any
      (fun box => decide (box.frame.width < 0.0) && decide (box.frame.height < 0.0)) = true := by
    decide +kernel
  have line : ((layoutFreely ⟨[]⟩ ⟨800, 600⟩ sunkenLine : Box Number).at? [0, 0]).any
      (fun box => decide (box.frame.height < 0.0)) = true := by
    decide +kernel
  obtain ⟨box, isBox, below⟩ := (Option.any_eq_true _ _).mp image
  obtain ⟨text, isText, belowToo⟩ := (Option.any_eq_true _ _).mp line
  simp only [Bool.and_eq_true, decide_eq_true_eq] at below belowToo
  exact ⟨⟨box, isBox, below⟩, text, isText, belowToo⟩

end SlidePress.Layout
