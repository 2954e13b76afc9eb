import SlidePress.Proofs.Html.Grown
import SlidePress.Proofs.Layout.Skeleton

/-! One box for each node. Boxes come about in four ways: in lines of text, as blocks of a flow, as
flex items, and as absolute boxes that are set last or set again. Each of them gives every child one
box, in the place of the child among its siblings, and that box shows what the child shows. So the
layout of a document has the skeleton of the document. -/

namespace SlidePress.Layout

variable {α : Type} [Scalar α]

open Polling

/-! ## Lines -/

mutual

theorem skeleton_inlineBox (content : Rect α) (frames : List (List Nat × Rect α))
    (node : Styled α) (number : Nat) :
    (inlineBox content frames node number).1.skeleton = node.skeleton := by
  cases node with
  | text text style fontSize => rw [inlineBox, Box.skeleton, Styled.skeleton, boxSkeletons]
  | element head style fontSize children =>
      rw [inlineBox, Box.skeleton, Styled.skeleton,
        skeletons_inlineBoxes content frames children (number + 1)]

theorem skeletons_inlineBoxes (content : Rect α) (frames : List (List Nat × Rect α))
    (nodes : List (Styled α)) (number : Nat) :
    boxSkeletons (inlineBoxes content frames nodes number).1 = styledSkeletons nodes := by
  cases nodes with
  | nil => rw [inlineBoxes, boxSkeletons, styledSkeletons]
  | cons node rest =>
      rw [inlineBoxes, boxSkeletons, styledSkeletons, skeleton_inlineBox content frames node number,
        skeletons_inlineBoxes content frames rest _]

end

theorem skeletons_layoutInline (parent : Styled α) (run : List (Styled α)) (content : Rect α) :
    (layoutInline parent run content).boxes.map Box.skeleton = run.map Styled.skeleton := by
  rw [← boxSkeletons_eq_map, ← styledSkeletons_eq_map]
  exact skeletons_inlineBoxes content _ run 0

/-! ## Children -/

def Child.skeleton (child : Child α) : Skeleton := child.node.skeleton

/-- A child that is set as it is shown: a text stands in the flow and is left to its parent, and any
other node is given a box with its skeleton wherever it is placed. -/
structure Child.Faithful (child : Child α) : Prop where
  flows : child.node.isText = true → child.node.isAbsolute = false
  layout : child.node.isText = false → ∀ placement,
    (child.layout placement).Gives fun box => box.skeleton = child.skeleton

theorem skeleton_layoutAbsolute {child : Child α} (faithful : child.Faithful)
    (absolute : child.node.isAbsolute = true) (containing : Rect α) (staticX staticY : α) :
    (layoutAbsolute child containing staticX staticY).Gives
      fun box => box.skeleton = child.skeleton := by
  have notText : child.node.isText = false := by
    cases isText : child.node.isText with
    | false => rfl
    | true => rw [faithful.flows isText] at absolute; cases absolute
  refine (faithful.layout notText _).bind fun box same => ?_
  split
  · exact .pure ((skeleton_mapFrames _ box).trans same)
  · exact .pure same

/-! ## Flow -/

/-- A part of a flow is of the kind that its children ask for. -/
def Segment.Fits : Segment α → Prop
  | .absolute child => child.node.isAbsolute = true
  | .inline _ => True
  | .block child => child.node.isText = false

omit [Scalar α] in
theorem fits_segments (children : List (Child α)) :
    ∀ segment ∈ segments children, segment.Fits := by
  induction children with
  | nil => exact List.forall_mem_nil _
  | cons child rest ih =>
      rw [segments]
      split
      · rename_i absolute
        exact List.forall_mem_cons.mpr ⟨absolute, ih⟩
      · split
        · split
          · rename_i run more shape
            rw [shape] at ih
            exact List.forall_mem_cons.mpr ⟨trivial, (List.forall_mem_cons.mp ih).2⟩
          · exact List.forall_mem_cons.mpr ⟨trivial, ih⟩
        · rename_i notInline
          refine List.forall_mem_cons.mpr ⟨?_, ih⟩
          rw [Styled.isInline, Bool.or_eq_true, not_or, Bool.not_eq_true] at notInline
          exact notInline.1

def Slot.skeleton : Slot α → Skeleton
  | .box set => set.skeleton
  | .absolute child _ => child.skeleton

/-- The children that wait in a slot are absolute, and set as they are shown. -/
def Slot.Sound : Slot α → Prop
  | .box _ => True
  | .absolute child _ => child.Faithful ∧ child.node.isAbsolute = true

structure Flow.Holds (done : List (Segment α)) (flow : Flow α) : Prop where
  skeletons : flow.slots.reverse.map Slot.skeleton =
    (done.flatMap Segment.members).map Child.skeleton
  sound : ∀ slot ∈ flow.slots, slot.Sound

omit [Scalar α] in
/-- Slots that show the children of the next part are added in front. -/
theorem Flow.Holds.add {done : List (Segment α)} {flow next : Flow α} (holds : flow.Holds done)
    {segment : Segment α} (added : List (Slot α))
    (grown : next.slots = added.reverse ++ flow.slots)
    (same : added.map Slot.skeleton = segment.members.map Child.skeleton)
    (sound : ∀ slot ∈ added, slot.Sound) : next.Holds (done ++ [segment]) := by
  constructor
  · rw [grown, List.reverse_append, List.reverse_reverse, List.map_append, holds.skeletons, same,
      List.flatMap_append, List.map_append, List.flatMap_singleton]
  · intro slot member
    rw [grown, List.mem_append, List.mem_reverse] at member
    rcases member with new | old
    · exact sound slot new
    · exact holds.sound slot old

theorem holds_addSegment {done : List (Segment α)} {flow : Flow α} (holds : flow.Holds done)
    (parent : Styled α) (interior : Interior α) {segment : Segment α} (fits : segment.Fits)
    (faithful : ∀ child ∈ segment.members, child.Faithful) :
    (flow.add parent interior segment).Gives (Flow.Holds (done ++ [segment])) := by
  cases segment with
  | absolute child =>
      refine .pure (holds.add [.absolute child flow.cursor] rfl rfl ?_)
      exact List.forall_mem_singleton.mpr ⟨faithful child List.mem_cons_self, fits⟩
  | inline run =>
      refine .pure (holds.add _ (Flow.slots_addInline parent interior flow run) ?_ ?_)
      · rw [List.map_map]
        exact (skeletons_layoutInline parent _ _).trans List.map_map
      · intro slot member
        obtain ⟨box, _, rfl⟩ := List.mem_map.mp member
        trivial
  | block child =>
      refine ((faithful child List.mem_cons_self).layout fits _).bind fun box same => ?_
      refine .pure (holds.add [.box box] rfl (congrArg (fun shown => [shown]) same) ?_)
      exact List.forall_mem_singleton.mpr trivial

theorem skeleton_fillSlot (interior : Interior α) {slot : Slot α} (sound : slot.Sound) :
    (fillSlot interior slot).Gives fun box => box.skeleton = slot.skeleton := by
  cases slot with
  | box box => exact .pure rfl
  | absolute child staticY => exact skeleton_layoutAbsolute sound.1 sound.2 _ _ _

theorem skeletons_layoutFlow (parent : Styled α) (interior : Interior α)
    {children : List (Child α)} (faithful : ∀ child ∈ children, child.Faithful) :
    (layoutFlow parent interior children).Gives
      fun contents => contents.boxes.map Box.skeleton = children.map Child.skeleton := by
  have loop : (stepThrough (Flow.add parent interior) ⟨interior.area.y, none, []⟩
      (segments children)).Gives fun progress =>
        progress.complete = true ∧ progress.state.Holds ([] ++ segments children) := by
    refine .stepThrough (fun done flow holds segment member => ?_)
      ⟨rfl, List.forall_mem_nil _⟩
    refine holds_addSegment holds parent interior (fits_segments children segment member) ?_
    intro child isMember
    refine faithful child ?_
    rw [← members_segments children]
    exact List.mem_flatMap.mpr ⟨segment, member, isMember⟩
  refine loop.bind fun progress ends => ?_
  obtain ⟨complete, skeletons, sound⟩ := ends
  refine .ite (fun _ => ?_) fun cut => (cut complete).elim
  refine (Gives.mapM fun slot member =>
    skeleton_fillSlot interior (sound slot (List.mem_reverse.mp member))).bind fun boxes same => ?_
  refine .pure (same.trans ?_)
  rw [skeletons, List.nil_append, members_segments]

/-! ## Flex containers -/

theorem gives_baseSize (parent : Styled α) (isRow : Bool) (interior : Interior α)
    {child : Child α} (faithful : child.Faithful) (margin : Edges α) :
    (baseSize parent isRow interior child margin).Gives fun _ => True := by
  rw [baseSize]
  split
  · exact .pure trivial
  · refine .ite (fun _ => .ite (fun _ => .pure trivial) fun _ => .pure trivial) fun _ => ?_
    split
    · exact .pure trivial
    · refine .ite (fun _ => .pure trivial) fun notText => ?_
      rw [Bool.not_eq_true] at notText
      exact (faithful.layout notText _).bind fun _ _ => .pure trivial

def Measured (done : List (Child α)) (bases : List (FlexBase α)) : Prop :=
  bases.reverse.map (·.child) = done

theorem measured_addBase (parent : Styled α) (isRow : Bool) (interior : Interior α)
    {done : List (Child α)} {bases : List (FlexBase α)} (measured : Measured done bases)
    {child : Child α} (faithful : child.Faithful) :
    (addBase parent isRow interior bases child).Gives (Measured (done ++ [child])) := by
  refine (gives_baseSize parent isRow interior faithful _).bind fun size _ => ?_
  refine .pure ?_
  rw [Measured, List.reverse_cons, List.map_append, measured]
  rfl

def FlexSet.Sound (item : FlexSet α) : Prop := item.box.skeleton = item.child.skeleton

structure FlexPass.Holds (done : List (FlexItem α)) (pass : FlexPass α) : Prop where
  children : pass.placed.reverse.map (·.child) = done.map (·.child)
  sound : ∀ item ∈ pass.placed, item.Sound

theorem skeleton_textItem (parent : Styled α) {node : Styled α} (isRow : Bool)
    (placement : Placement α) :
    (textItem parent node isRow placement).skeleton = node.skeleton := by
  have skeletons := skeletons_layoutInline parent [node]
    ⟨placement.x, placement.y, placement.availableWidth, 0.0⟩
  rw [textItem]
  split
  · rename_i box rest shape
    rw [shape, List.map_cons, List.map_singleton, List.cons.injEq] at skeletons
    split
    · exact skeletons.1
    · rw [← skeletons.1, Box.skeleton_eq box]
      exact Box.skeleton_eq _
  · rename_i shape
    rw [shape] at skeletons
    cases skeletons

theorem skeleton_layoutItem (parent : Styled α) (isRow : Bool) {child : Child α}
    (faithful : child.Faithful) (placement : Placement α) :
    (layoutItem parent isRow child placement).Gives fun box => box.skeleton = child.skeleton := by
  refine .ite (fun _ => .pure (skeleton_textItem parent isRow placement)) fun notText => ?_
  rw [Bool.not_eq_true] at notText
  exact faithful.layout notText placement

theorem holds_placeItem (parent : Styled α) (rules : FlexRules α) (interior : Interior α)
    (spacing : α) {done : List (FlexItem α)} {pass : FlexPass α} (holds : pass.Holds done)
    {item : FlexItem α} (faithful : item.child.Faithful) :
    (placeItem parent rules interior spacing pass item).Gives
      (FlexPass.Holds (done ++ [item])) := by
  refine (skeleton_layoutItem parent rules.isRow faithful _).bind fun box same => ?_
  refine .pure ⟨?_, List.forall_mem_cons.mpr ⟨same, holds.sound⟩⟩
  rw [List.reverse_cons, List.map_append, holds.children, List.map_append]
  rfl

theorem skeleton_alignItem (rules : FlexRules α) (interior : Interior α) (cross : α)
    {item : FlexSet α} (faithful : item.child.Faithful) (sound : item.Sound) :
    (alignItem rules interior cross item).Gives fun box => box.skeleton = item.child.skeleton := by
  have shifted : ∀ shift : α, (if shift == 0.0 then item.box
      else if rules.isRow then item.box.moveY shift else item.box.moveX shift).skeleton =
        item.child.skeleton := by
    intro shift
    split
    · exact sound
    · split
      · exact (skeleton_mapFrames _ item.box).trans sound
      · exact (skeleton_mapFrames _ item.box).trans sound
  refine .ite (fun stretches => ?_) fun _ => ?_
  · refine .ite (fun _ => ?_) fun _ => .pure sound
    -- Only an item that is stretched is set again, and a text is never stretched.
    have notText : item.child.node.isText = false := by
      simp only [Bool.and_eq_true, Bool.not_eq_true'] at stretches
      exact stretches.1.2
    exact faithful.layout notText _
  · refine .ite (fun _ => .pure (shifted _)) fun _ => ?_
    exact .ite (fun _ => .pure (shifted _)) fun _ => .pure sound

omit [Scalar α] in
/-- Boxes of items and of absolute children, each in order, go back to the places of the
children. -/
theorem forall₂_weave {relates : Child α → Box α → Prop} (children : List (Child α))
    {items absolutes : List (Box α)}
    (isItems : List.Forall₂ relates (children.filter (!·.node.isAbsolute)) items)
    (isAbsolutes : List.Forall₂ relates (children.filter (·.node.isAbsolute)) absolutes) :
    List.Forall₂ relates children (weave children items absolutes) := by
  induction children generalizing items absolutes with
  | nil => exact .nil
  | cons child rest ih =>
      unfold weave
      by_cases isAbsolute : child.node.isAbsolute = true
      · rw [List.filter_cons_of_pos (by simpa using isAbsolute)] at isAbsolutes
        rw [List.filter_cons_of_neg (by simp [isAbsolute])] at isItems
        rw [if_pos isAbsolute]
        cases isAbsolutes with
        | cons head tail => exact .cons head (ih isItems tail)
      · rw [List.filter_cons_of_neg (by simpa using isAbsolute)] at isAbsolutes
        rw [List.filter_cons_of_pos (by simpa using isAbsolute)] at isItems
        rw [if_neg isAbsolute]
        cases isItems with
        | cons head tail => exact .cons head (ih tail isAbsolutes)

omit [Scalar α] in
theorem skeletons_weave (children : List (Child α)) (items absolutes : List (Box α))
    (isItems : items.map Box.skeleton =
      (children.filter (!·.node.isAbsolute)).map Child.skeleton)
    (isAbsolutes : absolutes.map Box.skeleton =
      (children.filter (·.node.isAbsolute)).map Child.skeleton) :
    (weave children items absolutes).map Box.skeleton = children.map Child.skeleton :=
  forall₂_iff_map_eq.mp (forall₂_weave children (forall₂_iff_map_eq.mpr isItems)
    (forall₂_iff_map_eq.mpr isAbsolutes))

theorem skeletons_finishFlex (rules : FlexRules α) (interior : Interior α) (used : α)
    {children : List (Child α)} (faithful : ∀ child ∈ children, child.Faithful)
    {placed : List (FlexSet α)}
    (items : placed.map (·.child) = children.filter (!·.node.isAbsolute))
    (sound : ∀ item ∈ placed, item.Sound) :
    (finishFlex rules interior used children placed).Gives
      fun contents => contents.boxes.map Box.skeleton = children.map Child.skeleton := by
  have aligned : (placed.mapM (alignItem rules interior (if rules.isRow then
      interior.height.getD (crossExtent rules.isRow placed) else interior.area.width))).Gives
        fun boxes => boxes.map Box.skeleton = placed.map (·.child.skeleton) := by
    refine .mapM fun item member => skeleton_alignItem _ _ _ ?_ (sound item member)
    have isChild : item.child ∈ placed.map (·.child) := List.mem_map_of_mem member
    rw [items] at isChild
    exact faithful _ (List.mem_filter.mp isChild).1
  refine aligned.bind fun boxes same => ?_
  have placedAbsolutes : ((children.filter (·.node.isAbsolute)).mapM fun child =>
      layoutAbsolute child interior.positioned interior.area.x interior.area.y).Gives
        fun boxes => boxes.map Box.skeleton =
          (children.filter (·.node.isAbsolute)).map Child.skeleton := by
    refine .mapM fun child member => ?_
    obtain ⟨isChild, absolute⟩ := List.mem_filter.mp member
    exact skeleton_layoutAbsolute (faithful child isChild) absolute _ _ _
  refine placedAbsolutes.bind fun absolutes sameAbsolutes => ?_
  refine .pure (skeletons_weave children boxes absolutes ?_ sameAbsolutes)
  rw [same, ← items, List.map_map]
  rfl

theorem skeletons_layoutFlex (parent : Styled α) (interior : Interior α)
    {children : List (Child α)} (faithful : ∀ child ∈ children, child.Faithful) :
    (layoutFlex parent interior children).Gives
      fun contents => contents.boxes.map Box.skeleton = children.map Child.skeleton := by
  let rules := flexRules parent interior
  let members := children.filter (!·.node.isAbsolute)
  have measure : (stepThrough (addBase parent rules.isRow interior) [] members).Gives
      fun progress => progress.complete = true ∧ Measured ([] ++ members) progress.state := by
    refine .stepThrough (fun done bases measured child member => ?_) rfl
    exact measured_addBase _ _ _ measured (faithful child (List.mem_filter.mp member).1)
  refine measure.bind fun measured ends => ?_
  obtain ⟨complete, bases⟩ := ends
  refine .ite (fun cut => ?_) fun _ => ?_
  · rw [complete] at cut
    cases cut
  let plan := flexPlan rules interior measured.state.reverse
  have planned : plan.items.map (·.child) = members := (map_child_flexPlan _ _ _).trans bases
  have place : (stepThrough (placeItem parent rules interior plan.spacing) ⟨plan.offset, []⟩
      plan.items).Gives
        fun progress => progress.complete = true ∧ progress.state.Holds ([] ++ plan.items) := by
    refine .stepThrough (fun done pass holds item member => ?_) ⟨rfl, List.forall_mem_nil _⟩
    refine holds_placeItem _ _ _ _ holds ?_
    have isChild : item.child ∈ plan.items.map (·.child) := List.mem_map_of_mem member
    rw [planned] at isChild
    exact faithful _ (List.mem_filter.mp isChild).1
  refine place.bind fun placing ends => ?_
  obtain ⟨complete, items, sound⟩ := ends
  refine .ite (fun cut => ?_) fun _ => ?_
  · rw [complete] at cut
    cases cut
  refine skeletons_finishFlex _ _ _ faithful (items.trans planned) fun item member => ?_
  exact sound item (List.mem_reverse.mp member)

/-! ## Blocks and documents -/

theorem skeletons_layoutContents (node : Styled α) (interior : Interior α)
    {children : List (Child α)} (faithful : ∀ child ∈ children, child.Faithful) :
    (layoutContents node interior children).Gives
      fun contents => contents.boxes.map Box.skeleton = children.map Child.skeleton :=
  .ite (fun _ => skeletons_layoutFlex node interior faithful) fun _ =>
    skeletons_layoutFlow node interior faithful

omit [Scalar α] in
/-- Children and their boxes, pair by pair. -/
theorem forall₂_zip {relates : Child α → Box α → Prop} {children : List (Child α)}
    {boxes : List (Box α)} (related : List.Forall₂ relates children boxes) :
    List.Forall₂ (fun child pair => pair.1 = child ∧ relates child pair.2) children
      (children.zip boxes) := by
  induction related with
  | nil => exact .nil
  | cons head _ ih => exact .cons ⟨rfl, head⟩ ih

theorem skeletons_resetAbsolutes (node : Styled α) (interior : Interior α)
    {children : List (Child α)} (faithful : ∀ child ∈ children, child.Faithful)
    {boxes : List (Box α)} (same : boxes.map Box.skeleton = children.map Child.skeleton) :
    (resetAbsolutes node interior children boxes).Gives
      fun boxes => boxes.map Box.skeleton = children.map Child.skeleton := by
  refine .ite (fun _ => ?_) fun _ => .pure same
  have pairs := (List.forall₂_and_left children _).mpr
    ⟨faithful, forall₂_zip (forall₂_iff_map_eq.mpr same)⟩
  refine (Gives.mapM_forall₂ (pairs.imp fun child pair both => ?_)).weaken
    fun _ => forall₂_iff_map_eq.mp
  obtain ⟨isFaithful, rfl, before⟩ := both
  refine .ite (fun absolute => ?_) fun _ => .pure before
  exact skeleton_layoutAbsolute isFaithful absolute _ _ _

theorem skeleton_moveRelative (node : Styled α) (containingWidth : α) (box : Box α) :
    (moveRelative node containingWidth box).skeleton = box.skeleton := by
  rw [moveRelative]
  split
  · simp only
    split
    · rfl
    · exact skeleton_mapFrames _ box
  · rfl

theorem skeleton_layoutBlock (node : Styled α) {children : List (Child α)}
    (faithful : ∀ child ∈ children, child.Faithful) (placement : Placement α) :
    (layoutBlock node children placement).Gives fun box =>
      box.skeleton = ⟨node.tag, [], node.attributes, children.map Child.skeleton⟩ := by
  refine (skeletons_layoutContents node _ faithful).bind fun contents same => ?_
  refine (skeletons_resetAbsolutes node _ faithful same).bind fun boxes same => ?_
  refine .pure ?_
  rw [skeleton_moveRelative, Box.skeleton_eq, same]

theorem skeletons_layoutChildren (nodes : List (Styled α)) :
    (layoutChildren nodes).map Child.skeleton = nodes.map Styled.skeleton := by
  induction nodes with
  | nil => rw [layoutChildren, List.map_nil, List.map_nil]
  | cons node rest ih =>
      rw [layoutChildren, List.map_cons, List.map_cons, ih]
      rfl

mutual

theorem skeleton_layoutNode (node : Styled α) (settable : node.Settable)
    (notText : node.isText = false) (placement : Placement α) :
    (layoutNode node placement).Gives fun box => box.skeleton = node.skeleton := by
  cases settable with
  | text flows => cases notText
  | @element head style fontSize children image inside =>
      rw [layoutNode, Styled.skeleton_element]
      split
      · rename_i isImage
        rw [image (beq_iff_eq.mp isImage)]
        exact .pure (Box.skeleton_eq _)
      · rw [← skeletons_layoutChildren children]
        exact skeleton_layoutBlock _ (faithful_layoutChildren children inside) placement

theorem faithful_layoutChildren (nodes : List (Styled α))
    (settable : ∀ node ∈ nodes, node.Settable) :
    ∀ child ∈ layoutChildren nodes, child.Faithful := by
  cases nodes with
  | nil =>
      rw [layoutChildren]
      exact List.forall_mem_nil _
  | cons node rest =>
      rw [layoutChildren]
      refine List.forall_mem_cons.mpr ⟨⟨?_, ?_⟩, ?_⟩
      · exact (settable node List.mem_cons_self).flows
      · exact skeleton_layoutNode node (settable node List.mem_cons_self)
      · exact faithful_layoutChildren rest fun other member =>
          settable other (List.mem_cons_of_mem _ member)

end

theorem skeleton_layoutRoot (viewport : Viewport α) {root : Styled α} (settable : root.Settable)
    (notText : root.isText = false) :
    (layoutRoot viewport root).Gives fun box => box.skeleton = root.skeleton := by
  refine (skeleton_layoutNode root settable notText _).bind fun box same => ?_
  refine .pure ?_
  rw [← same, Box.skeleton_eq box]
  exact Box.skeleton_eq _

/-- The layout of a document whose images hold nothing has the skeleton of the document. -/
theorem skeleton_layoutDocument (author : Css.Stylesheet) (viewport : Viewport α)
    {document : Html.Document} (bare : ∀ node ∈ document.children, BareImages node) :
    (layoutDocument author viewport document).Gives fun box? =>
      box?.map Box.skeleton = some (documentSkeleton α author document) := by
  refine (skeleton_styleDocument author document bare).bind fun root styled => ?_
  obtain ⟨same, settable, notText⟩ := styled
  refine .unlessCancelled ?_
  refine (skeleton_layoutRoot viewport settable notText).bind fun box shows => ?_
  refine .unlessCancelled (.pure ?_)
  rw [Option.map_some, shows, same]

/-- An image that was read holds nothing. -/
theorem bareImages_of_grown {outer : List Text} {node : Html.Node} (grown : Html.Grown outer node) :
    BareImages node := by
  induction grown with
  | text => exact .text
  | void => exact .element (fun _ => rfl) (List.forall_mem_nil _)
  | @raw outer head content readable opens isRaw kept =>
      refine .element (fun isImage => ?_) ?_
      · rw [isImage] at isRaw
        exact absurd isRaw (by decide)
      · intro child member
        rw [Html.eq_text_of_mem_textNodes member]
        exact .text
  | nodes readable opens holds apart inner ih =>
      refine .element (fun isImage => ?_) ih
      have notVoid := holds.notVoid
      rw [isImage] at notVoid
      exact absurd notVoid (by decide)

/-- The layout of a document that was read has the skeleton of the document. -/
theorem skeleton_layoutFreely_parse (html : Text) (author : Css.Stylesheet)
    (viewport : Viewport α) :
    (layoutFreely author viewport (Html.Document.parse html).1).skeleton =
      documentSkeleton α author (Html.Document.parse html).1 := by
  have bare : ∀ node ∈ (Html.Document.parse html).1.children, BareImages node :=
    fun node member => bareImages_of_grown ((Html.siblings_parse html).grown node member)
  obtain ⟨box?, yields, same⟩ := skeleton_layoutDocument author viewport bare
  obtain ⟨box, isBox, shows⟩ := Option.map_eq_some_iff.mp same
  have result : Polled.under? none (layoutDocument author viewport (Html.Document.parse html).1) =
      some box := (congrArg Prod.fst (yields 0)).trans isBox
  rw [layoutFreely, Polled.into, result]
  exact shows

end SlidePress.Layout
