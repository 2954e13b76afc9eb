import SlidePress.Layout.Block
import SlidePress.Proofs.Layout.Polling

/-! Cancellation of a layout. Styling polls at every node and after every child, setting polls
before every part of a flow and every flex item, and both may stop half-way with boxes not set.
Every part of them is cancellable all the same, by induction over the tree that it works on: so the
number of polls of a layout does not depend on the check, and nothing that was left half-way is
handed over. -/

namespace SlidePress.Layout

variable {α : Type} [Scalar α]

open Polling

mutual

theorem cancellable_styleNode (sheets : List (Option Css.Stylesheet)) (ancestors : List Html.Element)
    (outer : Surroundings α) (node : Html.Node) :
    (styleNode sheets ancestors outer node).Cancellable fun _ => True := by
  cases node with
  | text content =>
      rw [styleNode]
      exact .unlessCancelled trivial (.pure trivial)
  | element head children =>
      rw [styleNode]
      refine .unlessCancelled trivial ?_
      exact (cancellable_styleNodes sheets _ _ children).bind fun _ _ => .pure trivial

theorem cancellable_styleNodes (sheets : List (Option Css.Stylesheet)) (ancestors : List Html.Element)
    (outer : Surroundings α) (nodes : List Html.Node) :
    (styleNodes sheets ancestors outer nodes).Cancellable fun _ => True := by
  cases nodes with
  | nil =>
      rw [styleNodes]
      exact .pure trivial
  | cons node rest =>
      rw [styleNodes]
      refine (cancellable_styleNode sheets ancestors outer node).bind fun _ _ => ?_
      refine .unlessCancelled trivial ?_
      exact (cancellable_styleNodes sheets ancestors outer rest).bind fun _ _ => .pure trivial

end

theorem cancellable_styleDocument (author : Css.Stylesheet) (document : Html.Document) :
    (styleDocument author document : Polling (Styled α)).Cancellable fun _ => True := by
  refine .unlessCancelled trivial ?_
  exact (cancellable_styleNodes _ _ _ _).bind fun _ _ => .pure trivial

/-- The layout of a child can be cancelled wherever the child is placed. -/
def Child.Cancellable (child : Child α) : Prop :=
  ∀ placement, (child.layout placement).Cancellable fun _ => True

theorem cancellable_layoutAbsolute {child : Child α} (cancellable : child.Cancellable)
    (containing : Rect α) (staticX staticY : α) :
    (layoutAbsolute child containing staticX staticY).Cancellable fun _ => True := by
  refine (cancellable _).bind fun box _ => ?_
  split
  · exact .pure trivial
  · exact .pure trivial

def Flow.Cancellable (flow : Flow α) : Prop :=
  ∀ child staticY, Slot.absolute child staticY ∈ flow.slots → child.Cancellable

theorem cancellable_addInline {flow : Flow α} (waiting : flow.Cancellable) (parent : Styled α)
    (interior : Interior α) (run : List (Child α)) :
    (flow.addInline parent interior run).Cancellable := by
  intro child staticY member
  rw [Flow.slots_addInline, List.mem_append, List.mem_reverse, List.mem_map] at member
  rcases member with ⟨box, _, isBox⟩ | before
  · cases isBox
  · exact waiting child staticY before

theorem cancellable_addSegment {flow : Flow α} (waiting : flow.Cancellable) (parent : Styled α)
    (interior : Interior α) {segment : Segment α}
    (children : ∀ child ∈ segment.members, child.Cancellable) :
    (flow.add parent interior segment).Cancellable Flow.Cancellable := by
  cases segment with
  | absolute child =>
      refine .pure fun other staticY member => ?_
      rcases List.mem_cons.mp member with same | before
      · cases same
        exact children child List.mem_cons_self
      · exact waiting other staticY before
  | inline run => exact .pure (cancellable_addInline waiting parent interior run)
  | block child =>
      refine (children child List.mem_cons_self _).bind fun box _ => ?_
      refine .pure fun other staticY member => ?_
      rcases List.mem_cons.mp member with same | before
      · cases same
      · exact waiting other staticY before

theorem cancellable_fillSlot (interior : Interior α) {slot : Slot α}
    (waiting : ∀ child staticY, slot = .absolute child staticY → child.Cancellable) :
    (fillSlot interior slot).Cancellable fun _ => True := by
  cases slot with
  | box box => exact .pure trivial
  | absolute child staticY => exact cancellable_layoutAbsolute (waiting child staticY rfl) _ _ _

theorem cancellable_layoutFlow (parent : Styled α) (interior : Interior α)
    {children : List (Child α)} (all : ∀ child ∈ children, child.Cancellable) :
    (layoutFlow parent interior children).Cancellable fun _ => True := by
  have start : Flow.Cancellable (⟨interior.area.y, none, []⟩ : Flow α) :=
    fun _ _ member => nomatch member
  have steps : ∀ flow : Flow α, flow.Cancellable → ∀ segment ∈ segments children,
      (flow.add parent interior segment).Cancellable Flow.Cancellable := by
    intro flow waiting segment isPart
    refine cancellable_addSegment waiting parent interior fun child member => all child ?_
    rw [← members_segments children]
    exact List.mem_flatMap.mpr ⟨segment, isPart, member⟩
  refine (Polling.Cancellable.stepThrough steps start).bind fun progress waiting => ?_
  refine .ite (fun _ => ?_) fun _ => .pure trivial
  refine (Polling.Cancellable.mapM fun slot member => ?_).bind fun _ _ => .pure trivial
  refine cancellable_fillSlot interior fun child staticY same => waiting child staticY ?_
  exact same ▸ List.mem_reverse.mp member

theorem cancellable_baseSize (parent : Styled α) (isRow : Bool) (interior : Interior α)
    {child : Child α} (cancellable : child.Cancellable) (margin : Edges α) :
    (baseSize parent isRow interior child margin).Cancellable fun _ => True := by
  rw [baseSize]
  split
  · exact .pure trivial
  · refine .ite (fun _ => .ite (fun _ => .pure trivial) fun _ => .pure trivial) fun _ => ?_
    split
    · exact .pure trivial
    · refine .ite (fun _ => .pure trivial) fun _ => ?_
      exact (cancellable _).bind fun _ _ => .pure trivial

def CancellableBases (bases : List (FlexBase α)) : Prop :=
  ∀ base ∈ bases, base.child.Cancellable

theorem cancellable_addBase (parent : Styled α) (isRow : Bool) (interior : Interior α)
    {bases : List (FlexBase α)} (before : CancellableBases bases)
    {child : Child α} (cancellable : child.Cancellable) :
    (addBase parent isRow interior bases child).Cancellable CancellableBases := by
  refine (cancellable_baseSize parent isRow interior cancellable _).bind fun size _ => ?_
  refine .pure fun base member => ?_
  rcases List.mem_cons.mp member with same | inside
  · exact same ▸ cancellable
  · exact before base inside

theorem cancellable_flexPlan (rules : FlexRules α) (interior : Interior α)
    {bases : List (FlexBase α)} (all : CancellableBases bases) :
    ∀ item ∈ (flexPlan rules interior bases).items, item.child.Cancellable := by
  intro item member
  have source : item.child ∈ (flexPlan rules interior bases).items.map (·.child) :=
    List.mem_map_of_mem member
  rw [map_child_flexPlan] at source
  obtain ⟨base, isBase, same⟩ := List.mem_map.mp source
  exact same ▸ all base isBase

theorem cancellable_layoutItem (parent : Styled α) (isRow : Bool) {child : Child α}
    (cancellable : child.Cancellable) (placement : Placement α) :
    (layoutItem parent isRow child placement).Cancellable fun _ => True :=
  .ite (fun _ => .pure trivial) fun _ => cancellable placement

def FlexPass.Cancellable (pass : FlexPass α) : Prop :=
  ∀ item ∈ pass.placed, item.child.Cancellable

theorem cancellable_placeItem (parent : Styled α) (rules : FlexRules α) (interior : Interior α)
    (spacing : α) {pass : FlexPass α} (before : pass.Cancellable)
    {item : FlexItem α} (cancellable : item.child.Cancellable) :
    (placeItem parent rules interior spacing pass item).Cancellable FlexPass.Cancellable := by
  refine (cancellable_layoutItem parent rules.isRow cancellable _).bind fun box _ => ?_
  refine .pure fun other member => ?_
  rcases List.mem_cons.mp member with same | inside
  · exact same ▸ cancellable
  · exact before other inside

theorem cancellable_alignItem (rules : FlexRules α) (interior : Interior α) (cross : α)
    {item : FlexSet α} (cancellable : item.child.Cancellable) :
    (alignItem rules interior cross item).Cancellable fun _ => True := by
  refine .ite (fun _ => .ite (fun _ => cancellable _) fun _ => .pure trivial) fun _ => ?_
  refine .ite (fun _ => .pure trivial) fun _ => ?_
  exact .ite (fun _ => .pure trivial) fun _ => .pure trivial

theorem cancellable_finishFlex (rules : FlexRules α) (interior : Interior α) (used : α)
    {children : List (Child α)} (all : ∀ child ∈ children, child.Cancellable)
    {placed : List (FlexSet α)} (items : ∀ item ∈ placed, item.child.Cancellable) :
    (finishFlex rules interior used children placed).Cancellable fun _ => True := by
  refine (Polling.Cancellable.mapM fun item member =>
    cancellable_alignItem _ _ _ (items item member)).bind fun _ _ => ?_
  refine (Polling.Cancellable.mapM fun child member => ?_).bind fun _ _ => .pure trivial
  exact cancellable_layoutAbsolute (all child (List.mem_filter.mp member).1) _ _ _

theorem cancellable_layoutFlex (parent : Styled α) (interior : Interior α)
    {children : List (Child α)} (all : ∀ child ∈ children, child.Cancellable) :
    (layoutFlex parent interior children).Cancellable fun _ => True := by
  have measure : (stepThrough (addBase parent (flexRules parent interior).isRow interior) []
      (children.filter (!·.node.isAbsolute))).Cancellable
        fun measured => CancellableBases measured.state := by
    refine .stepThrough (fun bases before child member => ?_) fun _ member => nomatch member
    exact cancellable_addBase _ _ _ before (all child (List.mem_filter.mp member).1)
  refine measure.bind fun measured based => ?_
  refine .ite (fun _ => .pure trivial) fun _ => ?_
  have planned := cancellable_flexPlan (flexRules parent interior) interior fun base member =>
    based base (List.mem_reverse.mp member)
  have place : (stepThrough (placeItem parent (flexRules parent interior) interior
      (flexPlan (flexRules parent interior) interior measured.state.reverse).spacing)
      ⟨(flexPlan (flexRules parent interior) interior measured.state.reverse).offset, []⟩
      (flexPlan (flexRules parent interior) interior measured.state.reverse).items).Cancellable
        fun placing => placing.state.Cancellable := by
    refine .stepThrough (fun pass before item member => ?_) fun _ member => nomatch member
    exact cancellable_placeItem _ _ _ _ before (planned item member)
  refine place.bind fun placing items => ?_
  refine .ite (fun _ => .pure trivial) fun _ => ?_
  exact cancellable_finishFlex _ _ _ all fun item member => items item (List.mem_reverse.mp member)

theorem cancellable_layoutContents (node : Styled α) (interior : Interior α)
    {children : List (Child α)} (all : ∀ child ∈ children, child.Cancellable) :
    (layoutContents node interior children).Cancellable fun _ => True :=
  .ite (fun _ => cancellable_layoutFlex _ _ all) fun _ => cancellable_layoutFlow _ _ all

theorem cancellable_resetAbsolutes (node : Styled α) (interior : Interior α)
    {children : List (Child α)} (all : ∀ child ∈ children, child.Cancellable)
    (boxes : List (Box α)) :
    (resetAbsolutes node interior children boxes).Cancellable fun _ => True := by
  refine .ite (fun _ => ?_) fun _ => .pure trivial
  refine .mapM fun pair member => .ite (fun _ => ?_) fun _ => .pure trivial
  exact cancellable_layoutAbsolute (all pair.1 (List.of_mem_zip member).1) _ _ _

theorem cancellable_layoutBlock (node : Styled α) {children : List (Child α)}
    (all : ∀ child ∈ children, child.Cancellable) (placement : Placement α) :
    (layoutBlock node children placement).Cancellable fun _ => True := by
  refine (cancellable_layoutContents node _ all).bind fun contents _ => ?_
  exact (cancellable_resetAbsolutes node _ all _).bind fun boxes _ => .pure trivial

mutual

theorem cancellable_layoutNode (node : Styled α) (placement : Placement α) :
    (layoutNode node placement).Cancellable fun _ => True := by
  cases node with
  | text content style fontSize =>
      rw [layoutNode]
      exact cancellable_layoutBlock _ (List.forall_mem_nil _) placement
  | element head style fontSize children =>
      rw [layoutNode]
      split
      · exact .pure trivial
      · exact cancellable_layoutBlock _ (cancellable_layoutChildren children) placement

theorem cancellable_layoutChildren (nodes : List (Styled α)) :
    ∀ child ∈ layoutChildren nodes, child.Cancellable := by
  intro child member
  cases nodes with
  | nil =>
      rw [layoutChildren] at member
      cases member
  | cons node rest =>
      rw [layoutChildren] at member
      rcases List.mem_cons.mp member with same | inside
      · rw [same]
        exact cancellable_layoutNode node
      · exact cancellable_layoutChildren rest child inside

end

theorem cancellable_layoutRoot (viewport : Viewport α) (root : Styled α) :
    (layoutRoot viewport root).Cancellable fun _ => True :=
  (cancellable_layoutNode root _).bind fun _ _ => .pure trivial

theorem atomic_layoutDocument (author : Css.Stylesheet) (viewport : Viewport α)
    (document : Html.Document) : (layoutDocument author viewport document).Atomic := by
  refine .guard (cancellable_styleDocument author document) fun root _ => ?_
  exact .guard (cancellable_layoutRoot viewport root) fun box _ => .pure box

/-- There is a number of polls from which on the layout of a document is the one that nothing
cancels, and below which nothing is handed over. -/
theorem layoutDocument_into_after (author : Css.Stylesheet) (viewport : Viewport α)
    (document : Html.Document) :
    ∃ polls : Nat, ∀ (budget : Nat) (out : Box α),
      (polls ≤ budget →
        Polled.into (some (.after budget)) out (layoutDocument author viewport document) =
          (true, layoutFreely author viewport document)) ∧
      (budget < polls →
        Polled.into (some (.after budget)) out (layoutDocument author viewport document) =
          (false, out)) := by
  obtain ⟨polls, box, unchecked, checked⟩ := atomic_layoutDocument author viewport document
  have free : layoutFreely author viewport document = box := by
    have result : Polled.under? none (layoutDocument author viewport document) = some box :=
      congrArg Prod.fst (unchecked 0)
    rw [layoutFreely, Polled.into, result]
  refine ⟨polls, fun budget out => ⟨fun enough => ?_, fun short => ?_⟩⟩
  · have result : Polled.under? (some (.after budget)) (layoutDocument author viewport document) =
        some box := (checked (.after budget) 0).1 (Check.Grants.after.mpr enough)
    rw [Polled.into, result, free]
  · have nothing : Polled.under? (some (.after budget)) (layoutDocument author viewport document) =
        none := (checked (.after budget) 0).2 fun grants =>
          Nat.not_le_of_lt short (Check.Grants.after.mp grants)
    rw [Polled.into, nothing]

end SlidePress.Layout
