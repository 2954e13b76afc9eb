import SlidePress.Proofs.Layout.BoxPerNode
import SlidePress.Proofs.Layout.MovedLines
import SlidePress.Proofs.Layout.Sides

/-! Two layouts side by side, the second of them set elsewhere. Peers are two children that stand in
the same place of two trees and that their parents do not tell apart. Absolute boxes inside them may be
placed against areas anywhere, and a peer that is in the flow may have a position where the other one
has none; the box of the second one goes all the same where the second one is placed, and may move away
from there by as much as sets the peers apart. Two parents then set their peers alike, and here it is
told how: every box that a child gets is the box of the child at a placement that its parent gives it,
moved at most by its alignment. Where the two layouts are one and the same, this tells how each box of
a layout comes about. -/

namespace SlidePress.Layout

open Polling

variable {α : Type} [Scalar α]

def Placement.carried (placement : Placement α) (drift : Drift α) (area : Rect α) : Placement α :=
  { placement with
    x := drift.across placement.x
    y := drift.below placement.y
    positioned := area }

def Interior.carried (interior : Interior α) (drift : Drift α) (area : Rect α) : Interior α :=
  { interior with area := drift.carry interior.area, positioned := area }

theorem Interior.sameRoom_carried (interior : Interior α) (drift : Drift α) (area : Rect α) :
    interior.SameRoom (interior.carried drift area) := ⟨rfl, rfl⟩

/-! ## Absolute boxes -/

def absolutePlacement (node : Styled α) (containing : Rect α) (staticX staticY : α) :
    Placement α :=
  let margin := node.margin containing.width
  let left := node.offset? "left" containing.width
  let right := node.offset? "right" containing.width
  let top := node.offset? "top" containing.height
  let bottom := node.offset? "bottom" containing.height
  let width := absoluteWidth node containing margin left right
  { x := absoluteLeft containing margin left right width staticX
    y := match top with
      | some top => containing.y + top + margin.top
      | none => staticY + margin.top
    availableWidth := width
    containingWidth := containing.width
    containingHeight := some containing.height
    forcedWidth := some width
    forcedHeight := absoluteHeight? node containing margin top bottom
    positioned := containing }

/-- How far an absolute box is moved down to hang from its bottom offset. -/
def hangsBy? (node : Styled α) (containing frame : Rect α) : Option α :=
  match node.offset? "top" containing.height, node.offset? "bottom" containing.height with
  | none, some bottom =>
      let target := containing.y + containing.height - bottom -
        (node.margin containing.width).bottom - frame.height
      some (target - frame.y)
  | _, _ => none

def hangDrift (node : Styled α) (containing frame : Rect α) : Drift α :=
  match hangsBy? node containing frame with
  | some distance => ⟨[], [distance]⟩
  | none => .none

theorem layoutAbsolute_eq (child : Child α) (containing : Rect α) (staticX staticY : α) :
    layoutAbsolute child containing staticX staticY = do
      let box ← child.layout (absolutePlacement child.node containing staticX staticY)
      return box.drifted (hangDrift child.node containing box.frame) := by
  refine bind_congr fun box => ?_
  dsimp only
  unfold hangDrift hangsBy?
  cases child.node.offset? "top" containing.height with
  | some top => exact congrArg pure box.drifted_none.symm
  | none =>
      cases child.node.offset? "bottom" containing.height with
      | none => exact congrArg pure box.drifted_none.symm
      | some bottom => rfl

/-- An absolute box is the box of its node at a placement, moved once its height is known. -/
theorem exists_of_layoutAbsolute {child : Child α} {containing : Rect α} {staticX staticY : α}
    {box inner : Box α} (hung : (layoutAbsolute child containing staticX staticY).Yields box)
    (yields : (child.layout (absolutePlacement child.node containing staticX staticY)).Yields inner) :
    box = inner.drifted (hangDrift child.node containing inner.frame) := by
  rw [layoutAbsolute_eq] at hung
  exact hung.unique (yields.bind fun _ => rfl)

structure Styled.PlacedLike (node other : Styled α) : Prop where
  alike : node.Alike other
  style : node.style = other.style

section PlacedLike

variable {node other : Styled α} (placed : node.PlacedLike other) {drift : Drift α}
include placed

theorem Styled.PlacedLike.offset? (property : Text) (percentBase : α) :
    node.offset? property percentBase = other.offset? property percentBase := by
  simp only [Styled.offset?, Styled.length?, Styled.value, placed.alike.lengths, placed.style]

theorem absolutePlacement_carry (rigid : drift.Rigid) (containing : Rect α) (staticX staticY : α) :
    absolutePlacement other (drift.carry containing) (drift.across staticX) (drift.below staticY) =
      (absolutePlacement node containing staticX staticY).carried drift (drift.carry containing) := by
  have width : ∀ (margin : Edges α) (left right : Option α),
      absoluteWidth other (drift.carry containing) margin left right =
        absoluteWidth node containing margin left right := by
    intro margin left right
    unfold absoluteWidth
    rw [← placed.alike.fixedWidth?, ← placed.alike.width]
    rfl
  have height : ∀ (margin : Edges α) (top bottom : Option α),
      absoluteHeight? other (drift.carry containing) margin top bottom =
        absoluteHeight? node containing margin top bottom := by
    intro margin top bottom
    unfold absoluteHeight?
    rw [← placed.alike.fixedHeight?]
    rfl
  have left : ∀ (margin : Edges α) (left right : Option α) (width : α),
      absoluteLeft (drift.carry containing) margin left right width (drift.across staticX) =
        drift.across (absoluteLeft containing margin left right width staticX) := by
    intro margin left right width
    cases left <;> cases right <;>
      simp [absoluteLeft, Drift.carry, rigid.across.add, rigid.across.sub]
  unfold absolutePlacement
  dsimp only
  rw [width, height, ← placed.alike.margin, left, ← placed.offset?, ← placed.offset?,
    ← placed.offset?, ← placed.offset?]
  cases top : node.offset? "top" containing.height <;>
    simp [Placement.carried, Drift.carry, top, rigid.below.add]

theorem hangDrift_carry (rigid : drift.Rigid) (containing frame : Rect α) :
    hangDrift other (drift.carry containing) (drift.carry frame) =
      hangDrift node containing frame := by
  have target : ∀ bottom margin : α,
      drift.below containing.y + containing.height - bottom - margin - frame.height =
        drift.below (containing.y + containing.height - bottom - margin - frame.height) := by
    simp only [rigid.below.add, rigid.below.sub, implies_true]
  unfold hangDrift hangsBy?
  rw [← placed.alike.margin, ← placed.offset?, ← placed.offset?]
  simp only [Drift.carry, target, rigid.below.distance]

end PlacedLike

/-! ## Peers -/

/-- Two children that their parents do not tell apart, in a flex container or not. -/
structure Peers (α : Type) [Scalar α] (inFlex : Bool) where
  first : Child α
  second : Child α
  /-- How far the second one moves away from where it is placed, further than the first one. -/
  apart : Drift α
  rigid : apart.Rigid
  alike : first.node.Alike second.node
  /-- Where their boxes stand does not depend on what absolute boxes inside are placed against. -/
  level : ∀ ⦃drift : Drift α⦄, drift.Rigid → ∀ (placement : Placement α) (area : Rect α),
    (first.layout placement).Pairs (second.layout (placement.carried drift area))
      fun box set => set.frame = apart.carry (drift.carry box.frame)
  /-- What is part of a line is the same in both trees. -/
  plain : first.node.standsAlone inFlex = false → first.node = second.node ∧ apart = .none

/-- How the height comes about that is given to a child: as a distance that is not negative, from the
style of the child, or as the height of a box of the child; an item of a column may grow from there. -/
inductive Child.Rises (child : Child α) : α → Prop where
  | positive (distance : α) : Rises child (Scalar.positive distance)
  | basis {length : α} (least : (0.0 : α) ≤ length) : Rises child length
  | fixed {containing : Option α} {height : α}
      (style : child.node.fixedHeight? containing = some height) : Rises child height
  | own {placement : Placement α} {box : Box α} (set : (child.layout placement).Yields box) :
      Rises child box.frame.height
  | grown {height free growth : α} (factor : α) (base : Rises child height)
      (room : (0.0 : α) < free) (growing : (0.0 : α) < growth) :
      Rises child (height + free * Scalar.positive factor / growth)

theorem rises_absolutePlacement (child : Child α) {containing : Rect α} {staticX staticY height : α}
    (forced :
      (absolutePlacement child.node containing staticX staticY).forcedHeight = some height) :
    child.Rises height := by
  unfold absolutePlacement absoluteHeight? at forced
  dsimp only at forced
  split at forced
  · rename_i style
    cases forced
    exact .fixed style
  · cases forced
    exact .positive _
  · cases forced

structure Placement.Within (interior : Interior α) (placement : Placement α) : Prop where
  containingWidth : placement.containingWidth = interior.area.width
  containingHeight : placement.containingHeight = interior.height
  positioned : placement.positioned = interior.positioned

/-- A row that lifts an item off its place: the item stands in the middle or at the bottom. -/
structure Lifts (parent : Styled α) (interior : Interior α) (node : Styled α) : Prop where
  isRow : parent.isRow = true
  align : alignment (flexRules parent interior) node ∈ (["center", "flex-end", "end"] : List Text)

/-- An item that is as high as the row it stands in, as long as nothing else fixes its height. -/
structure Stretches (parent node : Styled α) : Prop where
  isFlex : parent.isFlex = true
  isRow : parent.isRow = true
  align : ∀ interior : Interior α, alignment (flexRules parent interior) node = "stretch"
  height : ∃ containing : Option α, node.fixedHeight? containing = none

/-- Where a second peer is set: as far away as everything around it. An item that is set again from
where its first box stands is further away by what sets the peers apart. -/
def Peers.SetAt {inFlex : Bool} (peers : Peers α inFlex) (parent : Styled α)
    (drift there : Drift α) : Prop :=
  there = drift ∨ Stretches parent peers.first.node ∧ there = drift.append peers.apart

/-- How the boxes of peers come about, with everything around the second one set elsewhere, and with
absolute boxes inside it placed against another area. -/
inductive Peers.Come {inFlex : Bool} (parent : Styled α) (interior : Interior α) (drift : Drift α)
    (area : Rect α) (peers : Peers α inFlex) : Box α → Box α → Prop where
  | line {box : Box α} (inLine : peers.first.node.standsAlone inFlex = false)
      (inFlow : peers.first.node.isAbsolute = false) :
      Come parent interior drift area peers box (box.drifted drift)
  | block {placement : Placement α} {box set : Box α} (notFlex : inFlex = false)
      (inFlow : peers.first.node.isFlowBlock = true) (within : placement.Within interior)
      (freeWidth : placement.forcedWidth = none) (freeHeight : placement.forcedHeight = none)
      (first : (peers.first.layout placement).Yields box)
      (second : (peers.second.layout (placement.carried drift area)).Yields set) :
      Come parent interior drift area peers box set
  | item {placement : Placement α} {box set : Box α} {there lift : Drift α} (isItem : inFlex = true)
      (inFlow : peers.first.node.isAbsolute = false) (within : placement.Within interior)
      (rises : ∀ height, placement.forcedHeight = some height → peers.first.Rises height)
      (lifted : lift.down = [] ∨ Lifts parent interior peers.first.node)
      (setAt : peers.SetAt parent drift there)
      (first : (peers.first.layout placement).Yields box)
      (second : (peers.second.layout (placement.carried there area)).Yields set) :
      Come parent interior drift area peers (box.drifted lift) (set.drifted lift)
  | absolute {staticY : α} {box set : Box α} (isAbsolute : peers.first.node.isAbsolute = true)
      (first :
        (layoutAbsolute peers.first interior.positioned interior.area.x staticY).Yields box)
      (second :
        (layoutAbsolute peers.second area (drift.across interior.area.x)
          (drift.below staticY)).Yields set) :
      Come parent interior drift area peers box set

/-- Two computations with what each of them gives. -/
theorem Polling.Pairs.keep {β γ : Type} {first : Polling β} {second : Polling γ}
    {relates : β → γ → Prop} (pairs : first.Pairs second relates) :
    first.Pairs second fun value other =>
      first.Yields value ∧ second.Yields other ∧ relates value other := by
  obtain ⟨value, other, yields, yieldsOther, related⟩ := pairs
  exact ⟨value, other, yields, yieldsOther, yields, yieldsOther, related⟩

namespace Peers

variable {inFlex : Bool} (peers : Peers α inFlex)

/-- Both of them get a box wherever they are placed. -/
theorem yields (placement other : Placement α) :
    (peers.first.layout placement).Pairs (peers.second.layout other) fun _ _ => True := by
  obtain ⟨box, _, yields, _⟩ := peers.level .none placement placement.positioned
  obtain ⟨_, set, _, yieldsToo, _⟩ := peers.level .none other other.positioned
  exact ⟨box, set, yields, yieldsToo, trivial⟩

theorem pairs_layoutAbsolute (containing area : Rect α) (staticX otherX staticY otherY : α) :
    (layoutAbsolute peers.first containing staticX staticY).Pairs
      (layoutAbsolute peers.second area otherX otherY) fun _ _ => True := by
  rw [layoutAbsolute_eq, layoutAbsolute_eq]
  exact (peers.yields _ _).bind fun _ _ _ => .pure trivial

end Peers

/-! ## Flow -/

/-- Slots for the same peers: their boxes, or their absolute children with the heights at which they
would stand. -/
inductive Slot.Come (parent : Styled α) (interior : Interior α) (drift : Drift α) (area : Rect α)
    (peers : Peers α false) : Slot α → Slot α → Prop where
  | box {box set : Box α} (come : peers.Come parent interior drift area box set) :
      Come parent interior drift area peers (.box box) (.box set)
  | absolute {staticY : α} (isAbsolute : peers.first.node.isAbsolute = true) :
      Come parent interior drift area peers (.absolute peers.first staticY)
        (.absolute peers.second (drift.below staticY))

/-- Two flows after the same peers, the second one elsewhere. -/
structure Flow.Level (parent : Styled α) (interior : Interior α) (drift : Drift α) (area : Rect α)
    (done : List (Peers α false)) (flow other : Flow α) : Prop where
  cursor : other.cursor = drift.below flow.cursor
  lastMargin : other.lastMargin = flow.lastMargin
  slots : Threefold (Slot.Come parent interior drift area) done flow.slots.reverse
    other.slots.reverse

variable {parent other : Styled α} {interior : Interior α} {drift : Drift α} {area : Rect α}

theorem blockLeft_carry {node peer : Styled α} (akin : node.Akin peer) (rigid : drift.Rigid)
    (content : Rect α) (margin : Edges α) :
    Flow.blockLeft (drift.carry content) peer margin =
      drift.across (Flow.blockLeft content node margin) := by
  unfold Flow.blockLeft
  rw [← akin.fixedWidth?, ← akin.value (show isPlacing "margin-left" = false by decide),
    ← akin.value (show isPlacing "margin-right" = false by decide)]
  dsimp only [Drift.carry]
  cases node.fixedWidth? content.width with
  | none => exact (rigid.across.add _ _).symm
  | some width => simp only [apply_ite drift.across, rigid.across.add]

theorem length_layoutInline (parent : Styled α) (run : List (Styled α)) (content : Rect α) :
    (layoutInline parent run content).boxes.length = run.length := by
  simpa using congrArg List.length (skeletons_layoutInline parent run content)

/-- The boxes of a line are boxes of peers in the line. -/
theorem threefold_line {run : List (Peers α false)}
    (inLine : ∀ peers ∈ run, peers.first.node.standsAlone false = false)
    (inFlow : ∀ peers ∈ run, peers.first.node.isAbsolute = false) {boxes : List (Box α)}
    (sameLength : boxes.length = run.length) :
    Threefold (fun peers : Peers α false => peers.Come parent interior drift area) run boxes
      (boxes.map (Box.drifted drift)) := by
  induction run generalizing boxes with
  | nil =>
      rw [List.length_eq_zero_iff.mp sameLength]
      exact .nil
  | cons peers rest ih =>
      obtain ⟨isPlain, arePlain⟩ := List.forall_mem_cons.mp inLine
      obtain ⟨isInFlow, areInFlow⟩ := List.forall_mem_cons.mp inFlow
      obtain ⟨box, more, rfl⟩ := List.exists_cons_of_length_eq_add_one sameLength
      refine .cons (.line isPlain isInFlow) (ih arePlain areInFlow ?_)
      simpa using sameLength

theorem Flow.Level.addInline {done run : List (Peers α false)} {flow too : Flow α}
    (level : flow.Level parent interior drift area done too) (akin : parent.Akin other)
    (rigid : drift.Rigid)
    (inLine : ∀ peers ∈ run, peers.first.node.standsAlone false = false)
    (inFlow : ∀ peers ∈ run, peers.first.node.isAbsolute = false) :
    (flow.addInline parent interior (run.map (·.first))).Level parent interior drift area (done ++ run)
      (too.addInline other (interior.carried drift area) (run.map (·.second))) := by
  have nodes : (run.map (·.second)).map (·.node) = (run.map (·.first)).map (·.node) := by
    rw [List.map_map, List.map_map]
    exact List.map_congr_left fun peers member => ((peers.plain (inLine peers member)).1).symm
  have content : ({ (interior.carried drift area).area with
      y := too.cursor + too.lastMargin.getD 0.0 } : Rect α) =
        drift.carry { interior.area with y := flow.cursor + flow.lastMargin.getD 0.0 } := by
    rw [level.cursor, level.lastMargin, ← rigid.below.add]
    rfl
  have set := layoutInline_carry rigid akin ((run.map (·.first)).map (·.node))
    { interior.area with y := flow.cursor + flow.lastMargin.getD 0.0 }
  have slots : Threefold (Slot.Come parent interior drift area) (done ++ run)
      (flow.addInline parent interior (run.map (·.first))).slots.reverse
      (too.addInline other (interior.carried drift area) (run.map (·.second))).slots.reverse := by
    rw [Flow.slots_addInline, Flow.slots_addInline, nodes, content, set, List.reverse_append,
      List.reverse_append, List.reverse_reverse, List.reverse_reverse]
    refine level.slots.append ((threefold_line inLine inFlow ?_).map fun _ _ _ come => .box come)
    rw [length_layoutInline, List.length_map, List.length_map]
  unfold Flow.addInline at slots ⊢
  dsimp only at slots ⊢
  rw [nodes, content, set] at slots ⊢
  split
  · rename_i high
    rw [if_pos high, if_pos high] at slots
    refine ⟨?_, rfl, slots⟩
    simp only [level.cursor, level.lastMargin, rigid.below.add]
  · rename_i flat
    rw [if_neg flat, if_neg flat] at slots
    exact ⟨level.cursor, level.lastMargin, slots⟩

theorem Flow.Level.add {done part : List (Peers α false)} {flow too : Flow α}
    (level : flow.Level parent interior drift area done too) (akin : parent.Akin other)
    (rigid : drift.Rigid) {segment segmentToo : Segment α}
    (same : Segment.Follow (·.first) (·.second) part segment segmentToo) :
    (flow.add parent interior segment).Pairs
      (too.add other (interior.carried drift area) segmentToo)
      (Flow.Level parent interior drift area (done ++ part)) := by
  cases same with
  | absolute isAbsolute =>
      refine .pure ⟨level.cursor, level.lastMargin, ?_⟩
      rw [List.reverse_cons, List.reverse_cons, level.cursor]
      exact level.slots.concat (.absolute isAbsolute)
  | inline inLine inFlow => exact .pure (level.addInline akin rigid inLine inFlow)
  | @block peers inFlow =>
      unfold Flow.add
      dsimp only
      unfold Flow.addBlock
      dsimp only [Interior.carried]
      rw [blockLeft_carry peers.alike.toAkin rigid]
      dsimp only [Drift.carry]
      rw [← peers.alike.margin, level.cursor, level.lastMargin, ← rigid.below.add]
      refine (peers.level rigid _ area).keep.bind ?_
      rintro box set ⟨yields, yieldsToo, frame⟩
      refine .pure ⟨?_, rfl, ?_⟩
      · rw [frame]
        exact (rigid.below.add _ _).symm
      · rw [List.reverse_cons, List.reverse_cons]
        exact level.slots.concat
          (.box (.block rfl inFlow ⟨rfl, rfl, rfl⟩ rfl rfl yields yieldsToo))

theorem Flow.Level.height {done : List (Peers α false)} {flow too : Flow α}
    (level : flow.Level parent interior drift area done too) (rigid : drift.Rigid) (top : α) :
    too.height (drift.below top) = flow.height top := by
  unfold Flow.height
  rw [level.cursor, level.lastMargin]
  cases flow.lastMargin with
  | none => simp only [rigid.below.distance]
  | some margin => simp only [← rigid.below.add, rigid.below.distance]

theorem Slot.Come.fill {peers : Peers α false} {slot slotToo : Slot α}
    (come : slot.Come parent interior drift area peers slotToo) :
    (fillSlot interior slot).Pairs (fillSlot (interior.carried drift area) slotToo)
      (peers.Come parent interior drift area) := by
  cases come with
  | box come => exact .pure come
  | absolute isAbsolute =>
      refine (peers.pairs_layoutAbsolute interior.positioned area interior.area.x _ _ _).keep.weaken ?_
      rintro box set ⟨yields, yieldsToo, -⟩
      exact .absolute isAbsolute yields yieldsToo

/-- Contents that take the same height, with boxes for the same peers. -/
structure Contents.Level {inFlex : Bool} (parent : Styled α) (interior : Interior α)
    (drift : Drift α) (area : Rect α) (peers : List (Peers α inFlex)) (contents too : Contents α) :
    Prop where
  boxes : Threefold (fun peers : Peers α inFlex => peers.Come parent interior drift area) peers
    contents.boxes too.boxes
  height : too.height = contents.height

/-- Peers in a flow are set alike. -/
theorem level_layoutFlow (akin : parent.Akin other) (rigid : drift.Rigid)
    (peers : List (Peers α false)) :
    (layoutFlow parent interior (peers.map (·.first))).Pairs
      (layoutFlow other (interior.carried drift area) (peers.map (·.second)))
      (Contents.Level parent interior drift area peers) := by
  obtain ⟨parts, cut, follow⟩ := segments_follow
    (fun peers : Peers α false => peers.alike.isAbsolute) (fun peers => peers.alike.isInline) peers
  have start : Flow.Level parent interior drift area ([] : List (List (Peers α false))).flatten
      ⟨interior.area.y, none, []⟩ ⟨drift.below interior.area.y, none, []⟩ := ⟨rfl, rfl, .nil⟩
  have loop := Pairs.stepThrough (fun done => Flow.Level parent interior drift area done.flatten)
    follow (fun done flow too held part segment set same => by
      rw [List.flatten_append, List.flatten_singleton]
      exact held.add akin rigid same) start
  refine loop.bind ?_
  rintro ⟨flow, _⟩ ⟨too, _⟩ ⟨rfl, rfl, ends⟩
  rw [List.nil_append, cut] at ends
  dsimp only
  rw [if_pos rfl, if_pos rfl]
  refine (Pairs.mapM ends.slots fun peers slot set held => held.fill).bind fun boxes sets come => ?_
  exact .pure ⟨come, ends.height rigid interior.area.y⟩

end SlidePress.Layout
