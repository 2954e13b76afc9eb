import SlidePress.Proofs.Layout.LineSizes
import SlidePress.Proofs.Layout.RelativeShift

/-! The sizes of all boxes, in rounded arithmetic. A block brings its sizes to zero or more at its end,
whatever it was given. An image takes the sizes that it is given, or those of its style with its paddings
and borders, and a box in lines is as high as they are; so a padding below zero can show in an image, and
a line height below zero in a line. Nothing else can make a size fall below zero. -/

namespace SlidePress.Layout

open Number (NotNegative)
open Polling

/-! ## How boxes come about -/

/-- How a node gets its box. -/
inductive Setting where
  /-- As a block: in the flow, as an item, or out of the flow. -/
  | block
  | image
  /-- In lines with a strut, the line height of the block around them. -/
  | line (strut : Number)

def Styled.ownSetting (node : Styled Number) : Setting :=
  if node.tag == "img" then .image else .block

def Setting.inside (setting : Setting) (node child : Styled Number) : Setting :=
  match setting with
  | .line strut => .line strut
  | _ =>
      if child.standsAlone node.isFlex then child.ownSetting
      else .line (lineHeight node.style node.fontSize)

def Styled.setAt? : List Nat → Setting → Styled Number → Option (Setting × Styled Number)
  | [], setting, node => some (setting, node)
  | index :: path, setting, node =>
      node.children[index]?.bind fun child => child.setAt? path (setting.inside node child)

/-- The paddings of the node make nothing smaller: they count for nothing, or none of them is below zero,
whatever width its percentages refer to. In the flow that width is never below zero. -/
def Styled.KeepsSize (node : Styled Number) : Prop :=
  node.isBorderBox = true ∨ ∀ base : Number, base.NotNegative ∨ node.isAbsolute = true →
    (node.padding base).NotNegative

def Setting.Bounds : Setting → Styled Number → Rect Number → Prop
  | .block, _, frame => 0.0 ≤ frame.width ∧ 0.0 ≤ frame.height
  | .image, node, frame => node.KeepsSize → frame.width.NotNegative ∧ frame.height.NotNegative
  | .line strut, _, frame => InLine strut frame

def Box.Sized (setting : Setting) (node : Styled Number) (box : Box Number) : Prop :=
  ∀ path inner, box.at? path = some inner → ∃ own found,
    node.setAt? path setting = some (own, found) ∧ own.Bounds found inner.frame

namespace Box.Sized

variable {setting : Setting} {node : Styled Number} {box : Box Number}

theorem intro (own : setting.Bounds node box.frame)
    (inside : ∀ (index : Nat) (inner : Box Number), box.children[index]? = some inner → ∃ child,
      node.children[index]? = some child ∧ inner.Sized (setting.inside node child) child) :
    box.Sized setting node := by
  intro path inner isInner
  cases path with
  | nil =>
      obtain rfl : box = inner := Option.some.inj isInner
      exact ⟨setting, node, rfl, own⟩
  | cons index path =>
      obtain ⟨next, isNext, below⟩ := Option.bind_eq_some_iff.mp isInner
      obtain ⟨child, isChild, sized⟩ := inside index next isNext
      obtain ⟨found, inTree, reached, bounds⟩ := sized path inner below
      refine ⟨found, inTree, ?_, bounds⟩
      rw [Styled.setAt?, isChild]
      exact reached

theorem own (sized : box.Sized setting node) : setting.Bounds node box.frame := by
  obtain ⟨own, found, reached, bounds⟩ := sized [] box rfl
  obtain ⟨rfl, rfl⟩ := Prod.mk.inj (Option.some.inj reached)
  exact bounds

theorem inside (sized : box.Sized setting node) {index : Nat} {inner : Box Number}
    (isInner : box.children[index]? = some inner) :
    ∃ child, node.children[index]? = some child ∧ inner.Sized (setting.inside node child) child := by
  have below (path : List Nat) : box.at? (index :: path) = inner.at? path := by
    rw [Box.at?, isInner]
    rfl
  obtain ⟨_, _, reached, -⟩ := sized [index] inner (below [])
  obtain ⟨child, isChild, -⟩ := Option.bind_eq_some_iff.mp reached
  refine ⟨child, isChild, fun path deep isDeep => ?_⟩
  obtain ⟨own, found, reached, bounds⟩ := sized (index :: path) deep ((below path).trans isDeep)
  rw [Styled.setAt?, isChild] at reached
  exact ⟨own, found, reached, bounds⟩

/-- Another frame, with the same boxes inside. -/
theorem withFrame (sized : box.Sized setting node) {frame : Rect Number}
    (bounds : setting.Bounds node frame) : ({ box with frame } : Box Number).Sized setting node :=
  Box.Sized.intro bounds fun _ _ => sized.inside

end Box.Sized

theorem at?_mapFrames {α : Type} (change : Rect α → Rect α) (path : List Nat) (box : Box α) :
    (box.mapFrames change).at? path = (box.at? path).map (Box.mapFrames change) := by
  induction path generalizing box with
  | nil => rfl
  | cons index path ih =>
      rw [Box.at?, Box.at?, Box.mapFrames_eq, List.getElem?_map]
      cases box.children[index]? with
      | none => rfl
      | some child => exact ih child

/-- What counts of a frame are its sizes. -/
theorem Setting.Bounds.congr {setting : Setting} {node : Styled Number} {frame other : Rect Number}
    (bounds : setting.Bounds node frame) (width : other.width = frame.width)
    (height : other.height = frame.height) : setting.Bounds node other := by
  cases setting with
  | block => exact ⟨width ▸ bounds.1, height ▸ bounds.2⟩
  | image =>
      intro keeps
      rw [width, height]
      exact bounds keeps
  | line strut => exact ⟨width ▸ bounds.width, fun least => height ▸ bounds.height least⟩

/-- Boxes that are moved keep their sizes. -/
theorem Box.Sized.mapFrames {setting : Setting} {node : Styled Number} {box : Box Number}
    (sized : box.Sized setting node) {change : Rect Number → Rect Number}
    (width : ∀ rect, (change rect).width = rect.width)
    (height : ∀ rect, (change rect).height = rect.height) :
    (box.mapFrames change).Sized setting node := by
  intro path inner isInner
  rw [at?_mapFrames] at isInner
  obtain ⟨before, isBefore, rfl⟩ := Option.map_eq_some_iff.mp isInner
  obtain ⟨own, found, reached, bounds⟩ := sized path before isBefore
  refine ⟨own, found, reached, ?_⟩
  rw [Box.mapFrames_eq]
  exact bounds.congr (width _) (height _)

/-! ## Boxes in lines -/

section Lines

variable {strut : Number}

theorem forall₂_getElem? {β γ : Type} {relates : β → γ → Prop} {firsts : List β} {seconds : List γ}
    (related : List.Forall₂ relates firsts seconds) {index : Nat} {second : γ}
    (isSecond : seconds[index]? = some second) :
    ∃ first, firsts[index]? = some first ∧ relates first second := by
  induction related generalizing index with
  | nil => cases isSecond
  | cons head _ ih =>
      cases index with
      | zero =>
          obtain rfl := Option.some.inj isSecond
          exact ⟨_, rfl, head⟩
      | succ index => exact ih isSecond

mutual

theorem sized_inlineBox {frames : List (List Nat × Rect Number)}
    (inLine : ∀ entry ∈ frames, InLine strut entry.2) (content : Rect Number) (node : Styled Number)
    (number : Nat) : (inlineBox content frames node number).1.Sized (.line strut) node := by
  have own : InLine strut ((ownerFrame? frames number).getD ⟨content.x, content.y, 0.0, 0.0⟩) := by
    cases found : ownerFrame? frames number with
    | none => exact ⟨notNegative_zero, fun _ => notNegative_zero⟩
    | some frame => exact inLine_ownerFrame? inLine number frame found
  cases node with
  | text text style fontSize =>
      rw [inlineBox]
      exact Box.Sized.intro own fun _ _ isInner => nomatch isInner
  | element head style fontSize children =>
      rw [inlineBox]
      exact Box.Sized.intro own fun _ _ isInner =>
        forall₂_getElem? (sized_inlineBoxes inLine content children (number + 1)) isInner

theorem sized_inlineBoxes {frames : List (List Nat × Rect Number)}
    (inLine : ∀ entry ∈ frames, InLine strut entry.2) (content : Rect Number)
    (nodes : List (Styled Number)) (number : Nat) :
    List.Forall₂ (fun node box => Box.Sized (.line strut) node box) nodes
      (inlineBoxes content frames nodes number).1 := by
  cases nodes with
  | nil =>
      rw [inlineBoxes]
      exact .nil
  | cons node rest =>
      rw [inlineBoxes]
      exact .cons (sized_inlineBox inLine content node number)
        (sized_inlineBoxes inLine content rest _)

end

theorem sized_layoutInline (parent : Styled Number) (run : List (Styled Number))
    (content : Rect Number) :
    List.Forall₂ (fun node box =>
        Box.Sized (.line (lineHeight parent.style parent.fontSize)) node box) run
      (layoutInline parent run content).boxes := by
  rw [boxes_layoutInline]
  exact sized_inlineBoxes (inLine_runFrames parent run content) content run 0

end Lines

end SlidePress.Layout
