import SlidePress.Layout.Inline
import SlidePress.Layout.Placement

/-! Flow layout: blocks below one another with collapsing margins between them, runs of inline
nodes as lines of text, and absolute boxes placed once the flow is done. -/
namespace SlidePress.Layout

variable {α : Type} [Scalar α]

inductive Segment (α : Type) where
  | absolute (child : Child α)
  | inline (run : List (Child α))
  | block (child : Child α)

/-- The parts of a flow: neighbouring inline children are one run. -/
def segments : List (Child α) → List (Segment α)
  | [] => []
  | child :: rest =>
      if child.node.isAbsolute then .absolute child :: segments rest
      else if child.node.isInline then
        match segments rest with
        | .inline run :: more => .inline (child :: run) :: more
        | more => .inline [child] :: more
      else .block child :: segments rest

def Segment.members : Segment α → List (Child α)
  | .absolute child => [child]
  | .inline run => run
  | .block child => [child]

omit [Scalar α] in
/-- The parts of a flow are its children, in order. -/
theorem members_segments (children : List (Child α)) :
    (segments children).flatMap Segment.members = children := by
  induction children with
  | nil => rfl
  | cons child rest ih =>
      rw [segments]
      split
      · rw [List.flatMap_cons, ih]
        rfl
      · split
        · split
          · rename_i run more shape
            rw [shape] at ih
            rw [List.flatMap_cons] at ih ⊢
            exact congrArg (child :: ·) ih
          · rw [List.flatMap_cons, ih]
            rfl
        · rw [List.flatMap_cons, ih]
          rfl

/-- A place among the boxes of a flow: a box, or an absolute child whose box is still to come, with
the height at which it would stand in the flow. -/
inductive Slot (α : Type) where
  | box (box : Box α)
  | absolute (child : Child α) (staticY : α)

/-- The box of a slot as long as no absolute child has one. -/
def Slot.reserved : Slot α → Box α
  | .box set => set
  | .absolute _ _ => .unset

/-- A flow while it is set: how far down it reaches, the bottom margin of a block that stands last,
and the slots so far, latest first. -/
structure Flow (α : Type) where
  cursor : α
  lastMargin : Option α
  slots : List (Slot α)

namespace Flow

/-- The next run of inline children. A run without height leaves the flow where it was. -/
def addInline (parent : Styled α) (interior : Interior α) (flow : Flow α)
    (run : List (Child α)) : Flow α :=
  let top := flow.cursor + flow.lastMargin.getD 0.0
  let set := layoutInline parent (run.map (·.node)) { interior.area with y := top }
  let slots := (set.boxes.map Slot.box).reverse ++ flow.slots
  if (0.0 : α) < set.height then ⟨top + set.height, none, slots⟩ else { flow with slots }

/-- A run adds a slot for each of its boxes, whether it has height or not. -/
theorem slots_addInline (parent : Styled α) (interior : Interior α) (flow : Flow α)
    (run : List (Child α)) :
    (flow.addInline parent interior run).slots =
      ((layoutInline parent (run.map (·.node))
        { interior.area with y := flow.cursor + flow.lastMargin.getD 0.0 }).boxes.map
          Slot.box).reverse ++ flow.slots := by
  rw [addInline]
  split
  · rfl
  · rfl

/-- The left edge of a block. A block of fixed width is moved by margins that take up free room. -/
def blockLeft (area : Rect α) (node : Styled α) (margin : Edges α) : α :=
  match node.fixedWidth? area.width with
  | some width =>
      let autoLeft := node.value "margin-left" == "auto"
      if autoLeft && node.value "margin-right" == "auto" then
        area.x + Scalar.positive ((area.width - width) / 2.0)
      else if autoLeft then area.x + Scalar.positive (area.width - width - margin.right)
      else area.x + margin.left
  | none => area.x + margin.left

/-- The next block. Of the margins between two blocks the larger one counts. -/
def addBlock (interior : Interior α) (flow : Flow α) (child : Child α) : Polling (Flow α) := do
  let area := interior.area
  let margin := child.node.margin area.width
  let above :=
    match flow.lastMargin with
    | some bottom => Scalar.max bottom margin.top
    | none => margin.top
  let top := flow.cursor + above
  let box ← child.layout
    { x := blockLeft area child.node margin
      y := top
      availableWidth := Scalar.positive (area.width - margin.horizontal)
      containingWidth := area.width
      containingHeight := interior.height
      forcedWidth := none
      forcedHeight := none
      positioned := interior.positioned }
  return ⟨top + box.frame.height, some margin.bottom, .box box :: flow.slots⟩

def add (parent : Styled α) (interior : Interior α) (flow : Flow α) (segment : Segment α) :
    Polling (Flow α) :=
  match segment with
  | .absolute child => return { flow with slots := .absolute child flow.cursor :: flow.slots }
  | .inline run => return flow.addInline parent interior run
  | .block child => flow.addBlock interior child

def height (flow : Flow α) (top : α) : α :=
  let bottom :=
    match flow.lastMargin with
    | some margin => flow.cursor + margin
    | none => flow.cursor
  Scalar.positive (bottom - top)

end Flow

def fillSlot (interior : Interior α) : Slot α → Polling (Box α)
  | .box box => return box
  | .absolute child staticY => layoutAbsolute child interior.positioned interior.area.x staticY

/-- The children of a node set in the flow, with a poll before each part of it. -/
def layoutFlow (parent : Styled α) (interior : Interior α) (children : List (Child α)) :
    Polling (Contents α) := do
  let progress ←
    stepThrough (Flow.add parent interior) ⟨interior.area.y, none, []⟩ (segments children)
  let slots := progress.state.slots.reverse
  if progress.complete then
    let boxes ← slots.mapM (fillSlot interior)
    return ⟨boxes, progress.state.height interior.area.y⟩
  else return ⟨slots.map Slot.reserved, 0.0⟩

end SlidePress.Layout
