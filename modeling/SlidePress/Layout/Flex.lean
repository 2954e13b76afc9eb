import SlidePress.Layout.Inline
import SlidePress.Layout.Placement

/-! Flex layout: items in a row or a column. The items get their base sizes, grow or shrink into
the room of the main axis, are spread over it, and are aligned on the cross axis; an item that is
stretched is set a second time. Absolute children take no part and are placed last. -/
namespace SlidePress.Layout

variable {α : Type} [Scalar α]

structure FlexRules (α : Type) where
  isRow : Bool
  gap : α
  justify : Text
  align : Text

/-- The main size of a container; zero when it is not known. -/
def mainSize (isRow : Bool) (interior : Interior α) : α :=
  if isRow then interior.area.width else interior.height.getD 0.0

def flexRules (node : Styled α) (interior : Interior α) : FlexRules α :=
  let isRow := node.isRow
  { isRow
    gap :=
      (node.length? (if isRow then "column-gap" else "row-gap") (mainSize isRow interior)).getD 0.0
    justify := node.valueD "justify-content" "flex-start"
    align := node.valueD "align-items" "stretch" }

structure FlexBase (α : Type) where
  child : Child α
  margin : Edges α
  base : α
  grow : α
  shrink : α

structure FlexItem (α : Type) where
  child : Child α
  margin : Edges α
  main : α

structure FlexSet (α : Type) where
  child : Child α
  margin : Edges α
  box : Box α

def mainMargin (isRow : Bool) (margin : Edges α) : α :=
  if isRow then margin.horizontal else margin.vertical

def crossMargin (isRow : Bool) (margin : Edges α) : α :=
  if isRow then margin.vertical else margin.horizontal

/-- A factor in a style: the number it begins with, if that is above zero. -/
def flexFactor (node : Styled α) (property default : Text) : α :=
  match Numeral.read? (node.valueD property default) with
  | some (numeral, _) => Scalar.positive (Scalar.ofNumeral numeral)
  | none => Scalar.positive 0.0

/-- The height of an item of a column that its style does not fix: it is set once to see. -/
def probeHeight (parent : Styled α) (interior : Interior α) (child : Child α) (margin : Edges α) :
    Polling α := do
  let width := Scalar.positive (interior.area.width - margin.horizontal)
  if child.node.isText then
    return (layoutInline parent [child.node] ⟨0.0, 0.0, width, 0.0⟩).height
  else
    let box ← child.layout
      { x := 0.0
        y := 0.0
        availableWidth := width
        containingWidth := interior.area.width
        containingHeight := none
        forcedWidth := none
        forcedHeight := none
        positioned := interior.positioned }
    return box.frame.height

/-- The size of an item on the main axis before it grows or shrinks: its basis, else what its
style fixes, else what its content takes. -/
def baseSize (parent : Styled α) (isRow : Bool) (interior : Interior α) (child : Child α)
    (margin : Edges α) : Polling α :=
  let node := child.node
  let basis :=
    resolveLength? (node.lengths (mainSize isRow interior)) (node.valueD "flex-basis" "auto")
  match basis.filter fun length => decide ((0.0 : α) ≤ length) with
  | some length => return length
  | none =>
      if isRow then
        if node.isText then return inlineWidth node
        else return (node.fixedWidth? interior.area.width).getD (maxContentWidth node)
      else
        match if node.isText then none else node.fixedHeight? interior.height with
        | some height => return height
        | none => probeHeight parent interior child margin

def addBase (parent : Styled α) (isRow : Bool) (interior : Interior α)
    (bases : List (FlexBase α)) (child : Child α) : Polling (List (FlexBase α)) := do
  let margin := child.node.margin interior.area.width
  let base ← baseSize parent isRow interior child margin
  return ⟨child, margin, base, flexFactor child.node "flex-grow" "0",
    flexFactor child.node "flex-shrink" "1"⟩ :: bases

def withGaps (gap : α) (count : Nat) (sizes : α) : α :=
  if 1 < count then sizes + gap * Scalar.ofNat (count - 1) else sizes

/-- The items with their main sizes. Free room goes to items by their growth; missing room is
taken from them by their shrinkage and base size. -/
def flexSizes (free : α) (bases : List (FlexBase α)) : List (FlexItem α) :=
  let growth := Scalar.sum (bases.map (·.grow))
  let weight := Scalar.sum (bases.map fun item => item.shrink * item.base)
  bases.map fun item =>
    let main :=
      if (0.0 : α) < free ∧ (0.0 : α) < growth then item.base + free * item.grow / growth
      else if free < 0.0 ∧ (0.0 : α) < weight then
        Scalar.positive (item.base + free * item.shrink * item.base / weight)
      else item.base
    ⟨item.child, item.margin, main⟩

theorem map_child_flexSizes (free : α) (bases : List (FlexBase α)) :
    (flexSizes free bases).map (·.child) = bases.map (·.child) := by
  rw [flexSizes, List.map_map]
  rfl

def spread (rules : FlexRules α) (count : Nat) (leftover : α) : α × α :=
  let size : α := Scalar.ofNat count
  let justify := rules.justify
  if justify == "flex-end" || justify == "end" || justify == "right" then (leftover, rules.gap)
  else if justify == "center" then (leftover / 2.0, rules.gap)
  else if justify == "space-between" && 1 < count then
    (0.0, rules.gap + leftover / (size - 1.0))
  else if justify == "space-around" && 0 < count then
    (leftover / (2.0 * size), rules.gap + leftover / size)
  else if justify == "space-evenly" && 0 < count then
    (leftover / (size + 1.0), rules.gap + leftover / (size + 1.0))
  else (0.0, rules.gap)

/-- The width of an item of a column: fixed by its style, else that of its content when it is not
stretched. -/
def columnWidth? (rules : FlexRules α) (interior : Interior α) (node : Styled α)
    (margin : Edges α) : Option α :=
  match if node.isText then none else node.fixedWidth? interior.area.width with
  | some width => some width
  | none =>
      let align := node.valueD "align-self" rules.align
      if align != "stretch" && align != "normal" && align != "auto" then
        some (Scalar.min (maxContentWidth node)
          (Scalar.positive (interior.area.width - margin.horizontal)))
      else none

def flexPlacement (rules : FlexRules α) (interior : Interior α) (cursor : α) (item : FlexItem α) :
    Placement α :=
  let area := interior.area
  let margin := item.margin
  if rules.isRow then
    { x := area.x + cursor + margin.left
      y := area.y + margin.top
      availableWidth := item.main
      containingWidth := area.width
      containingHeight := interior.height
      forcedWidth := some item.main
      forcedHeight := none
      positioned := interior.positioned }
  else
    let width := columnWidth? rules interior item.child.node margin
    { x := area.x + margin.left
      y := area.y + cursor + margin.top
      availableWidth := width.getD (Scalar.positive (area.width - margin.horizontal))
      containingWidth := area.width
      containingHeight := interior.height
      forcedWidth := width
      forcedHeight := some item.main
      positioned := interior.positioned }

def textItem (parent node : Styled α) (isRow : Bool) (placement : Placement α) : Box α :=
  let run := layoutInline parent [node]
    ⟨placement.x, placement.y, placement.availableWidth, 0.0⟩
  match run.boxes with
  | box :: _ =>
      if isRow then box
      else { box with frame :=
        { box.frame with height := Scalar.max box.frame.height run.height } }
  | [] => .unset

def layoutItem (parent : Styled α) (isRow : Bool) (child : Child α) (placement : Placement α) :
    Polling (Box α) :=
  if child.node.isText then return textItem parent child.node isRow placement
  else child.layout placement

structure FlexPass (α : Type) where
  cursor : α
  placed : List (FlexSet α)

/-- The next item set in its natural cross size. -/
def placeItem (parent : Styled α) (rules : FlexRules α) (interior : Interior α) (spacing : α)
    (pass : FlexPass α) (item : FlexItem α) : Polling (FlexPass α) := do
  let placement := flexPlacement rules interior pass.cursor item
  let cursor := pass.cursor + (item.main + mainMargin rules.isRow item.margin + spacing)
  let box ← layoutItem parent rules.isRow item.child placement
  return ⟨cursor, ⟨item.child, item.margin, box⟩ :: pass.placed⟩

def crossSize (isRow : Bool) (box : Box α) : α :=
  if isRow then box.frame.height else box.frame.width

def crossExtent (isRow : Bool) (items : List (FlexSet α)) : α :=
  items.foldl
    (fun extent item =>
      Scalar.max extent (crossSize isRow item.box + crossMargin isRow item.margin))
    0.0

def alignment (rules : FlexRules α) (node : Styled α) : Text :=
  let own := node.valueD "align-self" rules.align
  if own == "auto" || own == "normal" then rules.align else own

/-- An item of a row stretched to the cross size, when that is more than its own. -/
def stretchItem (interior : Interior α) (cross : α) (item : FlexSet α) : Polling (Box α) :=
  let box := item.box
  let target := Scalar.positive (cross - item.margin.vertical)
  if box.frame.height < target then
    item.child.layout
      { x := box.frame.x
        y := box.frame.y
        availableWidth := box.frame.width
        containingWidth := interior.area.width
        containingHeight := interior.height
        forcedWidth := some box.frame.width
        forcedHeight := some target
        positioned := interior.positioned }
  else return box

def alignItem (rules : FlexRules α) (interior : Interior α) (cross : α) (item : FlexSet α) :
    Polling (Box α) :=
  let node := item.child.node
  let align := alignment rules node
  let free := cross - crossMargin rules.isRow item.margin - crossSize rules.isRow item.box
  let shifted (shift : α) : Box α :=
    if shift == 0.0 then item.box
    else if rules.isRow then item.box.moveY shift else item.box.moveX shift
  if align == "stretch" && rules.isRow && !node.isText &&
      (node.fixedHeight? interior.height).isNone then
    stretchItem interior cross item
  else if align == "center" then return shifted (free / 2.0)
  else if align == "flex-end" || align == "end" then return shifted free
  else return item.box

/-- The boxes of items and of absolute children back in the order of the children. -/
def weave : List (Child α) → List (Box α) → List (Box α) → List (Box α)
  | [], _, _ => []
  | child :: rest, items, absolutes =>
      if child.node.isAbsolute then
        match absolutes with
        | box :: more => box :: weave rest items more
        | [] => weave rest items []
      else
        match items with
        | box :: more => box :: weave rest more absolutes
        | [] => weave rest [] absolutes

structure FlexPlan (α : Type) where
  items : List (FlexItem α)
  /-- What the items take of the main axis, with their margins and gaps. -/
  used : α
  /-- Where the first item begins. -/
  offset : α
  /-- The room between items. -/
  spacing : α

/-- The main size of the container is known, so that free room can be told. -/
def isDefinite (isRow : Bool) (interior : Interior α) : Bool :=
  isRow || interior.height.isSome

def flexPlan (rules : FlexRules α) (interior : Interior α) (bases : List (FlexBase α)) :
    FlexPlan α :=
  let isRow := rules.isRow
  let room := mainSize isRow interior
  let definite := isDefinite isRow interior
  let count := bases.length
  let wanted := withGaps rules.gap count
    (Scalar.sum (bases.map fun item => item.base + mainMargin isRow item.margin))
  let items := flexSizes (if definite then room - wanted else 0.0) bases
  let used := withGaps rules.gap count
    (Scalar.sum (items.map fun item => item.main + mainMargin isRow item.margin))
  let leftover := if definite then Scalar.positive (room - used) else 0.0
  let (offset, spacing) := spread rules count leftover
  ⟨items, used, offset, spacing⟩

theorem map_child_flexPlan (rules : FlexRules α) (interior : Interior α)
    (bases : List (FlexBase α)) :
    (flexPlan rules interior bases).items.map (·.child) = bases.map (·.child) :=
  map_child_flexSizes _ bases

/-- The contents of a flex container before any child is set. -/
def unsetContents (children : List (Child α)) : Contents α :=
  ⟨children.map fun _ => .unset, 0.0⟩

def finishFlex (rules : FlexRules α) (interior : Interior α) (used : α)
    (children : List (Child α)) (placed : List (FlexSet α)) : Polling (Contents α) := do
  let isRow := rules.isRow
  let extent := crossExtent isRow placed
  let cross := if isRow then interior.height.getD extent else interior.area.width
  let boxes ← placed.mapM (alignItem rules interior cross)
  let absolutes ← (children.filter (·.node.isAbsolute)).mapM fun child =>
    layoutAbsolute child interior.positioned interior.area.x interior.area.y
  let height :=
    if isRow then extent
    else if isDefinite isRow interior then mainSize isRow interior
    else Scalar.positive used
  return ⟨weave children boxes absolutes, height⟩

/-- The children of a flex container set, with a poll before each item is measured and before each
is placed. -/
def layoutFlex (parent : Styled α) (interior : Interior α) (children : List (Child α)) :
    Polling (Contents α) := do
  let rules := flexRules parent interior
  let measured ←
    stepThrough (addBase parent rules.isRow interior) [] (children.filter (!·.node.isAbsolute))
  if !measured.complete then return unsetContents children
  let plan := flexPlan rules interior measured.state.reverse
  let placing ←
    stepThrough (placeItem parent rules interior plan.spacing) ⟨plan.offset, []⟩ plan.items
  if !placing.complete then return unsetContents children
  finishFlex rules interior plan.used children placing.state.placed.reverse

end SlidePress.Layout
