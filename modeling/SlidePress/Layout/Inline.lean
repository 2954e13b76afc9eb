import SlidePress.Layout.Box
import SlidePress.Layout.Measure

/-! Lines of text. A run of inline nodes is flattened into words, blanks and breaks; the items are
set on lines greedily; and every node gets the least rectangle around the items inside it. An item
names its owners, the nodes it stands in, by their number in document order. -/
namespace SlidePress.Layout

variable {α : Type} [Scalar α]

inductive ItemKind where
  | word
  | blank
  | lineBreak
  deriving DecidableEq

/-- A word, a blank or a break of a run. -/
structure Item (α : Type) where
  kind : ItemKind
  width : α
  lineHeight : α
  owners : List Nat

/-- The runs of white space and of other bytes in a text: none for white space, and the number of
bytes for a word. -/
def chunks : Text → List (Option Nat)
  | [] => []
  | byte :: rest =>
      match Byte.isSpace byte, chunks rest with
      | true, none :: more => none :: more
      | true, more => none :: more
      | false, some size :: more => some (size + 1) :: more
      | false, more => some 1 :: more

/-- A run while it is flattened: the number of the next node, and the items so far, latest
first. -/
structure Flattening (α : Type) where
  next : Nat
  items : List (Item α)

namespace Flattening

/-- The flattening with an item added; a blank after a blank counts for nothing. -/
def push (run : Flattening α) (item : Item α) : Flattening α :=
  if item.kind == .blank && run.items.head?.any (·.kind == .blank) then run
  else { run with items := item :: run.items }

def chunkItem (byteWidth lineHeight : α) (owners : List Nat) : Option Nat → Item α
  | none => ⟨.blank, byteWidth, lineHeight, owners⟩
  | some size => ⟨.word, byteWidth * Scalar.ofNat size, lineHeight, owners⟩

mutual

/-- A node added to a run, inside the given owners. A break has no content. -/
def add (owners : List Nat) : Styled α → Flattening α → Flattening α
  | .text content style fontSize, run =>
      let node := Styled.text content style fontSize
      let own := owners ++ [run.next]
      ((chunks node.shownText).map
        (chunkItem node.byteWidth (Layout.lineHeight style fontSize) own)).foldl push
        { run with next := run.next + 1 }
  | .element head style fontSize children, run =>
      let own := owners ++ [run.next]
      let inside := { run with next := run.next + 1 }
      if head.tag == "br" then
        inside.push ⟨.lineBreak, 0.0, Layout.lineHeight style fontSize, own⟩
      else addAll own children inside

def addAll (owners : List Nat) : List (Styled α) → Flattening α → Flattening α
  | [], run => run
  | node :: rest, run => addAll owners rest (add owners node run)

end

end Flattening

def flatten (run : List (Styled α)) : List (Item α) :=
  (Flattening.addAll [] run ⟨0, []⟩).items.reverse

structure Line (α : Type) where
  width : α
  height : α

/-- An item with its line, its place on the line, and the width it takes there. -/
structure Placed (α : Type) where
  item : Item α
  line : Nat
  x : α
  width : α

/-- Lines while they are filled: the lines before the current one, latest first, the current line,
the place where it goes on, and whether it holds a word; and the items placed, latest first. -/
structure Breaking (α : Type) where
  earlier : List (Line α)
  current : Line α
  cursor : α
  hasWord : Bool
  placed : List (Placed α)

namespace Breaking

def start (strut : α) : Breaking α := ⟨[], ⟨0.0, strut⟩, 0.0, false, []⟩

def newLine (strut : α) (state : Breaking α) : Breaking α :=
  { state with
    earlier := state.current :: state.earlier
    current := ⟨0.0, strut⟩
    cursor := 0.0
    hasWord := false }

def place (state : Breaking α) (item : Item α) (width : α) : Breaking α :=
  { state with placed := ⟨item, state.earlier.length, state.cursor, width⟩ :: state.placed }

def raise (state : Breaking α) (item : Item α) : Breaking α :=
  { state with
    current := { state.current with height := Scalar.max state.current.height item.lineHeight } }

def setWord (state : Breaking α) (item : Item α) : Breaking α :=
  let placed := (state.place item item.width).raise item
  let cursor := state.cursor + item.width
  { placed with cursor, hasWord := true, current := { placed.current with width := cursor } }

/-- A blank at the cursor. It takes no room before the first word of a line. -/
def setBlank (state : Breaking α) (item : Item α) : Breaking α :=
  if state.hasWord then
    { state.place item item.width with cursor := state.cursor + item.width }
  else state.place item 0.0

/-- The next item. A word goes to a new line when the current one holds a word and has no room
for another. -/
def add (strut width : α) (state : Breaking α) (item : Item α) : Breaking α :=
  match item.kind with
  | .lineBreak => ((state.place item item.width).raise item).newLine strut
  | .blank => state.setBlank item
  | .word =>
      if state.hasWord && decide (width < state.cursor + item.width) then
        (state.newLine strut).setWord item
      else state.setWord item

def lines (state : Breaking α) : List (Line α) :=
  (state.current :: state.earlier).reverse

end Breaking

/-- The lines of a run in a width, and its items in place. A blank at the end of a line takes no
room. -/
def breakLines (strut width : α) (items : List (Item α)) : List (Line α) × List (Placed α) :=
  let state := items.foldl (Breaking.add strut width) (Breaking.start strut)
  let lines := state.lines
  let placed := state.placed.reverse.map fun placed =>
    let trails := (lines[placed.line]?).any fun line => decide (line.width ≤ placed.x)
    if placed.item.kind == .blank && trails then { placed with width := 0.0 } else placed
  (lines, placed)

def lineTops (top : α) : List (Line α) → List α
  | [] => []
  | line :: rest => top :: lineTops (top + line.height) rest

def lineOffset (align : Text) (width : α) (line : Line α) : α :=
  let free := Scalar.positive (width - line.width)
  if align == "center" then free / 2.0
  else if align == "right" || align == "end" then free
  else 0.0

structure SetLine (α : Type) where
  top : α
  offset : α
  height : α

def setLines (align : Text) (content : Rect α) (lines : List (Line α)) : List (SetLine α) :=
  (lines.zip (lineTops content.y lines)).map fun (line, top) =>
    ⟨top, lineOffset align content.width line, line.height⟩

def itemFrame (content : Rect α) (lines : List (SetLine α)) (placed : Placed α) : Rect α :=
  match lines[placed.line]? with
  | some line => ⟨content.x + line.offset + placed.x, line.top, placed.width, line.height⟩
  | none => content

/-- The least rectangle around the items of an owner; none when it has no items. -/
def ownerFrame? (frames : List (List Nat × Rect α)) (owner : Nat) : Option (Rect α) :=
  frames.foldl
    (fun found (owners, frame) =>
      if owners.contains owner then
        match found with
        | none => some frame
        | some around => some (joinRects around frame)
      else found)
    none

mutual

/-- The box of an inline node with a number, and the number after those inside it. A node without
items is a point at the origin of the run. -/
def inlineBox (content : Rect α) (frames : List (List Nat × Rect α)) :
    Styled α → Nat → Box α × Nat
  | .text text style fontSize, number =>
      let frame := (ownerFrame? frames number).getD ⟨content.x, content.y, 0.0, 0.0⟩
      (⟨frame, Html.textTag, (Styled.text text style fontSize).shownText, ∅, style, []⟩, number + 1)
  | .element head style _ children, number =>
      let frame := (ownerFrame? frames number).getD ⟨content.x, content.y, 0.0, 0.0⟩
      let (inside, next) := inlineBoxes content frames children (number + 1)
      (⟨frame, head.tag, [], head.attributes, style, inside⟩, next)

def inlineBoxes (content : Rect α) (frames : List (List Nat × Rect α)) :
    List (Styled α) → Nat → List (Box α) × Nat
  | [], number => ([], number)
  | node :: rest, number =>
      let (box, next) := inlineBox content frames node number
      let (boxes, last) := inlineBoxes content frames rest next
      (box :: boxes, last)

end

structure InlineRun (α : Type) where
  boxes : List (Box α)
  height : α

/-- A run of inline nodes set in the content area of a parent. A run without items has no
height. -/
def layoutInline (parent : Styled α) (run : List (Styled α)) (content : Rect α) : InlineRun α :=
  let items := flatten run
  let strut := lineHeight parent.style parent.fontSize
  let (lines, placed) := breakLines strut content.width items
  let settled := setLines (parent.value "text-align") content lines
  let frames := placed.map fun placed =>
    (placed.item.owners, itemFrame content settled placed)
  { boxes := (inlineBoxes content frames run 0).1
    height := if items.isEmpty then 0.0 else Scalar.sum (lines.map (·.height)) }

end SlidePress.Layout
