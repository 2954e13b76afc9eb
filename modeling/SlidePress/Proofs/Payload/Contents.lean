import SlidePress.Payload.Slide
import SlidePress.Proofs.Payload.Writing

/-! What a payload carries. The contents of an outcome are found again in the value of its payload,
by the names of the members alone: of a slide its primitives and placeholders, of a rejection its
issues, each in order. -/

namespace SlidePress.Payload

open Slide Source

namespace Json

section Access

variable (name : Text) (json : Json)

def get? : Option Json :=
  match json with
  | .object members => members.lookup name
  | _ => none

def has : Bool := (json.get? name).isSome

def textAt? : Option Text :=
  match json.get? name with
  | some (.string text) => some text
  | _ => none

def flagAt? : Option Bool :=
  match json.get? name with
  | some (.boolean value) => some value
  | _ => none

def tokenAt? : Option Text :=
  match json.get? name with
  | some (.number token) => some token
  | _ => none

def natAt? : Option Nat := do
  let token ← json.tokenAt? name
  if token.all Byte.isDigit then
    some (Nat.ofDigitChars 10 (token.map fun byte => Char.ofNat byte.toNat) 0)
  else none

def itemsAt? {α : Type} (read : Json → Option α) : Option (List α) :=
  match json.get? name with
  | some (.array items) => items.mapM read
  | _ => none

end Access

end Json

/-- A run of text: all but its color, of which only the presence counts. -/
structure RunContents where
  text : Text
  bold : Bool
  italic : Bool
  underline : Bool
  colored : Bool
  align : Text
  breakBefore : Bool
  marker : Text

inductive BodyContents where
  | text (family : Text) (runs : List RunContents)
  /-- Whether there is a fill, an outline and a shadow. -/
  | shape (fill outline shadow : Bool)
  | image (source : Text)
  | placeholder

structure PrimitiveContents where
  kind : Text
  id : Text
  z : Nat
  source : NodeRef
  body : BodyContents

structure IssueContents where
  kind : Text
  detail : Text
  nodes : List NodeRef
  overage : Bool

/-- What a payload tells. The frames of placeholders are numbers as they are written. -/
inductive Contents where
  | slide (background : Bool) (primitives : List PrimitiveContents)
      (placeholders : List (Text × Rect Text))
  | rejected (issues : List IssueContents)

section Outcomes

def runContents (run : TextRun) : RunContents where
  text := run.text
  bold := run.bold
  italic := run.italic
  underline := run.underline
  colored := run.color.isSome
  align := run.align.name
  breakBefore := run.breakBefore
  marker := run.marker.name

def bodyContents : Body → BodyContents
  | .text content => .text content.font.family (content.runs.map runContents)
  | .shape style => .shape style.fill.isSome style.outline.isSome style.shadow.isSome
  | .image source _ => .image source
  | .placeholder => .placeholder

def primitiveContents (primitive : Primitive) : PrimitiveContents where
  kind := primitive.kindName
  id := primitive.header.id
  z := primitive.header.zOrder
  source := primitive.header.source
  body := bodyContents primitive.body

def issueContents (issue : Issue) : IssueContents where
  kind := issue.kind.name
  detail := issue.detail
  nodes := issue.nodes
  overage := issue.overage.isSome

def placeholderContents (placeholder : Text × Rect Number) : Text × Rect Text :=
  (placeholder.1, placeholder.2.map writtenNumber)

def contents : Outcome → Contents
  | .slide deck =>
      .slide deck.background.isSome (deck.primitives.map primitiveContents)
        (deck.placeholders.entries.map placeholderContents)
  | .rejected issues => .rejected (issues.map issueContents)

end Outcomes

section Decoding

variable (json : Json)

def decodeRef : Option NodeRef := do
  let order ← json.natAt? "order"
  let tag ← json.textAt? "tag"
  let id ← json.textAt? "id"
  let path ← json.textAt? "path"
  some { order, tag, id, path }

def decodeRun : Option RunContents := do
  let text ← json.textAt? "text"
  let bold ← json.flagAt? "bold"
  let italic ← json.flagAt? "italic"
  let underline ← json.flagAt? "underline"
  let align ← json.textAt? "align"
  let breakBefore ← json.flagAt? "breakBefore"
  let marker ← json.textAt? "marker"
  let colored := json.has "color"
  some { text, bold, italic, underline, colored, align, breakBefore, marker }

/-- The members of a primitive that go with its kind. -/
def decodeBody (kind : Text) : Option BodyContents :=
  if kind = Text.ofString "text" then do
    let font ← json.get? "font"
    let family ← font.textAt? "family"
    let runs ← json.itemsAt? "runs" decodeRun
    some (.text family runs)
  else if kind = Text.ofString "shape" then
    some (.shape (json.has "fill") (json.has "outline") (json.has "shadow"))
  else if kind = Text.ofString "image" then (json.textAt? "src").map .image
  else if kind = Text.ofString "placeholder" then some .placeholder
  else none

def decodePrimitive : Option PrimitiveContents := do
  let kind ← json.textAt? "kind"
  let id ← json.textAt? "id"
  let z ← json.natAt? "z"
  let source ← decodeRef (← json.get? "source")
  let body ← decodeBody json kind
  some { kind, id, z, source, body }

def decodePlaceholder : Option (Text × Rect Text) := do
  let id ← json.textAt? "id"
  let x ← json.tokenAt? "x"
  let y ← json.tokenAt? "y"
  let width ← json.tokenAt? "w"
  let height ← json.tokenAt? "h"
  some (id, { x, y, width, height })

def decodeIssue : Option IssueContents := do
  let kind ← json.textAt? "kind"
  let detail ← json.textAt? "detail"
  let nodes ← json.itemsAt? "nodes" decodeRef
  let overage := json.has "overage"
  some { kind, detail, nodes, overage }

/-- What the value of a payload tells: only a rejection has issues. -/
def decode : Option Contents :=
  if json.has "issues" then (json.itemsAt? "issues" decodeIssue).map .rejected
  else do
    let primitives ← json.itemsAt? "primitives" decodePrimitive
    let placeholders ← json.itemsAt? "placeholders" decodePlaceholder
    some (.slide (json.has "background") primitives placeholders)

end Decoding

section RoundTrip

theorem natAt?_of_get? {name : Text} {json : Json} {number : Nat}
    (found : json.get? name = some (Value.ofNat number).json) : json.natAt? name = some number := by
  have token : json.tokenAt? name = some (Text.ofNat number) := by
    rw [Json.tokenAt?, found]
    rfl
  have digits : (Text.ofNat number).all Byte.isDigit = true :=
    List.all_eq_true.mpr fun _ => Text.isDigit_of_mem_ofNat
  rw [Json.natAt?, token]
  simp only [Option.bind_eq_bind, Option.bind_some, digits, if_true, Text.map_ofNat,
    Nat.ofDigitChars_ten_toDigits]

/-- A list is found again item by item. -/
theorem itemsAt?_of_get? {α β : Type} {name : Text} {json : Json} {items : List α}
    {encode : α → Value} (found : json.get? name = some (Value.array (items.map encode)).json)
    {read : Json → Option β} {view : α → β}
    (each : ∀ item, read (encode item).json = some (view item)) :
    json.itemsAt? name read = some (items.map view) := by
  have array : json.get? name = some (.array ((items.map encode).map Value.json)) := by
    rw [found, Value.json, jsonItems_eq_map]
  rw [Json.itemsAt?, array]
  dsimp only
  clear found array
  induction items with
  | nil => rfl
  | cons item rest ih => 
      rw [List.map_cons, List.map_cons, List.mapM_cons, each, ih]
      rfl

theorem decodeRef_json (ref : NodeRef) : decodeRef (ofRef ref).json = some ref := by
  have order : (ofRef ref).json.natAt? "order" = some ref.order := natAt?_of_get? rfl
  rw [decodeRef, order]
  rfl

theorem decodeRun_json (run : TextRun) : decodeRun (ofRun run).json = some (runContents run) := by
  obtain ⟨text, bold, italic, underline, color, align, breakBefore, marker⟩ := run
  cases color <;> rfl

theorem decodeBody_json (primitive : Primitive) :
    decodeBody (ofPrimitive primitive).json primitive.kindName =
      some (bodyContents primitive.body) := by
  obtain ⟨header, body⟩ := primitive
  cases body with
  | text content =>
      have runs : (ofPrimitive ⟨header, .text content⟩).json.itemsAt? "runs" decodeRun =
          some (content.runs.map runContents) := itemsAt?_of_get? rfl decodeRun_json
      have kind : (Primitive.mk header (.text content)).kindName = Text.ofString "text" := rfl
      rw [decodeBody, if_pos kind, runs]
      rfl
  | shape style =>
      obtain ⟨fill, outline, radius, shadow⟩ := style
      cases fill <;> cases outline <;> cases shadow <;> rfl
  | image source fitted => rfl
  | placeholder => rfl

theorem decodePrimitive_json (primitive : Primitive) :
    decodePrimitive (ofPrimitive primitive).json = some (primitiveContents primitive) := by
  have z : (ofPrimitive primitive).json.natAt? "z" = some primitive.header.zOrder :=
    natAt?_of_get? rfl
  have source : (ofPrimitive primitive).json.get? "source" =
      some (ofRef primitive.header.source).json := rfl
  have kind : (ofPrimitive primitive).json.textAt? "kind" = some primitive.kindName := rfl
  have id : (ofPrimitive primitive).json.textAt? "id" = some primitive.header.id := rfl
  rw [decodePrimitive, kind, id, z, source]
  simp [decodeRef_json, decodeBody_json, primitiveContents]

def ofPlaceholder (placeholder : Text × Rect Number) : Value :=
  .object (("id", .string placeholder.1) :: rectMembers placeholder.2)

theorem decodePlaceholder_json (placeholder : Text × Rect Number) :
    decodePlaceholder (ofPlaceholder placeholder).json = some (placeholderContents placeholder) :=
  rfl

theorem decodeIssue_json (issue : Issue) :
    decodeIssue (ofIssue issue).json = some (issueContents issue) := by
  have nodes : (ofIssue issue).json.itemsAt? "nodes" decodeRef = some (issue.nodes.map id) :=
    itemsAt?_of_get? rfl decodeRef_json
  rw [decodeIssue, nodes, List.map_id]
  obtain ⟨kind, detail, refs, overage⟩ := issue
  cases overage <;> rfl

theorem decode_ofDeck (deck : Deck) :
    decode (ofDeck deck).json = some (contents (.slide deck)) := by
  obtain ⟨drawn, frames, canvas, background⟩ := deck
  -- The background moves the members after it, so it is settled before they are looked up.
  have primitives : (ofDeck ⟨drawn, frames, canvas, background⟩).json.itemsAt? "primitives"
      decodePrimitive = some (drawn.map primitiveContents) := by
    refine itemsAt?_of_get? ?_ decodePrimitive_json
    cases background <;> rfl
  have listed : (ofDeck ⟨drawn, frames, canvas, background⟩).json.get? "placeholders" =
      some (Value.array (frames.entries.map ofPlaceholder)).json := by
    cases background <;> rfl
  have placeholders := itemsAt?_of_get? listed decodePlaceholder_json
  rw [decode, primitives, placeholders]
  cases background <;> rfl

theorem decode_rejected (issues : List Issue) :
    decode (ofOutcome (.rejected issues)).json = some (contents (.rejected issues)) := by
  have found : (ofOutcome (.rejected issues)).json.itemsAt? "issues" decodeIssue =
      some (issues.map issueContents) := itemsAt?_of_get? rfl decodeIssue_json
  rw [decode, found]
  rfl

end RoundTrip

end SlidePress.Payload
