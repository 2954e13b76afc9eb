import SlidePress.Payload.Digest
import SlidePress.Payload.Value
import SlidePress.Slide.Assembly

/-! The payload of a conversion: a slide or its issues in the interchange format. Members come in
a fixed order, and numbers have two decimal places. -/
namespace SlidePress.Payload

open Slide Source
open Style (Color)

/-- The room for a number, in bytes. -/
def numberRoom : Nat := 63

/-- A number with two decimal places, cut to its room. Zero has no sign. -/
def writtenNumber (number : Number) : Text :=
  let written := (Number.fixed 2 number).take numberRoom
  if written == "-0.00" then "0.00" else written

def ofNumber (number : Number) : Value := .number (writtenNumber number)

def ofColor (color : Color) : Value :=
  .object [("hex", .string color.hex), ("transparency", .ofInt color.transparency)]

def rectMembers (rect : Rect Number) : List (Text × Value) :=
  [("x", ofNumber rect.x), ("y", ofNumber rect.y), ("w", ofNumber rect.width),
    ("h", ofNumber rect.height)]

def ofRect (rect : Rect Number) : Value := .object (rectMembers rect)

def ofRef (ref : NodeRef) : Value :=
  .object [("order", .ofNat ref.order), ("tag", .string ref.tag), ("id", .string ref.id),
    ("path", .string ref.path)]

def ofRun (run : TextRun) : Value :=
  .record
    [[("text", .string run.text), ("bold", .boolean run.bold), ("italic", .boolean run.italic),
        ("underline", .boolean run.underline)],
      optional "color" ofColor run.color,
      [("align", .string run.align.name), ("breakBefore", .boolean run.breakBefore),
        ("marker", .string run.marker.name)]]

def ofFont (font : Font) : Value :=
  .object [("family", .string font.family), ("size", ofNumber font.size),
    ("color", ofColor font.color), ("lineSpacing", ofNumber font.lineSpacing)]

def ofInsets (insets : Insets) : Value :=
  .object [("l", ofNumber insets.left), ("t", ofNumber insets.top), ("r", ofNumber insets.right),
    ("b", ofNumber insets.bottom)]

def ofOutline (outline : Outline) : Value :=
  .object [("color", ofColor outline.color), ("width", ofNumber outline.width),
    ("dash", .string outline.dash.name),
    ("sides", .object [("t", .boolean outline.top), ("r", .boolean outline.right),
      ("b", .boolean outline.bottom), ("l", .boolean outline.left)])]

def ofShadow (shadow : Shadow) : Value :=
  .object [("color", ofColor shadow.color), ("angle", ofNumber shadow.angle),
    ("distance", ofNumber shadow.distance), ("blur", ofNumber shadow.blur),
    ("opacity", ofNumber shadow.opacity)]

def bodyMembers : Body → List (Text × Value)
  | .text content =>
      [("font", ofFont content.font), ("insets", ofInsets content.insets),
        ("runs", .array (content.runs.map ofRun))]
  | .shape style =>
      List.flatten
        [optional "fill" ofColor style.fill, optional "outline" ofOutline style.outline,
          [("radius", ofNumber style.cornerRadius)], optional "shadow" ofShadow style.shadow]
  | .image source fitted => [("src", .string source), ("fitted", ofRect fitted)]
  | .placeholder => []

def ofPrimitive (primitive : Primitive) : Value :=
  let header := primitive.header
  .record
    [[("kind", .string primitive.kindName), ("id", .string header.id),
        ("frame", ofRect header.frame), ("z", .ofNat header.zOrder),
        ("source", ofRef header.source)],
      bodyMembers primitive.body]

def ofOverage (overage : Overage) : Value :=
  .object (overage.sides.map fun (name, amount) => (name, ofNumber amount))

def ofIssue (issue : Issue) : Value :=
  .record
    [[("kind", .string issue.kind.name), ("detail", .string issue.detail),
        ("nodes", .array (issue.nodes.map ofRef))],
      optional "overage" ofOverage issue.overage]

def ofDeck (deck : Deck) : Value :=
  .record
    [[("canvas", .object [("w", ofNumber deck.canvas.width), ("h", ofNumber deck.canvas.height)])],
      optional "background" ofColor deck.background,
      [("primitives", .array (deck.primitives.map ofPrimitive)),
        ("placeholders", .array (deck.placeholders.entries.map fun (id, frame) =>
          .object (("id", .string id) :: rectMembers frame)))]]

def ofOutcome : Outcome → Value
  | .slide deck => ofDeck deck
  | .rejected issues => .object [("issues", .array (issues.map ofIssue))]

def payload (outcome : Outcome) : Text := (ofOutcome outcome).write

def payloadDigest {σ : Type} (digest : Digest σ) (outcome : Outcome) : Except Text Text :=
  digest.hex (payload outcome)

end SlidePress.Payload
