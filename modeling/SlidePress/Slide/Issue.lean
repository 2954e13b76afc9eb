import SlidePress.Number.Written
import SlidePress.Slide.Mapping

/-! What stands against a slide. Every rule looks at everything, so that a report is complete; the
issues come rule by rule, and within a rule in document order. -/
namespace SlidePress.Slide

open Source (NodeRef Size Tree)
open Style

inductive IssueKind where
  | dimensionMismatch
  | overflow
  | unsupportedGradient
  | styleOnTextElement
  | duplicatePlaceholderId
  | manualBulletSymbol
  deriving DecidableEq, Repr

namespace IssueKind

def name : IssueKind → Text
  | .dimensionMismatch => "DimensionMismatch"
  | .overflow => "Overflow"
  | .unsupportedGradient => "UnsupportedGradient"
  | .styleOnTextElement => "StyleOnTextElement"
  | .duplicatePlaceholderId => "DuplicatePlaceholderId"
  | .manualBulletSymbol => "ManualBulletSymbol"

def all : List IssueKind :=
  [.dimensionMismatch, .overflow, .unsupportedGradient, .styleOnTextElement,
    .duplicatePlaceholderId, .manualBulletSymbol]

def ofName? (name : Text) : Option IssueKind := all.find? (·.name == name)

end IssueKind

structure Overage where
  left : Number
  top : Number
  right : Number
  bottom : Number

structure Issue where
  kind : IssueKind
  detail : Text
  nodes : List NodeRef
  overage : Option Overage := none

structure ValidationOptions where
  canvas : Size
  canvasTolerance : Number := 7.2
  overflowTolerance : Number := 0.72
  excerptLimit : Nat := 50

def writtenPoints (points : Number) : Text :=
  Number.fixed 2 points ++ "pt"

def writtenSize (size : Size) : Text :=
  writtenPoints size.width ++ " x " ++ writtenPoints size.height

/-- Two sizes agree in each direction up to a tolerance. -/
def sizesAgree (tolerance : Number) (first second : Size) : Bool :=
  decide ((first.width - second.width).abs ≤ tolerance) &&
    decide ((first.height - second.height).abs ≤ tolerance)

/-- The page declares another size than the slide has. -/
def dimensionIssues (options : ValidationOptions) (tree : Tree) : List Issue :=
  if sizesAgree options.canvasTolerance tree.declared options.canvas then []
  else
    [{ kind := .dimensionMismatch
       detail :=
         "Document declares " ++ writtenSize tree.declared ++ ", expected " ++
           writtenSize options.canvas
       nodes := tree.root.toList.map (·.ref) }]

def issueKindOf : FindingKind → IssueKind
  | .styleOnText => .styleOnTextElement
  | .gradient => .unsupportedGradient

def findingIssues (findings : List Finding) (kind : FindingKind) : List Issue :=
  (findings.filter (·.kind == kind)).map fun finding =>
    { kind := issueKindOf kind, detail := finding.detail, nodes := [finding.node] }

/-- How far a frame reaches past the slide. A side within the tolerance counts as inside. -/
def overageOf (options : ValidationOptions) (frame : Rect Number) : Overage :=
  let beyond (distance : Number) : Number :=
    let distance := Number.max 0 distance
    if options.overflowTolerance < distance then roundOutput distance else 0
  { left := beyond (-frame.x)
    top := beyond (-frame.y)
    right := beyond (frame.right - options.canvas.width)
    bottom := beyond (frame.bottom - options.canvas.height) }

namespace Overage

def sides (overage : Overage) : List (Text × Number) :=
  [("left", overage.left), ("top", overage.top), ("right", overage.right),
    ("bottom", overage.bottom)]

def isNone (overage : Overage) : Bool :=
  overage.sides.all (·.2 == 0)

def written (overage : Overage) : Text :=
  Text.join ", " ((overage.sides.filter fun side => decide (0 < side.2)).map fun (name, amount) =>
    name ++ " by " ++ writtenPoints amount)

end Overage

def overflowIssue? (options : ValidationOptions) (primitive : Primitive) : Option Issue :=
  let overage := overageOf options primitive.header.frame
  if overage.isNone then none
  else
    some
      { kind := .overflow
        detail :=
          primitive.kindName ++ " " ++ primitive.header.id ++ " extends past the canvas: " ++
            overage.written
        nodes := [primitive.header.source]
        overage := some overage }

/-- Characters that are typed in place of a list. -/
def bulletSymbols : List Text := ["•", "●", "○"]

def startsWithBullet (text : Text) : Bool :=
  bulletSymbols.any fun symbol => (symbol ++ " ").isPrefixOf text

def paragraphs : List TextRun → List Text
  | [] => []
  | first :: rest =>
      match rest, paragraphs rest with
      | next :: _, paragraph :: others =>
          if next.breakBefore then first.text :: paragraph :: others
          else (first.text ++ paragraph) :: others
      | _, others => first.text :: others

def bulletIssues (options : ValidationOptions) (primitive : Primitive) : List Issue :=
  match primitive.body with
  | .text content =>
      let source := primitive.header.source
      ((paragraphs content.runs).filter startsWithBullet).map fun paragraph =>
        { kind := .manualBulletSymbol
          detail :=
            "<" ++ source.tag ++ "> starts with a typed bullet; use <ul> or <ol>: \"" ++
              Utf8.excerpt options.excerptLimit paragraph ++ "\""
          nodes := [source] }
  | _ => []

def isPlaceholderPrimitive (primitive : Primitive) : Bool :=
  match primitive.body with
  | .placeholder => true
  | _ => false

/-- Each text once, in the order of first appearance. -/
def distinct : List Text → List Text
  | [] => []
  | first :: rest => first :: (distinct rest).filter (· != first)

def duplicateIssues (primitives : List Primitive) : List Issue :=
  let headers := (primitives.filter isPlaceholderPrimitive).map (·.header)
  (distinct (headers.map (·.id))).filterMap fun id =>
    let users := (headers.filter (·.id == id)).map (·.source)
    if users.length < 2 then none
    else
      some
        { kind := .duplicatePlaceholderId
          detail :=
            "Placeholder id \"" ++ id ++ "\" is used by " ++ Text.ofNat users.length ++
              " elements"
          nodes := users }

/-- All issues of a slide: size, style on text, gradients, overflow, typed bullets and shared
names. -/
def validate (options : ValidationOptions) (tree : Tree) (primitives : List Primitive)
    (findings : List Finding) : List Issue :=
  dimensionIssues options tree ++ findingIssues findings .styleOnText ++
    findingIssues findings .gradient ++ primitives.filterMap (overflowIssue? options) ++
    primitives.flatMap (bulletIssues options) ++ duplicateIssues primitives

end SlidePress.Slide
