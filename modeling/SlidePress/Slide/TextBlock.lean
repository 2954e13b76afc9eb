import SlidePress.Slide.Primitive

/-! The runs of a text block. The texts inside a block are collected as segments, each with its
format and with what begins at it; white space is then collapsed across segments, and segments of
one format are joined to runs. -/
namespace SlidePress.Slide

open Source (Node Kind)
open Style

structure RunFormat where
  bold : Bool
  italic : Bool
  underline : Bool
  color : Color

instance : BEq RunFormat :=
  ⟨fun first second => first.bold == second.bold && first.italic == second.italic &&
    first.underline == second.underline && first.color == second.color⟩

/-- The integer that a text begins with after white space and a sign; zero without digits. -/
def leadingInteger (text : Text) : Int :=
  let (negative, rest) := Numeral.readSign (Text.trimLeft text)
  let size : Int := Numeral.digitsValue 10 (rest.takeWhile Byte.isDigit)
  if negative then -size else size

/-- A weight counts as bold by name, or from 600 on. -/
def isBold (weight : Text) : Bool :=
  let weight := Text.lower weight
  weight == "bold" || weight == "bolder" || (!weight.isEmpty && 600 ≤ leadingInteger weight)

def formatOf (style : Snapshot) : RunFormat :=
  let slant := Text.lower (style.get "font-style")
  { bold := isBold (style.get "font-weight")
    italic := slant == "italic" || ("oblique" : Text).isPrefixOf slant
    underline := Text.mentions "underline" (Text.lower (style.get "text-decoration"))
    color := style.textColor }

def alignOf (style : Snapshot) : TextAlign :=
  let align := Text.lower (style.get "text-align")
  if align == "center" then .center
  else if align == "right" || align == "end" then .right
  else if align == "justify" then .justify
  else .left

def markerOf (listTag : Text) : ListMarker :=
  if listTag == "ol" then .number else .bullet

/-- A text of a block with its format, and what begins at it. -/
structure Segment where
  text : Text
  format : RunFormat
  align : TextAlign
  breakBefore : Bool
  marker : ListMarker

/-- Segments while they are collected, latest first, with what waits for the next one. -/
structure Collector where
  align : TextAlign
  segments : List Segment := []
  pendingBreak : Bool := false
  pendingMarker : ListMarker := .none

namespace Collector

def startParagraph (collector : Collector) (marker : ListMarker) (align : TextAlign) : Collector :=
  { collector with
    pendingBreak := !collector.segments.isEmpty, pendingMarker := marker, align := align }

def addText (collector : Collector) (text : Text) (style : Snapshot) : Collector :=
  { collector with
    segments :=
      ⟨text, formatOf style, collector.align, collector.pendingBreak, collector.pendingMarker⟩ ::
        collector.segments
    pendingBreak := false
    pendingMarker := .none }

/-- A line break ends a paragraph that has begun. -/
def addBreak (collector : Collector) : Collector :=
  if collector.segments.isEmpty then collector else { collector with pendingBreak := true }

mutual

def add (marker : ListMarker) : Node → Collector → Collector
  | ⟨tag, _, text, style, _, children, _, _⟩, collector =>
      match Kind.ofTag tag with
      | .text => collector.addText text style
      | .lineBreak => collector.addBreak
      | .listItem => addAll marker children (collector.startParagraph marker (alignOf style))
      | .list => addAll (markerOf tag) children collector
      | _ => addAll marker children collector

def addAll (marker : ListMarker) : List Node → Collector → Collector
  | [], collector => collector
  | node :: rest, collector => addAll marker rest (add marker node collector)

end

end Collector

def segmentsOf (block : Node) : List Segment :=
  let align := alignOf block.style
  let start : Collector := { align }
  let collected :=
    match block.kind with
    | .list => start.addAll (markerOf block.tag) block.children
    | .listItem => (start.startParagraph .bullet align).addAll .bullet block.children
    | _ => start.addAll .none block.children
  collected.segments.reverse

/-- Segments latest first without the blanks at the end of the last paragraph; segments that have
nothing else go with them. -/
def trimEnd : List Segment → List Segment
  | [] => []
  | last :: earlier =>
      let text := (last.text.reverse.dropWhile (· == ' '.toUInt8)).reverse
      if text.isEmpty then trimEnd earlier else { last with text } :: earlier

/-- A text with each run of white space as one blank, or as none after a blank. -/
def collapse (afterBlank : Bool) : Text → Text
  | [] => []
  | byte :: rest =>
      if Byte.isSpace byte then
        if afterBlank then collapse true rest else ' '.toUInt8 :: collapse true rest
      else byte :: collapse false rest

/-- Segments while white space is collapsed: those done, latest first, whether a paragraph begins,
and what is carried over from segments that were blank. -/
structure Collapsing where
  done : List Segment := []
  paragraphStart : Bool := true
  carriedBreak : Bool := false
  carriedMarker : ListMarker := .none

namespace Collapsing

def endsBlank (done : List Segment) : Bool :=
  match done with
  | last :: _ => last.text.getLast? == some ' '.toUInt8
  | [] => false

def add (state : Collapsing) (segment : Segment) : Collapsing :=
  let done := if segment.breakBefore then trimEnd state.done else state.done
  let paragraphStart := segment.breakBefore || state.paragraphStart
  let text := collapse (paragraphStart || endsBlank done) segment.text
  if text.isEmpty then
    { done
      paragraphStart
      carriedBreak := state.carriedBreak || (segment.breakBefore && !done.isEmpty)
      carriedMarker := if segment.marker == .none then state.carriedMarker else segment.marker }
  else
    let marker :=
      if segment.marker == .none && paragraphStart then state.carriedMarker else segment.marker
    let breakBefore := (segment.breakBefore || state.carriedBreak) && !done.isEmpty
    { done := { segment with text, marker, breakBefore } :: done
      paragraphStart := false }

end Collapsing

/-- Segments with their white space as a page shows it: single blanks between words, and none at
the ends of a paragraph. -/
def collapseSegments (segments : List Segment) : List Segment :=
  (trimEnd (segments.foldl Collapsing.add {}).done).reverse

def runOf (base : Color) (segment : Segment) : TextRun :=
  { text := segment.text
    bold := segment.format.bold
    italic := segment.format.italic
    underline := segment.format.underline
    color := if segment.format.color != base then some segment.format.color else none
    align := segment.align
    breakBefore := segment.breakBefore
    marker := segment.marker }

def formatOfRun (base : Color) (run : TextRun) : RunFormat :=
  ⟨run.bold, run.italic, run.underline, run.color.getD base⟩

/-- Runs latest first with a segment added. A segment that goes on in the same paragraph and format
joins the last run. -/
def addSegment (base : Color) (runs : List TextRun) (segment : Segment) : List TextRun :=
  match runs with
  | [] => [runOf base segment]
  | last :: earlier =>
      if !segment.breakBefore && segment.marker == .none &&
          formatOfRun base last == segment.format then
        { last with text := last.text ++ segment.text } :: earlier
      else runOf base segment :: runs

def firstFamily (value : Text) : Text :=
  match Text.listing ','.toUInt8 value with
  | first :: _ => Text.unquote first
  | [] => []

def normalSpacing : Number := 1.2

/-- The distance of lines in points for a font size. A plain number counts font sizes. -/
def lineSpacing (style : Snapshot) (fontSize : Number) : Number :=
  let value := Text.lower (style.get "line-height")
  if value.isEmpty || value == "normal" then fontSize * normalSpacing
  else
    match Numeral.read? value with
    | none => fontSize * normalSpacing
    | some (numeral, unit) =>
        if unit.isEmpty || unit == "em" then numeral.toNumber.1 * fontSize
        else
          match Length.parse? value with
          | some length => length.inPoints fontSize
          | none => fontSize * normalSpacing

def defaultFontPoints : Number := 12

def textContent (block : Node) : TextContent :=
  let style := block.style
  let size := style.points "font-size"
  let size := if size ≤ 0 then defaultFontPoints else size
  let base := style.textColor
  { runs := ((collapseSegments (segmentsOf block)).foldl (addSegment base) []).reverse
    font := ⟨firstFamily (style.get "font-family"), size, base, lineSpacing style size⟩
    insets := ⟨style.points "padding-left", style.points "padding-top",
      style.points "padding-right", style.points "padding-bottom"⟩ }

end SlidePress.Slide
