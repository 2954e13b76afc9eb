import SlidePress.Render.Session
import SlidePress.Render.Stage
import SlidePress.Slide.Issue

/-! Reading a source tree back from a rendering session. The session is closed on every way out, so
that it can take the next document. What happens on the way, stages entered and reports made, is
listed in order. -/
namespace SlidePress.Render

open Source (Node Size Tree)

inductive SetupErrorKind where
  | layoutUnavailable
  | sessionFailure
  deriving DecidableEq, Repr

def SetupErrorKind.name : SetupErrorKind → Text
  | .layoutUnavailable => "LayoutUnavailable"
  | .sessionFailure => "SessionFailure"

/-- Why there is no source tree. -/
inductive SetupError where
  /-- The session did not take the document. -/
  | rejected (reason : Text)
  | notSettled (limit : Milliseconds)
  | noLayout
  | noBody
  | wrongCanvas (declared requested : Size)

namespace SetupError

def kind : SetupError → SetupErrorKind
  | .rejected _ | .noLayout | .noBody => .sessionFailure
  | .notSettled _ | .wrongCanvas .. => .layoutUnavailable

def message : SetupError → Text
  | .rejected reason => "Rendering session rejected the document: " ++ reason
  | .notSettled limit => "Layout did not settle within " ++ limit.written ++ " ms"
  | .noLayout => "Rendering session settled without a layout tree"
  | .noBody => "Document has no body element"
  | .wrongCanvas declared requested =>
      "Document canvas " ++ Slide.writtenSize declared ++ " does not match requested " ++
        Slide.writtenSize requested

def stage : SetupError → Stage
  | .rejected _ => .loading
  | .notSettled _ | .noLayout => .layout
  | .noBody | .wrongCanvas .. => .extracting

end SetupError

structure ExtractOptions where
  canvas : Size
  canvasTolerance : Number := 7.2
  /-- How long to wait for a layout. -/
  timeout : Milliseconds := 5000

mutual

/-- The source node of a box, in points from an origin in pixels. -/
def sourceNode (originX originY : Number) : PageBox → Node
  | ⟨frame, tag, text, attributes, style, children⟩ =>
      { tag
        attributes
        text
        style := .ofStyle style
        box :=
          { x := Style.pixelsToPoints (frame.x - originX)
            y := Style.pixelsToPoints (frame.y - originY)
            width := Style.pixelsToPoints frame.width
            height := Style.pixelsToPoints frame.height }
        children := sourceNodes originX originY children }

def sourceNodes (originX originY : Number) : List PageBox → List Node
  | [] => []
  | box :: rest => sourceNode originX originY box :: sourceNodes originX originY rest

end

/-- Two sizes differ in some direction by more than a tolerance. -/
def sizesDiffer (tolerance : Number) (first second : Size) : Bool :=
  decide (tolerance < (first.width - second.width).abs) ||
    decide (tolerance < (first.height - second.height).abs)

/-- The source tree of a laid-out document: its body, if that has the size of the canvas. -/
def extractTree (options : ExtractOptions) (document : PageBox) : Except SetupError Tree :=
  match document.firstWithTag? "body" with
  | none => .error .noBody
  | some body =>
      let declared : Size :=
        ⟨Style.pixelsToPoints body.frame.width, Style.pixelsToPoints body.frame.height⟩
      if sizesDiffer options.canvasTolerance declared options.canvas then
        .error (.wrongCanvas declared options.canvas)
      else
        .ok (Tree.numbered ⟨some (sourceNode body.frame.x body.frame.y body), declared⟩)

inductive Happening where
  | entered (stage : Stage)
  | reported (report : Report)

/-- The end of an extraction: its result, all that happened, and the session as it is left. -/
structure Extraction (σ : Type) where
  result : Except SetupError Tree
  happenings : List Happening
  session : σ

def extractorReport (severity : Severity) (stage : Stage) (message : Text) : Happening :=
  .reported { severity, component := "extractor", stage := stage.name, message }

def errorReport (error : SetupError) : Happening :=
  extractorReport .error error.stage error.message

def successReport (tree : Tree) : Happening :=
  extractorReport .info .extracting
    ("Extracted " ++ Text.ofNat tree.size ++ " nodes, canvas " ++ Slide.writtenSize tree.declared)

def extract {σ : Type} (session : Session σ) (options : ExtractOptions) (html : Text) (state : σ) :
    Extraction σ :=
  let fail (error : SetupError) (before : List Happening) (state : σ) : Extraction σ :=
    ⟨.error error, before ++ [errorReport error], session.close state⟩
  match session.load html state with
  | (.error reason, state) => fail (.rejected reason) [] state
  | (.ok (), state) =>
      match session.wait options.timeout state with
      | (false, state) => fail (.notSettled options.timeout) [.entered .layout] state
      | (true, state) =>
          match session.layout state with
          | (none, state) => fail .noLayout [.entered .layout] state
          | (some document, state) =>
              let before := [Happening.entered .layout, .entered .extracting]
              match extractTree options document with
              | .error error => fail error before state
              | .ok tree =>
                  ⟨.ok tree, before ++ [successReport tree], session.close state⟩

end SlidePress.Render
