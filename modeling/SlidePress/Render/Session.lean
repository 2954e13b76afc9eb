import SlidePress.Css.Embedded
import SlidePress.Html.Tree
import SlidePress.Layout.Block
import SlidePress.Render.Diagnostic

/-! Rendering sessions: load a document, wait until its layout has settled, read the layout, close.
A session is given by what these steps do to its state, so that a conversion can be run with any
session. The embedded session renders with the layout of this library. -/
namespace SlidePress.Render

abbrev PageBox := Layout.Box Number

/-- A span of time in milliseconds, as a signed word. -/
abbrev Milliseconds := Int64

def Milliseconds.written (span : Milliseconds) : Text := Text.ofInt span.toInt

structure Session (σ : Type) where
  /-- The session may refuse a document, with a reason. -/
  load : Text → σ → Except Text Unit × σ
  /-- Waits for at most some time, and tells whether a layout is there. -/
  wait : Milliseconds → σ → Bool × σ
  /-- The layout, when there is one. -/
  layout : σ → Option PageBox × σ
  close : σ → σ

inductive Phase where
  | empty
  | loading
  | settled
  | failed
  deriving DecidableEq, Repr

/-- An embedded session. A worker renders the document that was taken last; what it publishes and
reports is kept until the session is closed or takes another document. -/
structure Embedded where
  /-- The size that the session renders for. -/
  viewport : Layout.Viewport Number
  phase : Phase := .empty
  published : Option PageBox := none
  /-- The worker is asked to stop. -/
  cancelRequested : Bool := false
  /-- The document of a worker that has not come to its end. -/
  worker : Option Text := none
  /-- The diagnostics of the document that was taken last. -/
  log : Log := {}

namespace Embedded

def layoutReport (component message : Text) : Report :=
  { severity := .warning, component, stage := "layout", message }

def markupReport (warning : Html.Warning) : Report :=
  layoutReport "html" warning.message

def sheetReport (warning : Css.Warning) : Report :=
  layoutReport "css"
    (if warning.subject.isEmpty then warning.message
      else warning.message ++ ": " ++ warning.subject)

/-- What a worker makes of a document: its reports, and its box unless it is stopped. It asks the
check once before it reads the sheets, and the layout asks on. The markup is read in any case. -/
def render (stops : Layout.Check) (viewport : Layout.Viewport Number) (html : Text) :
    List Report × Option PageBox :=
  let (document, markupWarnings) := Html.Document.parse html
  if stops 0 then (markupWarnings.map markupReport, none)
  else
    let (sheet, sheetWarnings) := Css.Stylesheet.parse document.styleText
    (markupWarnings.map markupReport ++ sheetWarnings.map sheetReport,
      Layout.Polled.under? (some fun call => stops (call + 1))
        (Layout.layoutDocument sheet viewport document))

/-- The worker, if there is one, comes to its end: it hands over its reports, and publishes its box
unless the check has stopped it. -/
def finish (stops : Layout.Check) (session : Embedded) : Embedded :=
  match session.worker with
  | none => session
  | some html =>
      let (reports, box?) := render stops session.viewport html
      let ended := { session with worker := none, log := reports.foldl Log.emit session.log }
      match box? with
      | some box => { ended with phase := .settled, published := some box }
      | none => { ended with phase := .failed }

/-- Closing asks the worker to stop, waits for its end, and drops what it may have published. When
the worker comes to see the request, the check tells. -/
def closeSeen (stops : Layout.Check) (session : Embedded) : Embedded :=
  { ({ session with cancelRequested := true }).finish stops with
    phase := .empty, published := none }

def badViewport : Text := "Viewport must have a positive size"

/-- A document taken, unless the session has no size to render for. What went on before is closed,
and a new worker starts. -/
def loadSeen (stops : Layout.Check) (html : Text) (session : Embedded) :
    Except Text Unit × Embedded :=
  if session.viewport.width ≤ 0 ∨ session.viewport.height ≤ 0 then (.error badViewport, session)
  else
    let closed := session.closeSeen stops
    (.ok (),
      { closed with
        phase := .loading
        published := none
        log := closed.log.clear
        cancelRequested := false
        worker := some html })

/-- The check of a worker that sees at once when it is asked to stop. -/
def atOnce : Layout.Check := fun _ => true

def close (session : Embedded) : Embedded := session.closeSeen atOnce

def load (html : Text) (session : Embedded) : Except Text Unit × Embedded :=
  session.loadSeen atOnce html

/-- Waiting lets a document settle: all that the worker asks while it goes on is whether it was
asked to stop. -/
def wait (_ : Milliseconds) (session : Embedded) : Bool × Embedded :=
  if session.phase = .empty then (false, session)
  else
    let ended := session.finish fun _ => session.cancelRequested
    (ended.phase == .settled, ended)

def layout (session : Embedded) : Option PageBox :=
  if session.phase = .settled then session.published else none

end Embedded

/-- The session that renders with the layout of this library, with a worker that sees a request to
stop as the check tells. -/
def embeddedSeen (stops : Layout.Check) : Session Embedded where
  load := Embedded.loadSeen stops
  wait := Embedded.wait
  layout session := (session.layout, session)
  close := Embedded.closeSeen stops

def embedded : Session Embedded := embeddedSeen Embedded.atOnce

/-- A session that plays a fixed part and keeps a list of the calls made on it, latest first. -/
structure Scripted where
  accepts : Bool := true
  settles : Bool := true
  document : Option PageBox := none
  calls : List Text := []

namespace Scripted

def call (session : Scripted) (name : Text) : Scripted :=
  { session with calls := name :: session.calls }

def refusal : Text := "renderer crashed"

end Scripted

def scripted : Session Scripted where
  load html session :=
    (if session.accepts then .ok () else .error Scripted.refusal, session.call ("load " ++ html))
  wait limit session := (session.settles, session.call ("wait " ++ Milliseconds.written limit))
  layout session := (session.document, session)
  close session := session.call "close"

end SlidePress.Render
