import SlidePress.Payload.Slide
import SlidePress.Render.Extraction

/-! Conversions. A run goes through its stages in order, keeps a trace of them, and logs what it
does; the result is a slide or all that stands against it. -/
namespace SlidePress

open Render Slide
open Source (Size Tree)

structure ConversionOptions where
  canvas : Size := ⟨720, 405⟩
  /-- How long to wait for a layout. -/
  timeout : Milliseconds := 5000
  canvasTolerance : Number := 7.2
  overflowTolerance : Number := 0.72
  excerptLimit : Nat := 50
  placeholderClass : Text := "placeholder"
  runId : Nat := 0
  leastSeverity : Severity := .info

/-- The state of one conversion: the stages entered, and its log. -/
structure ConversionRun where
  stage : Stage
  trace : Trace
  log : Log

namespace ConversionRun

def start (options : ConversionOptions) : ConversionRun :=
  ⟨.idle, [], { runId := options.runId, least := options.leastSeverity }⟩

def say (run : ConversionRun) (severity : Severity) (message : Text) (nodePath : Text) :
    ConversionRun :=
  let report : Report :=
    { severity, component := "converter", stage := run.stage.name, message, nodePath }
  { run with log := run.log.emit report }

def enter (run : ConversionRun) (stage : Stage) (detail : Text) : ConversionRun :=
  let noted : Text := if detail.isEmpty then [] else List.flatten [" (", detail, ")"]
  ConversionRun.say { run with stage, trace := run.trace.record stage } .info
    (List.flatten ["Stage transition: ", stage.name, noted]) []

def sayAll (run : ConversionRun) (severity : Severity) (messages : List (Text × Text)) :
    ConversionRun :=
  messages.foldl (fun run (message, nodePath) => run.say severity message nodePath) run

/-- What happened during an extraction taken over. -/
def follow (run : ConversionRun) : Happening → ConversionRun
  | .entered stage => run.enter stage []
  | .reported report => { run with log := run.log.emit report }

end ConversionRun

def issuePath (issue : Issue) : Text :=
  match issue.nodes with
  | node :: _ => node.path
  | [] => []

def runPipeline (options : ConversionOptions) (tree : Tree) (run : ConversionRun) :
    Outcome × ConversionRun :=
  let run := run.enter .classifying []
  let roles := classify options.placeholderClass tree
  let run := run.enter .mapping []
  let mapped := mapDocument roles options.excerptLimit tree
  let run := run.sayAll .info (mapped.degradations.map fun what => ("Dropped " ++ what, []))
  let run := run.enter .validating []
  let issues := validate
    { canvas := options.canvas
      canvasTolerance := options.canvasTolerance
      overflowTolerance := options.overflowTolerance
      excerptLimit := options.excerptLimit }
    tree mapped.primitives mapped.findings
  let run := run.sayAll .warning (issues.map fun issue =>
    (issue.kind.name ++ ": " ++ issue.detail, issuePath issue))
  let run := run.enter .assembling []
  match assemble mapped.primitives issues options.canvas mapped.background with
  | .slide deck =>
      (.slide deck,
        run.enter .complete (Text.ofNat mapped.primitives.length ++ " primitives"))
  | .rejected issues =>
      (.rejected issues, run.enter .error (Text.ofNat issues.length ++ " validation issues"))

def convertTree (options : ConversionOptions) (tree : Tree) : Outcome × ConversionRun :=
  runPipeline options tree ((ConversionRun.start options).enter .idle [])

/-- The end of a conversion: its result, the run, and the session as it is left. -/
structure Conversion (σ : Type) where
  result : Except SetupError Outcome
  run : ConversionRun
  session : σ

/-- Whether a conversion has an outcome, and what a place for it holds then: the outcome, or what
stood there before. -/
def Conversion.into {σ : Type} (place : Outcome) (conversion : Conversion σ) : Bool × Outcome :=
  match conversion.result with
  | .ok outcome => (true, outcome)
  | .error _ => (false, place)

/-- The stage in which a run without a source tree ends. It counts as cancelled when the layout
never settled. -/
def failureStage (run : ConversionRun) (error : SetupError) : Stage :=
  if error.kind == .layoutUnavailable && !run.trace.reached .extracting then .cancelled else .error

def convertDocument {σ : Type} (session : Session σ) (options : ConversionOptions) (html : Text)
    (state : σ) : Conversion σ :=
  let run := ((ConversionRun.start options).enter .idle []).enter .loading []
  let extraction := extract session
    { canvas := options.canvas
      canvasTolerance := options.canvasTolerance
      timeout := options.timeout }
    html state
  let run := extraction.happenings.foldl ConversionRun.follow run
  match extraction.result with
  | .error error =>
      ⟨.error error,
        run.enter (failureStage run error) (error.kind.name ++ ": " ++ error.message),
        extraction.session⟩
  | .ok tree =>
      let (outcome, run) := runPipeline options tree run
      ⟨.ok outcome, run, extraction.session⟩

/-- Documents converted one after another in one session, each with options of its own. -/
def convertAll {σ : Type} (session : Session σ) :
    List (ConversionOptions × Text) → σ → List (Conversion σ)
  | [], _ => []
  | (options, html) :: rest, state =>
      let conversion := convertDocument session options html state
      conversion :: convertAll session rest conversion.session

end SlidePress
