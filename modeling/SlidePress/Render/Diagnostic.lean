import SlidePress.Text.Basic

/-! Diagnostics: events of a run with a severity, and the log that keeps them. A log drops events
below its least severity, stamps the others with the number of the run, and hands each to the
observers it has at that time. -/
namespace SlidePress.Render

inductive Severity where
  | info
  | warning
  | error
  deriving DecidableEq, Repr

namespace Severity

def name : Severity → Text
  | .info => "info"
  | .warning => "warning"
  | .error => "error"

def all : List Severity := [.info, .warning, .error]

def ofName? (name : Text) : Option Severity := all.find? (·.name == name)

def rank : Severity → Nat
  | .info => 0
  | .warning => 1
  | .error => 2

end Severity

/-- What is said about a run; the stage and the path of a node may be empty. -/
structure Report where
  severity : Severity
  component : Text
  stage : Text
  message : Text
  nodePath : Text := []

structure Event where
  report : Report
  runId : Nat

def Event.written (event : Event) : Text :=
  let report := event.report
  List.flatten
    ["[", report.severity.name, "]",
      if report.component.isEmpty then [] else " " ++ report.component,
      if report.stage.isEmpty then [] else "/" ++ report.stage,
      if event.runId == 0 then [] else " (run:" ++ Text.ofNat event.runId ++ ")",
      ": ", report.message,
      if report.nodePath.isEmpty then [] else " @ " ++ report.nodePath]

structure Delivery where
  observer : Text
  event : Event

/-- The events of a run in order, with the observers by name and what reached them. -/
structure Log where
  runId : Nat := 0
  least : Severity := .info
  events : List Event := []
  observers : List Text := []
  deliveries : List Delivery := []

namespace Log

/-- A report taken into the log, if it is severe enough. -/
def emit (log : Log) (report : Report) : Log :=
  if report.severity.rank < log.least.rank then log
  else
    let event : Event := ⟨report, log.runId⟩
    { log with
      events := log.events ++ [event]
      deliveries := log.deliveries ++ log.observers.map (⟨·, event⟩) }

def observe (log : Log) (observer : Text) : Log :=
  { log with observers := log.observers ++ [observer] }

def clear (log : Log) : Log := { log with events := [] }

def withSeverity (log : Log) (severity : Severity) : List Event :=
  log.events.filter (·.report.severity == severity)

def ofComponent (log : Log) (component : Text) : List Event :=
  log.events.filter (·.report.component == component)

def hasErrors (log : Log) : Bool :=
  log.events.any (·.report.severity == .error)

end Log

end SlidePress.Render
