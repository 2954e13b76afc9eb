import SlidePress.Text.Basic

/-! The stages of a conversion. A trace is the list of stages entered so far. -/
namespace SlidePress.Render

inductive Stage where
  | idle
  | loading
  | layout
  | extracting
  | classifying
  | mapping
  | validating
  | assembling
  | complete
  | error
  | cancelled
  deriving DecidableEq, Repr

namespace Stage

def name : Stage → Text
  | .idle => "idle"
  | .loading => "loading"
  | .layout => "layout"
  | .extracting => "extracting"
  | .classifying => "classifying"
  | .mapping => "mapping"
  | .validating => "validating"
  | .assembling => "assembling"
  | .complete => "complete"
  | .error => "error"
  | .cancelled => "cancelled"

def all : List Stage :=
  [.idle, .loading, .layout, .extracting, .classifying, .mapping, .validating, .assembling,
    .complete, .error, .cancelled]

def ofName? (name : Text) : Option Stage := all.find? (·.name == name)

end Stage

abbrev Trace := List Stage

namespace Trace

def record (trace : Trace) (stage : Stage) : Trace := trace ++ [stage]

def reached (trace : Trace) (stage : Stage) : Bool := List.contains trace stage

end Trace

end SlidePress.Render
