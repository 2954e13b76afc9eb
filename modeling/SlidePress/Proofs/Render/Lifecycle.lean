import SlidePress.Conversion

/-! The lifecycle of a conversion in any session. The calls on a session are put on record without
disturbing it. A document is loaded first, then waited for, then its layout is read; each step is
taken only if the one before it went well, and in the end the session is closed. The stages of the
run and its one error, if there is any, tell the same story. -/

namespace SlidePress.Render

open Source (Tree)

variable {σ : Type}

inductive Call where
  | load (html : Text) (answer : Except Text Unit)
  | wait (limit : Milliseconds) (settled : Bool)
  | layout (found : Option PageBox)
  | close

namespace Call

def takesDocument : Call → Bool
  | .load _ (.ok _) => true
  | _ => false

/-- The layout did not settle in time. -/
def runsOut : Call → Bool
  | .wait _ false => true
  | _ => false

/-- A layout was read. -/
def findsLayout : Call → Bool
  | .layout (some _) => true
  | _ => false

end Call

/-- The state of a session, and the calls made on it so far. -/
structure Recorded (σ : Type) where
  state : σ
  calls : List Call := []

/-- The session with its calls put on record. -/
def Session.recorded (session : Session σ) : Session (Recorded σ) where
  load html before :=
    let (answer, state) := session.load html before.state
    (answer, ⟨state, before.calls ++ [.load html answer]⟩)
  wait limit before :=
    let (settled, state) := session.wait limit before.state
    (settled, ⟨state, before.calls ++ [.wait limit settled]⟩)
  layout before :=
    let (found, state) := session.layout before.state
    (found, ⟨state, before.calls ++ [.layout found]⟩)
  close before := ⟨session.close before.state, before.calls ++ [.close]⟩

/-- The calls that a session gets: a document is loaded, waited for if it was taken, and read if it
settled; closing comes last. -/
inductive CallOrder (html : Text) (limit : Milliseconds) : List Call → Prop where
  | refused (reason : Text) : CallOrder html limit [.load html (.error reason), .close]
  | unsettled : CallOrder html limit [.load html (.ok ()), .wait limit false, .close]
  | read (found : Option PageBox) :
      CallOrder html limit [.load html (.ok ()), .wait limit true, .layout found, .close]

/-- How an extraction can go: its result, all that happens on the way, and the calls it makes. -/
inductive Course (options : ExtractOptions) (html : Text) :
    Except SetupError Tree → List Happening → List Call → Prop where
  | refused (reason : Text) :
      Course options html (.error (.rejected reason)) [errorReport (.rejected reason)]
        [.load html (.error reason), .close]
  | unsettled :
      Course options html (.error (.notSettled options.timeout))
        [.entered .layout, errorReport (.notSettled options.timeout)]
        [.load html (.ok ()), .wait options.timeout false, .close]
  | noLayout :
      Course options html (.error .noLayout) [.entered .layout, errorReport .noLayout]
        [.load html (.ok ()), .wait options.timeout true, .layout none, .close]
  | noTree (document : PageBox) (error : SetupError)
      (unreadable : extractTree options document = .error error) :
      Course options html (.error error)
        [.entered .layout, .entered .extracting, errorReport error]
        [.load html (.ok ()), .wait options.timeout true, .layout (some document), .close]
  | tree (document : PageBox) (tree : Tree) (readable : extractTree options document = .ok tree) :
      Course options html (.ok tree)
        [.entered .layout, .entered .extracting, successReport tree]
        [.load html (.ok ()), .wait options.timeout true, .layout (some document), .close]

section Extractions

variable (session : Session σ) (options : ExtractOptions) (html : Text) (state : σ)

/-- An extraction goes one of these ways in every session, and recording does not change which. -/
theorem course_extract :
    ∃ result happenings ended calls,
      extract session options html state = ⟨result, happenings, ended⟩ ∧
        extract session.recorded options html ⟨state, []⟩ = ⟨result, happenings, ⟨ended, calls⟩⟩ ∧
        Course options html result happenings calls := by
  rcases taking : session.load html state with ⟨answer, loaded⟩
  cases answer with
  | error reason =>
      refine ⟨_, _, session.close loaded, _, ?_, ?_, .refused reason⟩ <;>
        simp [extract, Session.recorded, taking]
  | ok taken =>
      rcases waiting : session.wait options.timeout loaded with ⟨settled, rested⟩
      cases settled with
      | false =>
          refine ⟨_, _, session.close rested, _, ?_, ?_, .unsettled⟩ <;>
            simp [extract, Session.recorded, taking, waiting]
      | true =>
          rcases reading : session.layout rested with ⟨found, kept⟩
          cases found with
          | none =>
              refine ⟨_, _, session.close kept, _, ?_, ?_, .noLayout⟩ <;>
                simp [extract, Session.recorded, taking, waiting, reading]
          | some document =>
              cases readable : extractTree options document with
              | error error =>
                  refine ⟨_, _, session.close kept, _, ?_, ?_, .noTree document error readable⟩ <;>
                    simp [extract, Session.recorded, taking, waiting, reading, readable]
              | ok tree =>
                  refine ⟨_, _, session.close kept, _, ?_, ?_, .tree document tree readable⟩ <;>
                    simp [extract, Session.recorded, taking, waiting, reading, readable]

end Extractions

/-- Every error gets into a log, whatever its least severity. -/
theorem errors_emit (log : Log) (report : Report) :
    ((log.emit report).withSeverity .error).length =
      (log.withSeverity .error).length + if report.severity = .error then 1 else 0 := by
  unfold Log.emit
  by_cases isError : report.severity = .error
  · have kept : ¬ report.severity.rank < log.least.rank := by
      rw [isError]
      cases log.least <;> decide
    rw [if_neg kept]
    simp [Log.withSeverity, isError]
  · rw [if_neg isError]
    split
    · rfl
    · simp [Log.withSeverity, isError]

end SlidePress.Render

namespace SlidePress

open Render Slide
open Source (Tree)

namespace ConversionRun

def errors (run : ConversionRun) : List Event := run.log.withSeverity .error

/-- A run goes on through some stages and with a number of errors. -/
structure Goes (stages : List Stage) (errors : Nat) (before after : ConversionRun) : Prop where
  trace : after.trace = before.trace ++ stages
  errors : after.errors.length = before.errors.length + errors

def stagesOf : Happening → List Stage
  | .entered stage => [stage]
  | .reported _ => []

def isError : Happening → Bool
  | .entered _ => false
  | .reported report => report.severity == .error

def outcomeStage : Outcome → Stage
  | .slide _ => .complete
  | .rejected _ => .error

namespace Goes

variable {before between after : ConversionRun}

theorem refl (run : ConversionRun) : Goes [] 0 run run :=
  ⟨(List.append_nil _).symm, rfl⟩

theorem trans {first second : List Stage} {some more : Nat} (goes : Goes first some before between)
    (goesOn : Goes second more between after) :
    Goes (first ++ second) (some + more) before after := by
  constructor
  · rw [goesOn.trace, goes.trace, List.append_assoc]
  · rw [goesOn.errors, goes.errors, Nat.add_assoc]

variable (run : ConversionRun)

theorem report (report : Report) :
    Goes [] (if report.severity = .error then 1 else 0) run
      { run with log := run.log.emit report } :=
  ⟨(List.append_nil _).symm, errors_emit run.log report⟩

theorem say {severity : Severity} (harmless : severity ≠ .error) (message path : Text) :
    Goes [] 0 run (run.say severity message path) := by
  have goes := report run ⟨severity, "converter", run.stage.name, message, path⟩
  rw [if_neg harmless] at goes
  exact goes

theorem sayAll {severity : Severity} (harmless : severity ≠ .error)
    (messages : List (Text × Text)) : Goes [] 0 run (run.sayAll severity messages) := by
  induction messages generalizing run with
  | nil => exact refl run
  | cons message rest ih => exact (say run harmless message.1 message.2).trans (ih _)

theorem enter (stage : Stage) (detail : Text) : Goes [stage] 0 run (run.enter stage detail) := by
  have entered : Goes [stage] 0 run { run with stage, trace := run.trace.record stage } :=
    ⟨rfl, rfl⟩
  exact entered.trans (say _ (by decide) _ [])

/-- The step: one happening of an extraction. -/
theorem follow (happening : Happening) :
    Goes (stagesOf happening) (if isError happening then 1 else 0) run (run.follow happening) := by
  cases happening with
  | entered stage => exact enter run stage []
  | reported what =>
      simp only [isError, beq_iff_eq]
      exact report run what

/-- The run: all happenings of an extraction. -/
theorem followAll (happenings : List Happening) :
    Goes (happenings.flatMap stagesOf) (happenings.countP isError) run
      (happenings.foldl ConversionRun.follow run) := by
  induction happenings generalizing run with
  | nil => exact refl run
  | cons happening rest ih =>
      rw [List.countP_cons, Nat.add_comm]
      exact (follow run happening).trans (ih _)

/-- The stages up to the assembly, whatever was dropped and whatever was found on the way. -/
theorem toAssembling (dropped found : List (Text × Text)) :
    Goes [.classifying, .mapping, .validating, .assembling] 0 run
      ((((((run.enter .classifying []).enter .mapping []).sayAll .info dropped).enter .validating
        []).sayAll .warning found).enter .assembling []) := by
  have mapping : Goes [.classifying, .mapping] 0 run
      (((run.enter .classifying []).enter .mapping []).sayAll .info dropped) :=
    ((enter run .classifying []).trans (enter _ .mapping [])).trans (sayAll _ (by decide) dropped)
  have validating := mapping.trans (enter _ .validating [])
  exact (validating.trans (sayAll _ (by decide) found)).trans (enter _ .assembling [])

/-- From a source tree on a run goes through four stages to its end, without an error. -/
theorem runPipeline (options : ConversionOptions) (tree : Tree) :
    Goes
      [.classifying, .mapping, .validating, .assembling,
        outcomeStage (runPipeline options tree run).1]
      0 run (runPipeline options tree run).2 := by
  unfold SlidePress.runPipeline
  dsimp only
  split
  · exact (toAssembling run _ _).trans (enter _ .complete _)
  · exact (toAssembling run _ _).trans (enter _ .error _)

end Goes

end ConversionRun

/-- The outcome of a source tree does not depend on what the run did before. -/
theorem outcome_runPipeline (options : ConversionOptions) (tree : Tree) (run : ConversionRun) :
    (runPipeline options tree run).1 = (convertTree options tree).1 := by
  unfold convertTree runPipeline
  dsimp only
  split <;> rfl

def ConversionOptions.extraction (options : ConversionOptions) : ExtractOptions where
  canvas := options.canvas
  canvasTolerance := options.canvasTolerance
  timeout := options.timeout

section Endings

variable (options : ConversionOptions) (happenings : List Happening)

def extractedRun : ConversionRun :=
  happenings.foldl ConversionRun.follow
    (((ConversionRun.start options).enter .idle []).enter .loading [])

def endedRun : Except SetupError Tree → ConversionRun
  | .error error =>
      (extractedRun options happenings).enter (failureStage (extractedRun options happenings) error)
        (error.kind.name ++ ": " ++ error.message)
  | .ok tree => (runPipeline options tree (extractedRun options happenings)).2

/-- A conversion is its extraction, carried to an outcome if there is a source tree. -/
theorem convertDocument_eq {σ : Type} {session : Session σ} {html : Text} {state ended : σ}
    {result : Except SetupError Tree}
    (extracted : extract session options.extraction html state = ⟨result, happenings, ended⟩) :
    convertDocument session options html state =
      ⟨result.map fun tree => (convertTree options tree).1, endedRun options happenings result,
        ended⟩ := by
  unfold ConversionOptions.extraction at extracted
  simp only [convertDocument, extracted]
  cases result with
  | error error => rfl
  | ok tree =>
      have same := outcome_runPipeline options tree (extractedRun options happenings)
      simp only [Except.map, endedRun, ← same]
      rfl

theorem goes_extractedRun :
    (ConversionRun.start options).Goes
      ([.idle, .loading] ++ happenings.flatMap ConversionRun.stagesOf)
      (happenings.countP ConversionRun.isError) (extractedRun options happenings) := by
  have loading := (ConversionRun.Goes.enter (.start options) .idle []).trans (.enter _ .loading [])
  have extracting := loading.trans (.followAll _ happenings)
  rw [Nat.zero_add] at extracting
  exact extracting

/-- A failed run ends as cancelled when the layout never settled. -/
theorem failureStage_extractedRun (error : SetupError) :
    failureStage (extractedRun options happenings) error =
      if error.kind = .layoutUnavailable ∧
        Stage.extracting ∉ happenings.flatMap ConversionRun.stagesOf then .cancelled
      else .error := by
  have trace := (goes_extractedRun options happenings).trace
  simp [failureStage, Trace.reached, trace, ConversionRun.start]

/-- The stages in which a run ends, given the result of its extraction. -/
def endStages : Except SetupError Tree → List Stage
  | .error error => [failureStage (extractedRun options happenings) error]
  | .ok tree =>
      [.classifying, .mapping, .validating, .assembling,
        ConversionRun.outcomeStage (convertTree options tree).1]

theorem goes_endedRun (result : Except SetupError Tree) :
    (ConversionRun.start options).Goes
      ([.idle, .loading] ++ happenings.flatMap ConversionRun.stagesOf ++
        endStages options happenings result)
      (happenings.countP ConversionRun.isError) (endedRun options happenings result) := by
  have extracting := goes_extractedRun options happenings
  cases result with
  | error error => exact extracting.trans (.enter _ _ _)
  | ok tree =>
      have ending := ConversionRun.Goes.runPipeline (extractedRun options happenings) options tree
      rw [outcome_runPipeline] at ending
      exact extracting.trans ending

end Endings

/-- The lifecycle of a conversion, given the calls it made on its session. -/
structure Lifecycle {σ : Type} (options : ConversionOptions) (html : Text) (calls : List Call)
    (conversion : Conversion σ) : Prop where
  order : CallOrder html options.timeout calls
  /-- There is an outcome when a source tree can be read from the layout; it is that of the tree. -/
  outcome : ∀ outcome, conversion.result = .ok outcome ↔
    ∃ document tree, Call.layout (some document) ∈ calls ∧
      extractTree options.extraction document = .ok tree ∧ (convertTree options tree).1 = outcome
  /-- Each stage is entered once, and the last one tells how the conversion ended. -/
  stages : ∃ last,
    conversion.run.trace =
      [.idle, .loading] ++ (if calls.any Call.takesDocument then [.layout] else []) ++
        (if calls.any Call.findsLayout then [.extracting] else []) ++
        (if conversion.result.isOk then [.classifying, .mapping, .validating, .assembling]
          else []) ++ [last] ∧
      last ∈ [Stage.complete, .cancelled, .error] ∧
      (last = .complete ↔ ∃ deck, conversion.result = .ok (.slide deck)) ∧
      (last = .cancelled ↔ calls.any Call.runsOut)
  /-- Without an outcome its place is left alone, and there is one error. -/
  failure : ∀ place, (conversion.into place).1 = false →
    (conversion.into place).2 = place ∧ conversion.run.errors.length = 1
  success : ∀ place, (conversion.into place).1 = true →
    conversion.result = .ok (conversion.into place).2 ∧ conversion.run.errors.length = 0

namespace Render.Course

variable {options : ExtractOptions} {html : Text} {result : Except SetupError Tree}
  {happenings : List Happening} {calls : List Call}

theorem callOrder (course : Course options html result happenings calls) :
    CallOrder html options.timeout calls := by
  cases course with
  | refused reason => exact .refused reason
  | unsettled => exact .unsettled
  | noLayout => exact .read none
  | noTree document => exact .read (some document)
  | tree document => exact .read (some document)

/-- A source tree comes from the layout that was read. -/
theorem result_eq_ok_iff (course : Course options html result happenings calls) (tree : Tree) :
    result = .ok tree ↔
      ∃ document, Call.layout (some document) ∈ calls ∧
        extractTree options document = .ok tree := by
  cases course with
  | refused reason => simp
  | unsettled => simp
  | noLayout => simp
  | noTree document error unreadable => simp [unreadable]
  | tree document read readable => simp [readable]

theorem map_eq_ok_iff (course : Course options html result happenings calls)
    (convert : Tree → Outcome) (outcome : Outcome) :
    result.map convert = .ok outcome ↔
      ∃ document tree, Call.layout (some document) ∈ calls ∧
        extractTree options document = .ok tree ∧ convert tree = outcome := by
  have converted : result.map convert = .ok outcome ↔
      ∃ tree, result = .ok tree ∧ convert tree = outcome := by
    cases result <;> simp [Except.map]
  rw [converted]
  constructor
  · rintro ⟨tree, read, same⟩
    obtain ⟨document, found, readable⟩ := (course.result_eq_ok_iff tree).1 read
    exact ⟨document, tree, found, readable, same⟩
  · rintro ⟨document, tree, found, readable, same⟩
    exact ⟨tree, (course.result_eq_ok_iff tree).2 ⟨document, found, readable⟩, same⟩

theorem stages_eq (course : Course options html result happenings calls) :
    happenings.flatMap ConversionRun.stagesOf =
      (if calls.any Call.takesDocument then [.layout] else []) ++
        (if calls.any Call.findsLayout then [.extracting] else []) := by
  cases course <;> rfl

/-- A failure is the one error on the way. -/
theorem errors_eq (course : Course options html result happenings calls) :
    happenings.countP ConversionRun.isError = if result.isOk then 0 else 1 := by
  cases course <;> rfl

/-- Of the failures only a layout that never settled counts as cancelled. -/
theorem cancelled_iff (course : Course options html result happenings calls) {error : SetupError}
    (failed : result = .error error) :
    error.kind = .layoutUnavailable ∧ Stage.extracting ∉ happenings.flatMap ConversionRun.stagesOf ↔
      calls.any Call.runsOut := by
  cases course <;> cases failed <;>
    simp [ConversionRun.stagesOf, errorReport, extractorReport, SetupError.kind, Call.runsOut]

theorem not_runsOut (course : Course options html result happenings calls) {tree : Tree}
    (read : result = .ok tree) : calls.any Call.runsOut = false := by
  cases course <;> cases read
  rfl

end Render.Course

/-- Every course of an extraction leads through a lifecycle. -/
theorem Lifecycle.of_course {σ : Type} {options : ConversionOptions} {html : Text}
    {result : Except SetupError Tree} {happenings : List Happening} {calls : List Call}
    (course : Course options.extraction html result happenings calls) (ended : σ) :
    Lifecycle options html calls
      (⟨result.map fun tree => (convertTree options tree).1, endedRun options happenings result,
        ended⟩ : Conversion σ) := by
  have trace := (goes_endedRun options happenings result).trace
  have errors := (goes_endedRun options happenings result).errors
  rw [course.stages_eq] at trace
  rw [course.errors_eq] at errors
  have outcome := course.map_eq_ok_iff fun tree => (convertTree options tree).1
  cases result with
  | error error =>
      have last := failureStage_extractedRun options happenings error
      simp only [course.cancelled_iff rfl] at last
      refine ⟨course.callOrder, outcome,
        ⟨failureStage (extractedRun options happenings) error, ?_, ?_, ?_, ?_⟩,
        fun place _ => ⟨rfl, errors⟩, fun place succeeded => (nomatch succeeded)⟩
      · simpa [Except.map, Except.isOk, Except.toBool, endStages, ConversionRun.start] using trace
      all_goals
        rw [last]
        split <;> simp_all [Except.map]
  | ok tree =>
      have settled := course.not_runsOut rfl
      refine ⟨course.callOrder, outcome,
        ⟨ConversionRun.outcomeStage (convertTree options tree).1, ?_, ?_, ?_, ?_⟩,
        fun place failed => (nomatch failed), fun place _ => ⟨rfl, errors⟩⟩
      · simpa [Except.map, Except.isOk, Except.toBool, endStages, ConversionRun.start] using trace
      all_goals
        cases converted : (convertTree options tree).1 <;>
          simp [ConversionRun.outcomeStage, Except.map, settled, converted]

/-- Recording the calls on a session changes neither its conversions nor its state, and the calls on
record and the conversion are those of a lifecycle. -/
theorem lifecycle_convertDocument {σ : Type} (session : Session σ) (options : ConversionOptions)
    (html : Text) (state : σ) :
    ∃ calls,
      convertDocument session.recorded options html ⟨state, []⟩ =
        { convertDocument session options html state with
          session := ⟨(convertDocument session options html state).session, calls⟩ } ∧
      Lifecycle options html calls (convertDocument session options html state) := by
  obtain ⟨result, happenings, ended, calls, plain, recorded, course⟩ :=
    course_extract session options.extraction html state
  rw [convertDocument_eq options happenings plain, convertDocument_eq options happenings recorded]
  exact ⟨calls, rfl, .of_course course ended⟩

end SlidePress
