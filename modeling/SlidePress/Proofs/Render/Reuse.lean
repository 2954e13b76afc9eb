import Mathlib.Data.List.Induction
import SlidePress.Proofs.Layout.Cancellation
import SlidePress.Proofs.Render.Lifecycle

/-! Sessions that are used again. An embedded session may be loaded, waited for, read and closed in
any order. Taking a document leaves nothing of what went on before, neither a layout nor a worker, a
request to stop or a report. So a layout is there only while the document that was loaded last has
settled and is not closed, and it is the layout of that document; and a conversion cannot tell a
session that was used from a fresh one. -/

namespace SlidePress.Render

open Layout (Check)

/-- A call on an embedded session. Where it ends a worker, the check tells when the worker comes to
see that it is to stop. -/
inductive Use where
  | load (html : Text) (stops : Check)
  | wait (limit : Milliseconds)
  | layout
  | close (stops : Check)

def Use.ends : Use → Bool
  | .load .. | .close _ => true
  | .wait _ | .layout => false

/-! ## Histories -/

/-- The document was loaded last, and only some calls that end nothing were made since. -/
def LoadedLast (uses : List Use) (html : Text) (since : List Use) : Prop :=
  ∃ before stops, uses = before ++ .load html stops :: since ∧ ∀ use ∈ since, use.ends = false

/-- The document that was loaded last has settled since, and the session was not closed. -/
def Settled (uses : List Use) (html : Text) : Prop :=
  ∃ since, LoadedLast uses html since ∧ ∃ limit, .wait limit ∈ since

theorem LoadedLast.concat {uses since : List Use} {html : Text} (loaded : LoadedLast uses html since)
    {use : Use} (quiet : use.ends = false) :
    LoadedLast (uses ++ [use]) html (since ++ [use]) := by
  obtain ⟨before, stops, rfl, allQuiet⟩ := loaded
  refine ⟨before, stops, by rw [List.append_assoc, List.cons_append], ?_⟩
  intro other member
  rcases List.mem_append.mp member with earlier | last
  · exact allQuiet other earlier
  · rw [List.mem_singleton.mp last]
    exact quiet

theorem Settled.concat {uses : List Use} {html : Text} (settled : Settled uses html) {use : Use}
    (quiet : use.ends = false) : Settled (uses ++ [use]) html := by
  obtain ⟨since, loaded, limit, waited⟩ := settled
  exact ⟨since ++ [use], loaded.concat quiet, limit, List.mem_append_left _ waited⟩

/-- What a history leaves of the documents that were loaded in it. -/
inductive Remains where
  | nothing
  | loading (html : Text)
  | settled (html : Text)

def Remains.next : Remains → Use → Remains
  | _, .load html _ => .loading html
  | _, .close _ => .nothing
  | .loading html, .wait _ => .settled html
  | remains, .wait _ | remains, .layout => remains

def remainsOf (uses : List Use) : Remains := uses.foldl Remains.next .nothing

theorem remainsOf_concat (uses : List Use) (use : Use) :
    remainsOf (uses ++ [use]) = (remainsOf uses).next use := by
  rw [remainsOf, List.foldl_append]
  rfl

/-- What remains of a history says what was loaded last in it. -/
def Remains.Of (uses : List Use) : Remains → Prop
  | .nothing => True
  | .loading html => ∃ since, LoadedLast uses html since
  | .settled html => Settled uses html

theorem Remains.Of.next {uses : List Use} {remains : Remains} (so : remains.Of uses) (use : Use) :
    (remains.next use).Of (uses ++ [use]) := by
  cases use with
  | load html stops => exact ⟨[], uses, stops, rfl, List.forall_mem_nil _⟩
  | close stops => trivial
  | wait limit =>
      cases remains with
      | nothing => trivial
      | loading html =>
          obtain ⟨since, loaded⟩ := so
          exact ⟨_, loaded.concat rfl, limit, List.mem_append_right _ (List.mem_singleton.mpr rfl)⟩
      | settled html => exact so.concat rfl
  | layout =>
      cases remains with
      | nothing => trivial
      | loading html =>
          obtain ⟨since, loaded⟩ := so
          exact ⟨_, loaded.concat rfl⟩
      | settled html => exact so.concat rfl

theorem of_remainsOf (uses : List Use) : (remainsOf uses).Of uses := by
  induction uses using List.reverseRecOn with
  | nil => trivial
  | append_singleton uses use ih =>
      rw [remainsOf_concat]
      exact ih.next use

theorem foldl_next_settled {since : List Use} (quiet : ∀ use ∈ since, use.ends = false)
    (html : Text) : since.foldl Remains.next (.settled html) = .settled html := by
  induction since with
  | nil => rfl
  | cons use rest ih =>
      have later := ih fun other member => quiet other (List.mem_cons_of_mem _ member)
      cases use with
      | load => cases quiet _ List.mem_cons_self
      | close => cases quiet _ List.mem_cons_self
      | wait => exact later
      | layout => exact later

/-- A document that is loading settles when it is waited for. -/
theorem foldl_next_loading {since : List Use} (quiet : ∀ use ∈ since, use.ends = false)
    {limit : Milliseconds} (waited : .wait limit ∈ since) (html : Text) :
    since.foldl Remains.next (.loading html) = .settled html := by
  induction since with
  | nil => cases waited
  | cons use rest ih =>
      have later : ∀ other ∈ rest, other.ends = false :=
        fun other member => quiet other (List.mem_cons_of_mem _ member)
      cases use with
      | load => cases quiet _ List.mem_cons_self
      | close => cases quiet _ List.mem_cons_self
      | wait => exact foldl_next_settled later html
      | layout =>
          rcases List.mem_cons.mp waited with same | inRest
          · cases same
          · exact ih later inRest

theorem remainsOf_eq_settled_iff {uses : List Use} {html : Text} :
    remainsOf uses = .settled html ↔ Settled uses html := by
  constructor
  · intro remains
    have so := of_remainsOf uses
    rw [remains] at so
    exact so
  · rintro ⟨since, ⟨before, stops, rfl, quiet⟩, limit, waited⟩
    rw [remainsOf, List.foldl_append]
    exact foldl_next_loading quiet waited html

/-! ## Sessions -/

def pageBox (viewport : Layout.Viewport Number) (html : Text) : PageBox :=
  let document := (Html.Document.parse html).1
  Layout.layoutFreely (Css.Stylesheet.parse document.styleText).1 viewport document

/-- Nothing of a log but its events tells it from a new one. -/
def Log.Plain (log : Log) : Prop := log.clear = {}

theorem Log.Plain.emitAll {log : Log} (plain : log.Plain) (reports : List Report) :
    (reports.foldl Log.emit log).Plain := by
  induction reports generalizing log with
  | nil => exact plain
  | cons report rest ih =>
      refine ih ?_
      have unobserved : log.observers = [] := congrArg Log.observers plain
      have same : (log.emit report).clear = log.clear := by
        unfold Log.emit
        split
        · rfl
        · simp [Log.clear, unobserved]
      exact same.trans plain

/-- A layout that no check stops is the one that nothing cancels. -/
theorem under?_unstopped (author : Css.Stylesheet) (viewport : Layout.Viewport Number)
    (document : Html.Document) :
    Layout.Polled.under? (some fun _ => false) (Layout.layoutDocument author viewport document) =
      some (Layout.layoutFreely author viewport document) := by
  obtain ⟨polls, box, unchecked, checked⟩ :=
    Layout.atomic_layoutDocument author viewport document
  have freely : Layout.Polled.under? none (Layout.layoutDocument author viewport document) =
      some box := congrArg Prod.fst (unchecked 0)
  rw [Layout.layoutFreely, Layout.Polled.into, freely]
  exact (checked (fun _ => false) 0).1 fun _ _ => rfl

namespace Embedded

variable {viewport : Layout.Viewport Number} {session : Embedded}

theorem render_unstopped (viewport : Layout.Viewport Number) (html : Text) :
    (render (fun _ => false) viewport html).2 = some (pageBox viewport html) :=
  under?_unstopped _ viewport _

def after (session : Embedded) : Use → Embedded
  | .load html stops => (session.loadSeen stops html).2
  | .wait limit => (session.wait limit).2
  | .layout => (embedded.layout session).2
  | .close stops => session.closeSeen stops

def afterAll (session : Embedded) (uses : List Use) : Embedded := uses.foldl after session

/-- The session is as new but for what it is doing and what it has done last. -/
structure Kept (viewport : Layout.Viewport Number) (session : Embedded) : Prop where
  viewport : session.viewport = viewport
  log : session.log.Plain

theorem kept_new (viewport : Layout.Viewport Number) : ({ viewport } : Embedded).Kept viewport :=
  ⟨rfl, rfl⟩

theorem Kept.finish (kept : session.Kept viewport) (stops : Check) :
    (session.finish stops).Kept viewport := by
  unfold Embedded.finish
  split
  · exact kept
  · dsimp only
    split <;> exact ⟨kept.viewport, kept.log.emitAll _⟩

theorem Kept.closeSeen (kept : session.Kept viewport) (stops : Check) :
    (session.closeSeen stops).Kept viewport := by
  have asked : ({ session with cancelRequested := true } : Embedded).Kept viewport :=
    ⟨kept.viewport, kept.log⟩
  have ended := asked.finish stops
  exact ⟨ended.viewport, ended.log⟩

theorem Kept.wait (kept : session.Kept viewport) (limit : Milliseconds) :
    (session.wait limit).2.Kept viewport := by
  unfold Embedded.wait
  split
  · exact kept
  · exact kept.finish fun _ => session.cancelRequested

/-- A session that has just taken a document, whatever it did before. -/
def loaded (viewport : Layout.Viewport Number) (html : Text) : Embedded :=
  { viewport, phase := .loading, worker := some html }

/-- Taking a document leaves nothing of what went on before. -/
theorem Kept.loadSeen (kept : session.Kept viewport)
    (positive : 0 < viewport.width ∧ 0 < viewport.height) (stops : Check) (html : Text) :
    session.loadSeen stops html = (.ok (), loaded viewport html) := by
  have fits : ¬ (session.viewport.width ≤ 0 ∨ session.viewport.height ≤ 0) := by
    rw [kept.viewport]
    rintro (narrow | low)
    · exact Number.not_le_of_lt positive.1 narrow
    · exact Number.not_le_of_lt positive.2 low
  have closed := kept.closeSeen stops
  have plain : (session.closeSeen stops).log.clear = {} := closed.log
  rw [Embedded.loadSeen, if_neg fits, loaded]
  simp only [closed.viewport, plain]

/-- What a session is doing when a history has left something. -/
def Shows (viewport : Layout.Viewport Number) (session : Embedded) : Remains → Prop
  | .nothing => session.phase = .empty ∧ session.worker = none
  | .loading html =>
      session.phase = .loading ∧ session.worker = some html ∧ session.cancelRequested = false
  | .settled html =>
      session.phase = .settled ∧ session.worker = none ∧
        session.published = some (pageBox viewport html)

/-- A session that shows what remains of a history. -/
structure Stands (viewport : Layout.Viewport Number) (remains : Remains) (session : Embedded) :
    Prop where
  kept : session.Kept viewport
  shows : session.Shows viewport remains

theorem worker_finish (session : Embedded) (stops : Check) :
    (session.finish stops).worker = none := by
  unfold finish
  split
  · assumption
  · dsimp only
    split <;> rfl

theorem finish_of_idle (idle : session.worker = none) (stops : Check) :
    session.finish stops = session := by
  simp only [finish, idle]

theorem Stands.wait {remains : Remains} (stands : session.Stands viewport remains)
    (limit : Milliseconds) :
    (session.wait limit).2.Stands viewport (remains.next (.wait limit)) := by
  obtain ⟨kept, shows⟩ := stands
  unfold Embedded.wait
  cases remains with
  | nothing =>
      rw [if_pos shows.1]
      exact ⟨kept, shows⟩
  | loading html =>
      obtain ⟨phase, worker, unasked⟩ := shows
      have busy : session.phase ≠ .empty := by rw [phase]; decide
      rw [if_neg busy]
      dsimp only
      refine ⟨kept.finish _, ?_⟩
      have page := render_unstopped session.viewport html
      simp only [finish, worker, unasked, page, Remains.next, Shows]
      exact ⟨trivial, trivial, by rw [kept.viewport]⟩
  | settled html =>
      have busy : session.phase ≠ .empty := by rw [shows.1]; decide
      rw [if_neg busy]
      dsimp only
      rw [finish_of_idle shows.2.1]
      exact ⟨kept, shows⟩

theorem Stands.closeSeen {remains : Remains} (stands : session.Stands viewport remains)
    (stops : Check) : (session.closeSeen stops).Stands viewport .nothing :=
  ⟨stands.kept.closeSeen stops, rfl, worker_finish _ stops⟩

/-- The step: a call leaves the session as it changes what remains. -/
theorem Stands.after {remains : Remains} (stands : session.Stands viewport remains)
    (positive : 0 < viewport.width ∧ 0 < viewport.height) (use : Use) :
    (session.after use).Stands viewport (remains.next use) := by
  cases use with
  | load html stops =>
      rw [Embedded.after, stands.kept.loadSeen positive]
      exact ⟨⟨rfl, rfl⟩, rfl, rfl, rfl⟩
  | wait limit => exact stands.wait limit
  | layout => cases remains <;> exact stands
  | close stops => exact stands.closeSeen stops

/-- The run: after any history a session shows what remains of it. -/
theorem stands_afterAll (positive : 0 < viewport.width ∧ 0 < viewport.height) (uses : List Use) :
    (afterAll { viewport } uses).Stands viewport (remainsOf uses) := by
  induction uses using List.reverseRecOn with
  | nil => exact ⟨kept_new viewport, rfl, rfl⟩
  | append_singleton uses use ih =>
      rw [remainsOf_concat, afterAll, List.foldl_append]
      exact ih.after positive use

theorem Stands.layout_eq_some_iff {remains : Remains} (stands : session.Stands viewport remains)
    (box : PageBox) :
    session.layout = some box ↔ ∃ html, remains = .settled html ∧ box = pageBox viewport html := by
  have shows := stands.shows
  cases remains with
  | nothing => simp [Embedded.layout, shows.1]
  | loading html => simp [Embedded.layout, shows.1]
  | settled html =>
      simp only [Embedded.layout, shows.1, if_true, shows.2.2, Option.some.injEq,
        Remains.settled.injEq, exists_eq_left', eq_comm]

end Embedded

/-- An extraction learns of the state of its session from the first call only. -/
theorem extract_congr {σ : Type} {session : Session σ} {html : Text} {state other : σ}
    (options : ExtractOptions) (same : session.load html state = session.load html other) :
    extract session options html state = extract session options html other := by
  unfold extract
  rw [same]

namespace Embedded

variable {viewport : Layout.Viewport Number} {session : Embedded}

/-- An extraction leaves a session that can be used again. -/
theorem Kept.extract (kept : session.Kept viewport)
    (positive : 0 < viewport.width ∧ 0 < viewport.height) (stops : Check)
    (options : ExtractOptions) (html : Text) :
    (Render.extract (embeddedSeen stops) options html session).session.Kept viewport := by
  have taken : (embeddedSeen stops).load html session = (.ok (), loaded viewport html) :=
    kept.loadSeen positive stops html
  have fresh : (loaded viewport html).Kept viewport := ⟨rfl, rfl⟩
  rcases waiting : (embeddedSeen stops).wait options.timeout (loaded viewport html) with
    ⟨settled, rested⟩
  have waited : rested.Kept viewport := by
    have waited := fresh.wait options.timeout
    rw [show Embedded.wait options.timeout (loaded viewport html) = _ from waiting] at waited
    exact waited
  have closed : ((embeddedSeen stops).close rested).Kept viewport := waited.closeSeen stops
  unfold Render.extract
  simp only [taken, waiting]
  cases settled with
  | false => exact closed
  | true =>
      dsimp only
      split
      · rename_i read
        obtain ⟨-, rfl⟩ := Prod.mk.inj read
        exact closed
      · rename_i read
        obtain ⟨-, rfl⟩ := Prod.mk.inj read
        split <;> exact closed

/-- A conversion goes the same way in every session that can be used again. -/
theorem Kept.convertDocument_eq {other : Embedded} (kept : session.Kept viewport)
    (keptToo : other.Kept viewport) (positive : 0 < viewport.width ∧ 0 < viewport.height)
    (stops : Check) (options : ConversionOptions) (html : Text) :
    convertDocument (embeddedSeen stops) options html session =
      convertDocument (embeddedSeen stops) options html other := by
  have same : (embeddedSeen stops).load html session = (embeddedSeen stops).load html other :=
    (kept.loadSeen positive stops html).trans (keptToo.loadSeen positive stops html).symm
  unfold convertDocument
  rw [extract_congr _ same]

theorem Kept.convertDocument (kept : session.Kept viewport)
    (positive : 0 < viewport.width ∧ 0 < viewport.height) (stops : Check)
    (options : ConversionOptions) (html : Text) :
    (SlidePress.convertDocument (embeddedSeen stops) options html session).session.Kept
      viewport := by
  rw [SlidePress.convertDocument_eq options _ rfl]
  exact kept.extract positive stops options.extraction html

/-- Documents that are converted one after another do not see each other. -/
theorem Kept.convertAll_eq (kept : session.Kept viewport)
    (positive : 0 < viewport.width ∧ 0 < viewport.height) (stops : Check)
    (jobs : List (ConversionOptions × Text)) :
    convertAll (embeddedSeen stops) jobs session =
      jobs.map fun (options, html) =>
        SlidePress.convertDocument (embeddedSeen stops) options html { viewport } := by
  induction jobs generalizing session with
  | nil => rfl
  | cons job rest ih =>
      rw [convertAll, List.map_cons, ih (kept.convertDocument positive stops job.1 job.2)]
      rw [kept.convertDocument_eq (kept_new viewport) positive stops job.1 job.2]

end Embedded

/-- After any history of calls a session has a layout exactly while the document that was loaded
last has settled and is not closed, and it is the layout of that document. Any documents that are
then converted in the session are converted as in a fresh one: the results are the same, the stages,
the events, and the sessions that are left. -/
theorem layout_and_conversions_afterAll (viewport : Layout.Viewport Number)
    (positive : 0 < viewport.width ∧ 0 < viewport.height) (uses : List Use) :
    (∀ box, (Embedded.afterAll { viewport } uses).layout = some box ↔
      ∃ html, Settled uses html ∧ box = pageBox viewport html) ∧
    ∀ (stops : Check) (jobs : List (ConversionOptions × Text)),
      convertAll (embeddedSeen stops) jobs (Embedded.afterAll { viewport } uses) =
        jobs.map fun (options, html) =>
          convertDocument (embeddedSeen stops) options html { viewport } := by
  have stands := Embedded.stands_afterAll positive uses
  constructor
  · intro box
    rw [stands.layout_eq_some_iff]
    simp only [remainsOf_eq_settled_iff]
  · exact stands.kept.convertAll_eq positive

/-- A document that was loaded over another one, which was still loading, is the one that is read. -/
theorem layout_and_conversions_afterAll_reload :
    (0 < (960 : Number) ∧ 0 < (540 : Number)) ∧
      (Embedded.afterAll { viewport := ⟨960, 540⟩ }
        [.load "<p>first" Embedded.atOnce, .load "<p>second" Embedded.atOnce, .layout,
          .wait 5000]).layout = some (pageBox ⟨960, 540⟩ "<p>second") := by
  have positive : 0 < (960 : Number) ∧ 0 < (540 : Number) := by decide +kernel
  refine ⟨positive, ((layout_and_conversions_afterAll ⟨960, 540⟩ positive _).1 _).mpr ?_⟩
  refine ⟨"<p>second", ⟨[.layout, .wait 5000], ⟨[.load "<p>first" Embedded.atOnce],
    Embedded.atOnce, rfl, ?_⟩, 5000, by simp⟩, rfl⟩
  simp [Use.ends]

end SlidePress.Render
