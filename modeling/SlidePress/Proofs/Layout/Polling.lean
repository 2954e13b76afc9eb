import Mathlib.Data.List.Forall2
import SlidePress.Layout.Poll

/-! How computations that poll are put together. A computation is cancellable when the number of its
polls and its result do not depend on the check: a check that lets all these polls pass changes
nothing, any other leaves the computation cancelled, and a computation that begins cancelled ends
cancelled. A poll at its end keeps back whatever a cancelled computation has left. Where nothing
cancels a computation, what it gives is told step by step. -/

namespace SlidePress.Layout

variable {β γ σ : Type}

/-- What is read off the items of two lists is the same at each place. -/
theorem forall₂_iff_map_eq {δ : Type} {expected : β → δ} {view : γ → δ} {items : List β}
    {results : List γ} :
    List.Forall₂ (fun item result => view result = expected item) items results ↔
      results.map view = items.map expected := by
  have flipped : List.Forall₂ (fun item result => view result = expected item) items results ↔
      List.Forall₂ (· = ·) (results.map view) (items.map expected) := by
    rw [List.forall₂_map_left_iff, List.forall₂_map_right_iff]
    exact ⟨List.Forall₂.flip, List.Forall₂.flip⟩
  rw [flipped, List.forall₂_eq_eq_eq]

namespace Polling

def outcome (computation : Polling β) (check? : Option Check) (polls : Polls) : β × Polls :=
  (computation.run check?).run polls

theorem outcome_bind (first : Polling β) (next : β → Polling γ) (check? : Option Check)
    (polls : Polls) :
    (first >>= next).outcome check? polls =
      (next (first.outcome check? polls).1).outcome check? (first.outcome check? polls).2 := rfl

theorem outcome_poll_cancelled (check? : Option Check) {polls : Polls}
    (cancelled : polls.cancelled = true) : poll.outcome check? polls = (true, polls) := by
  simp only [outcome, poll, ReaderT.run, StateT.run, cancelled, if_true]
  rfl

theorem outcome_poll (check : Check) (calls : Nat) :
    poll.outcome (some check) ⟨calls, false⟩ = (check calls, ⟨calls + 1, check calls⟩) := rfl

end Polling

/-- The check lets pass a number of polls, of which the first is the call with the given number. -/
def Check.Grants (check : Check) (calls polls : Nat) : Prop :=
  ∀ poll < polls, check (calls + poll) = false

namespace Check.Grants

variable {check : Check} {calls : Nat}

theorem zero : check.Grants calls 0 := fun _ below => absurd below (Nat.not_lt_zero _)

theorem one : check.Grants calls 1 ↔ check calls = false := by
  constructor
  · intro grants
    exact grants 0 Nat.one_pos
  · intro passes poll below
    rw [Nat.lt_one_iff.mp below]
    exact passes

theorem add {first second : Nat} :
    check.Grants calls (first + second) ↔
      check.Grants calls first ∧ check.Grants (calls + first) second := by
  constructor
  · intro grants
    refine ⟨fun poll below => grants poll (by omega), fun poll below => ?_⟩
    rw [Nat.add_assoc]
    exact grants (first + poll) (by omega)
  · rintro ⟨before, later⟩ poll below
    by_cases early : poll < first
    · exact before poll early
    · have passes := later (poll - first) (by omega)
      rwa [Nat.add_assoc, Nat.add_sub_cancel' (Nat.le_of_not_lt early)] at passes

theorem after {count polls : Nat} : (Check.after count).Grants 0 polls ↔ polls ≤ count := by
  simp only [Check.Grants, Check.after, decide_eq_false_iff_not, Nat.zero_add, Nat.not_le]
  constructor
  · intro grants
    refine Nat.le_of_not_lt fun more => ?_
    exact Nat.lt_irrefl count (grants count more)
  · intro enough poll below
    exact Nat.lt_of_lt_of_le below enough

end Check.Grants

namespace Polling

def Yields (computation : Polling β) (result : β) : Prop :=
  ∀ calls, computation.outcome none ⟨calls, false⟩ = (result, ⟨calls, false⟩)

theorem Yields.bind {first : Polling β} {next : β → Polling γ} {value : β} {result : γ}
    (begins : first.Yields value) (goesOn : (next value).Yields result) :
    (first >>= next).Yields result := by
  intro calls
  rw [outcome_bind, begins calls, goesOn calls]

theorem yields_pure (value : β) : (Pure.pure value : Polling β).Yields value := fun _ => rfl

/-- What a computation gives that goes on from another one. -/
theorem Yields.of_bind {first : Polling β} {next : β → Polling γ} {value : β} {result : γ}
    (yields : (first >>= next).Yields result) (begins : first.Yields value) :
    (next value).Yields result := by
  intro calls
  rw [← yields calls, outcome_bind, begins calls]

theorem yields_poll : Layout.poll.Yields false := fun _ => rfl

/-- A computation with a fixed number of polls and a fixed result. -/
structure Steady (computation : Polling β) (polls : Nat) (result : β) : Prop where
  unchecked : computation.Yields result
  granted : ∀ (check : Check) calls, check.Grants calls polls →
    computation.outcome (some check) ⟨calls, false⟩ = (result, ⟨calls + polls, false⟩)
  refused : ∀ (check : Check) calls, ¬ check.Grants calls polls →
    (computation.outcome (some check) ⟨calls, false⟩).2.cancelled = true

/-- A steady computation that stays cancelled. What it gives, whether cancelled or not, has a
property: it is what later computations may rely on. -/
structure Cancellable (computation : Polling β) (gives : β → Prop) : Prop where
  always : ∀ check? polls, gives (computation.outcome check? polls).1
  sticky : ∀ check? polls, polls.cancelled = true →
    (computation.outcome check? polls).2.cancelled = true
  steady : ∃ polls result, computation.Steady polls result

namespace Cancellable

variable {gives : β → Prop} {gives' : γ → Prop}

theorem yields {computation : Polling β} (cancellable : computation.Cancellable gives) :
    ∃ result, computation.Yields result := by
  obtain ⟨_, result, steady⟩ := cancellable.steady
  exact ⟨result, steady.unchecked⟩

theorem given {computation : Polling β} (cancellable : computation.Cancellable gives) {polls : Nat}
    {result : β} (steady : computation.Steady polls result) : gives result := by
  have always := cancellable.always none ⟨0, false⟩
  rwa [steady.unchecked] at always

theorem pure {value : β} (holds : gives value) :
    (Pure.pure value : Polling β).Cancellable gives where
  always _ _ := holds
  sticky _ _ cancelled := cancelled
  steady := ⟨0, value, fun _ => rfl, fun _ _ _ => rfl, fun _ _ none => (none .zero).elim⟩

theorem poll : Layout.poll.Cancellable fun _ => True where
  always _ _ := trivial
  sticky check? polls cancelled := by
    rw [outcome_poll_cancelled check? cancelled]
    exact cancelled
  steady := by
    refine ⟨1, false, yields_poll, fun check calls grants => ?_,
      fun check calls refuses => ?_⟩
    · rw [outcome_poll, Check.Grants.one.mp grants]
    · rw [Check.Grants.one, Bool.not_eq_false] at refuses
      rw [outcome_poll, refuses]

/-- Of two computations one after the other, a check lets pass both or cancels one of them; if it is
the first, the second stays cancelled whatever it is given. -/
theorem bind {first : Polling β} {next : β → Polling γ} (begins : first.Cancellable gives)
    (goesOn : ∀ value, gives value → (next value).Cancellable gives') :
    (first >>= next).Cancellable gives' where
  always check? polls := by
    rw [outcome_bind]
    exact (goesOn _ (begins.always _ _)).always _ _
  sticky check? polls cancelled := by
    rw [outcome_bind]
    exact (goesOn _ (begins.always _ _)).sticky _ _ (begins.sticky _ _ cancelled)
  steady := by
    obtain ⟨polls, value, steady⟩ := begins.steady
    obtain ⟨more, result, steadyNext⟩ := (goesOn value (begins.given steady)).steady
    refine ⟨polls + more, result, steady.unchecked.bind steadyNext.unchecked,
      fun check calls grants => ?_, fun check calls refuses => ?_⟩
    · obtain ⟨before, later⟩ := Check.Grants.add.mp grants
      rw [outcome_bind, steady.granted check calls before, steadyNext.granted _ _ later,
        Nat.add_assoc]
    · rw [outcome_bind]
      by_cases before : check.Grants calls polls
      · rw [steady.granted check calls before]
        exact steadyNext.refused _ _ fun later => refuses (Check.Grants.add.mpr ⟨before, later⟩)
      -- The second computation begins cancelled, with a value that the first one gave up on.
      · exact (goesOn _ (begins.always _ _)).sticky _ _ (steady.refused check calls before)

theorem ite {condition : Prop} [Decidable condition] {first second : Polling β}
    (yes : condition → first.Cancellable gives) (no : ¬ condition → second.Cancellable gives) :
    (if condition then first else second).Cancellable gives := by
  split
  · exact yes ‹_›
  · exact no ‹_›

/-- A computation that winds up when a poll finds it cancelled. -/
theorem unlessCancelled {stopped : β} {computation : Polling β} (holds : gives stopped)
    (goesOn : computation.Cancellable gives) :
    Cancellable (do
      if ← Layout.poll then return stopped
      computation) gives :=
  poll.bind fun _ _ => ite (fun _ => pure holds) fun _ => goesOn

theorem mapM {list : List γ} {each : γ → Polling β}
    (all : ∀ item ∈ list, (each item).Cancellable fun _ => True) :
    (list.mapM each).Cancellable fun _ => True := by
  induction list with
  | nil => exact pure trivial
  | cons item rest ih =>
      rw [List.mapM_cons]
      refine (all item List.mem_cons_self).bind fun _ _ => ?_
      refine (ih fun other member => all other (List.mem_cons_of_mem _ member)).bind fun _ _ => ?_
      exact pure trivial

/-- What one step of a loop keeps, all of it keeps, however far it comes. -/
theorem stepThrough {step : σ → γ → Polling σ} {keeps : σ → Prop} {items : List γ}
    (steps : ∀ state, keeps state → ∀ item ∈ items, (step state item).Cancellable keeps)
    {state : σ} (start : keeps state) :
    (Layout.stepThrough step state items).Cancellable fun progress => keeps progress.state := by
  induction items generalizing state with
  | nil => exact pure start
  | cons item rest ih =>
      rw [Layout.stepThrough]
      refine unlessCancelled start ?_
      refine (steps state start item List.mem_cons_self).bind fun next kept => ?_
      exact ih (fun state kept other member =>
        steps state kept other (List.mem_cons_of_mem _ member)) kept

end Cancellable

/-- A computation that hands over one and the same result under every check that lets its polls
pass, and nothing under any other. -/
def Atomic (computation : Polling (Option β)) : Prop :=
  ∃ polls result, computation.Yields (some result) ∧
    ∀ (check : Check) calls,
      (check.Grants calls polls →
        (computation.outcome (some check) ⟨calls, false⟩).1 = some result) ∧
      (¬ check.Grants calls polls → (computation.outcome (some check) ⟨calls, false⟩).1 = none)

namespace Atomic

theorem pure (value : β) : (Pure.pure (some value) : Polling (Option β)).Atomic :=
  ⟨0, value, fun _ => rfl, fun _ _ => ⟨fun _ => rfl, fun refuses => (refuses .zero).elim⟩⟩

/-- A poll after a computation keeps back what it gives when it is cancelled. -/
theorem guard {gives : γ → Prop} {first : Polling γ} {next : γ → Polling (Option β)}
    (begins : first.Cancellable gives) (goesOn : ∀ value, gives value → (next value).Atomic) :
    Atomic (do
      let value ← first
      if ← poll then return none
      next value) := by
  obtain ⟨polls, value, steady⟩ := begins.steady
  obtain ⟨more, result, unchecked, checked⟩ := goesOn value (begins.given steady)
  refine ⟨polls + (1 + more), result, ?_, fun check calls => ?_⟩
  · exact steady.unchecked.bind (yields_poll.bind unchecked)
  · rw [Check.Grants.add, Check.Grants.add, Check.Grants.one, outcome_bind, outcome_bind]
    by_cases before : check.Grants calls polls
    · rw [steady.granted check calls before, outcome_poll]
      cases asked : check (calls + polls) with
      | false =>
          have later := checked check (calls + polls + 1)
          exact ⟨fun ⟨_, _, grants⟩ => later.1 grants,
            fun refuses => later.2 fun grants => refuses ⟨before, rfl, grants⟩⟩
      | true =>
          exact ⟨fun ⟨_, passes, _⟩ => (nomatch passes), fun _ => rfl⟩
    · have cancelled := steady.refused check calls before
      rw [outcome_poll_cancelled _ cancelled]
      exact ⟨fun ⟨passes, _⟩ => (before passes).elim, fun _ => rfl⟩

end Atomic

def Gives (computation : Polling β) (holds : β → Prop) : Prop :=
  ∃ result, computation.Yields result ∧ holds result

namespace Gives

variable {holds : β → Prop} {holds' : γ → Prop}

theorem weaken {computation : Polling β} {weaker : β → Prop} (gives : computation.Gives holds)
    (imp : ∀ value, holds value → weaker value) : computation.Gives weaker := by
  obtain ⟨value, yields, held⟩ := gives
  exact ⟨value, yields, imp value held⟩

theorem pure {value : β} (held : holds value) : (Pure.pure value : Polling β).Gives holds :=
  ⟨value, fun _ => rfl, held⟩

theorem bind {first : Polling β} {next : β → Polling γ} (begins : first.Gives holds)
    (goesOn : ∀ value, holds value → (next value).Gives holds') :
    (first >>= next).Gives holds' := by
  obtain ⟨value, yields, held⟩ := begins
  obtain ⟨result, yieldsNext, heldNext⟩ := goesOn value held
  exact ⟨result, yields.bind yieldsNext, heldNext⟩

theorem ite {condition : Prop} [Decidable condition] {first second : Polling β}
    (yes : condition → first.Gives holds) (no : ¬ condition → second.Gives holds) :
    (if condition then first else second).Gives holds := by
  split
  · exact yes ‹_›
  · exact no ‹_›

/-- A poll that would wind the computation up is passed. -/
theorem unlessCancelled {stopped : β} {computation : Polling β}
    (gives : computation.Gives holds) :
    Gives (do
      if ← Layout.poll then return stopped
      computation) holds := by
  obtain ⟨result, yields, held⟩ := gives
  exact ⟨result, yields_poll.bind yields, held⟩

/-- If each result is in a relation with what its item stands for, then all of them are. -/
theorem mapM_forall₂ {δ : Type} {relates : δ → β → Prop} {each : γ → Polling β} {leads : List δ}
    {list : List γ}
    (all : List.Forall₂ (fun lead item => (each item).Gives (relates lead)) leads list) :
    (list.mapM each).Gives (List.Forall₂ relates leads) := by
  induction all with
  | nil => exact pure .nil
  | cons head _ ih =>
      rw [List.mapM_cons]
      refine head.bind fun first related => ?_
      exact ih.bind fun others areRelated => pure (.cons related areRelated)

/-- If each result looks as its item asks, then all of them do, in order. -/
theorem mapM {δ : Type} {view : β → δ} {expected : γ → δ} {list : List γ}
    {each : γ → Polling β}
    (all : ∀ item ∈ list, (each item).Gives fun result => view result = expected item) :
    (list.mapM each).Gives fun results => results.map view = list.map expected :=
  (mapM_forall₂ (List.forall₂_same.mpr all)).weaken fun _ => forall₂_iff_map_eq.mp

/-- A loop comes to its end. What holds after the items so far holds after all of them. -/
theorem stepThrough {step : σ → γ → Polling σ} {after : List γ → σ → Prop} {items : List γ}
    (steps : ∀ done state, after done state → ∀ item ∈ items,
      (step state item).Gives (after (done ++ [item])))
    {done : List γ} {state : σ} (start : after done state) :
    (Layout.stepThrough step state items).Gives
      fun progress => progress.complete = true ∧ after (done ++ items) progress.state := by
  induction items generalizing done state with
  | nil =>
      rw [List.append_nil]
      exact pure ⟨rfl, start⟩
  | cons item rest ih =>
      rw [Layout.stepThrough]
      refine unlessCancelled ?_
      refine (steps done state start item List.mem_cons_self).bind fun next held => ?_
      rw [List.append_cons]
      exact ih (fun done state held other member =>
        steps done state held other (List.mem_cons_of_mem _ member)) held

end Gives

end Polling

end SlidePress.Layout
