/-! Cancellation. A computation that can be cancelled polls a check now and then. Once the check has
told it to stop, the computation is cancelled for good: the check is not asked again and every
further poll has the same answer. A cancelled computation winds up with whatever it has so far, so
what it hands over is of no account. -/
namespace SlidePress.Layout

/-- A check, by its answers to one call after another: whether to stop. -/
abbrev Check := Nat → Bool

/-- The check that lets a number of calls pass and stops at every later one. -/
def Check.after (count : Nat) : Check := fun call => count ≤ call

/-- How often the check was called, and whether it has told the computation to stop. -/
structure Polls where
  calls : Nat := 0
  cancelled : Bool := false

/-- Computations that poll. Without a check nothing cancels them. -/
abbrev Polling := ReaderT (Option Check) (StateM Polls)

def poll : Polling Bool := fun check? polls =>
  if polls.cancelled then pure (true, polls)
  else
    match check? with
    | none => pure (false, polls)
    | some check => pure (check polls.calls, ⟨polls.calls + 1, check polls.calls⟩)

/-- What a loop has arrived at, and whether it came to its end. -/
structure Progress (σ : Type) where
  state : σ
  complete : Bool

/-- A loop over a list with a poll before each step. It breaks off where it finds itself
cancelled. -/
def stepThrough {β σ : Type} (step : σ → β → Polling σ) : σ → List β → Polling (Progress σ)
  | state, [] => return ⟨state, true⟩
  | state, item :: rest => do
      if ← poll then return ⟨state, false⟩
      let next ← step state item
      stepThrough step next rest

/-- A computation that hands over its result unless it is cancelled. -/
abbrev Polled (β : Type) := Polling (Option β)

namespace Polled

variable {β : Type}

def under? (check? : Option Check) (computation : Polled β) : Option β :=
  ((computation.run check?).run {}).1

/-- The result when a number of polls are let pass; none when they are not enough. -/
def within? (computation : Polled β) (budget : Nat) : Option β :=
  computation.under? (some (.after budget))

def result? (computation : Polled β) : Option β :=
  computation.under? none

/-- Whether a result is handed over, and what a place for it holds then: the result, or what stood
there before. -/
def into (check? : Option Check) (place : β) (computation : Polled β) : Bool × β :=
  match computation.under? check? with
  | some result => (true, result)
  | none => (false, place)

end Polled

end SlidePress.Layout
