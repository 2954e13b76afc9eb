import SlidePress.Proofs.Layout.Polling

/-! Two computations side by side. Where nothing cancels them, what they give is compared step by
step: a relation that each step of two loops keeps holds at their ends, and lists that are gone
through together give results that compare item by item. What is compared is told by a third list
that both of them follow. -/

namespace SlidePress.Layout

variable {ι β γ δ ε σ τ : Type}

inductive Threefold (relates : ι → β → γ → Prop) : List ι → List β → List γ → Prop where
  | nil : Threefold relates [] [] []
  | cons {lead : ι} {first : β} {second : γ} {leads : List ι} {firsts : List β} {seconds : List γ}
      (head : relates lead first second) (tail : Threefold relates leads firsts seconds) :
      Threefold relates (lead :: leads) (first :: firsts) (second :: seconds)

namespace Threefold

variable {relates : ι → β → γ → Prop} {leads : List ι} {firsts : List β} {seconds : List γ}

theorem length_eq (follow : Threefold relates leads firsts seconds) :
    firsts.length = leads.length ∧ seconds.length = leads.length := by
  induction follow with
  | nil => exact ⟨rfl, rfl⟩
  | cons head tail ih =>
      simp only [List.length_cons, ih.1, ih.2, and_self]

theorem weaken {weaker : ι → β → γ → Prop} (follow : Threefold relates leads firsts seconds)
    (imp : ∀ lead first second, relates lead first second → weaker lead first second) :
    Threefold weaker leads firsts seconds := by
  induction follow with
  | nil => exact .nil
  | cons head tail ih => exact .cons (imp _ _ _ head) ih

/-- What holds of all leads and of all items of the first list holds at each place. -/
theorem attach {ofLead : ι → Prop} {ofFirst : β → Prop}
    (follow : Threefold relates leads firsts seconds) (onLeads : ∀ lead ∈ leads, ofLead lead)
    (onFirsts : ∀ first ∈ firsts, ofFirst first) :
    Threefold (fun lead first second => relates lead first second ∧ ofLead lead ∧ ofFirst first)
      leads firsts seconds := by
  induction follow with
  | nil => exact .nil
  | cons head tail ih =>
      obtain ⟨isLead, areLeads⟩ := List.forall_mem_cons.mp onLeads
      obtain ⟨isFirst, areFirsts⟩ := List.forall_mem_cons.mp onFirsts
      exact .cons ⟨head, isLead, isFirst⟩ (ih areLeads areFirsts)

theorem append {more : List ι} {moreFirsts : List β} {moreSeconds : List γ}
    (follow : Threefold relates leads firsts seconds)
    (goOn : Threefold relates more moreFirsts moreSeconds) :
    Threefold relates (leads ++ more) (firsts ++ moreFirsts) (seconds ++ moreSeconds) := by
  induction follow with
  | nil => exact goOn
  | cons head tail ih => exact .cons head ih

/-- What follows two lists one after the other falls in two parts. -/
theorem exists_append {more : List ι} (follow : Threefold relates (leads ++ more) firsts seconds) :
    ∃ before after beforeToo afterToo, firsts = before ++ after ∧ seconds = beforeToo ++ afterToo ∧
      Threefold relates leads before beforeToo ∧ Threefold relates more after afterToo := by
  induction leads generalizing firsts seconds with
  | nil => exact ⟨[], firsts, [], seconds, rfl, rfl, .nil, follow⟩
  | cons lead rest ih =>
      cases follow with
      | cons head tail =>
          obtain ⟨before, after, beforeToo, afterToo, rfl, rfl, begins, ends⟩ := ih tail
          exact ⟨_ :: before, after, _ :: beforeToo, afterToo, rfl, rfl, .cons head begins, ends⟩

/-- What follows two lists is in a relation at each place. -/
theorem exists_getElem? {index : Nat} {lead : ι} (follow : Threefold relates leads firsts seconds)
    (isLead : leads[index]? = some lead) :
    ∃ first second, firsts[index]? = some first ∧ seconds[index]? = some second ∧
      relates lead first second := by
  induction follow generalizing index with
  | nil => cases isLead
  | cons head tail ih =>
      cases index with
      | zero =>
          cases isLead
          exact ⟨_, _, rfl, rfl, head⟩
      | succ index => exact ih isLead

theorem exists_of_mem {first : β} (follow : Threefold relates leads firsts seconds)
    (member : first ∈ firsts) : ∃ lead second, relates lead first second := by
  induction follow with
  | nil => cases member
  | cons head tail ih =>
      rcases List.mem_cons.mp member with rfl | inside
      · exact ⟨_, _, head⟩
      · exact ih inside

theorem concat {lead : ι} {first : β} {second : γ}
    (follow : Threefold relates leads firsts seconds) (last : relates lead first second) :
    Threefold relates (leads ++ [lead]) (firsts ++ [first]) (seconds ++ [second]) :=
  follow.append (.cons last .nil)

theorem map {others : ι → δ → ε → Prop} {change : β → δ} {changeSecond : γ → ε}
    (follow : Threefold relates leads firsts seconds)
    (each : ∀ lead first second, relates lead first second →
      others lead (change first) (changeSecond second)) :
    Threefold others leads (firsts.map change) (seconds.map changeSecond) := by
  induction follow with
  | nil => exact .nil
  | cons head tail ih => exact .cons (each _ _ _ head) ih

/-- What is read off items alike is read off lists alike. -/
theorem map_eq {view : β → δ} {viewSecond : γ → δ}
    (follow : Threefold relates leads firsts seconds)
    (each : ∀ lead first second, relates lead first second → view first = viewSecond second) :
    firsts.map view = seconds.map viewSecond := by
  induction follow with
  | nil => rfl
  | cons head tail ih => rw [List.map_cons, List.map_cons, each _ _ _ head, ih]

end Threefold

namespace Polling

/-- What a computation gives when nothing cancels it. -/
def freely (computation : Polling β) : β :=
  (computation.outcome none {}).1

theorem Yields.freely {computation : Polling β} {result : β} (yields : computation.Yields result) :
    computation.freely = result :=
  congrArg Prod.fst (yields 0)

theorem Yields.unique {computation : Polling β} {first second : β}
    (yields : computation.Yields first) (again : computation.Yields second) : first = second :=
  yields.freely.symm.trans again.freely

theorem Yields.eq_of_pure {value result : β}
    (yields : (Pure.pure value : Polling β).Yields result) : value = result :=
  (yields_pure value).unique yields

/-- Two computations that nothing cancels give values that are in a relation. -/
def Pairs (first : Polling β) (second : Polling γ) (relates : β → γ → Prop) : Prop :=
  ∃ value other, first.Yields value ∧ second.Yields other ∧ relates value other

namespace Pairs

variable {relates : β → γ → Prop} {relates' : δ → ε → Prop}

theorem weaken {first : Polling β} {second : Polling γ} {weaker : β → γ → Prop}
    (pairs : first.Pairs second relates)
    (imp : ∀ value other, relates value other → weaker value other) :
    first.Pairs second weaker := by
  obtain ⟨value, other, yields, yieldsOther, related⟩ := pairs
  exact ⟨value, other, yields, yieldsOther, imp value other related⟩

theorem freely {first : Polling β} {second : Polling γ} (pairs : first.Pairs second relates) :
    relates first.freely second.freely := by
  obtain ⟨value, other, yields, yieldsOther, related⟩ := pairs
  rwa [yields.freely, yieldsOther.freely]

theorem pure {value : β} {other : γ} (related : relates value other) :
    (Pure.pure value : Polling β).Pairs (Pure.pure other : Polling γ) relates :=
  ⟨value, other, fun _ => rfl, fun _ => rfl, related⟩

theorem bind {first : Polling β} {second : Polling γ} {next : β → Polling δ}
    {nextSecond : γ → Polling ε} (begin : first.Pairs second relates)
    (goOn : ∀ value other, relates value other → (next value).Pairs (nextSecond other) relates') :
    (first >>= next).Pairs (second >>= nextSecond) relates' := by
  obtain ⟨value, other, yields, yieldsOther, related⟩ := begin
  obtain ⟨result, another, yieldsNext, yieldsAnother, relatedNext⟩ := goOn value other related
  exact ⟨result, another, yields.bind yieldsNext, yieldsOther.bind yieldsAnother, relatedNext⟩

theorem ite {condition : Prop} [Decidable condition] {first otherwise : Polling β}
    {second otherwiseSecond : Polling γ} (yes : condition → first.Pairs second relates)
    (no : ¬ condition → otherwise.Pairs otherwiseSecond relates) :
    (if condition then first else otherwise).Pairs
      (if condition then second else otherwiseSecond) relates := by
  split
  · exact yes ‹_›
  · exact no ‹_›

/-- Polls that would wind the computations up are passed. -/
theorem unlessCancelled {stopped : β} {stoppedSecond : γ} {first : Polling β} {second : Polling γ}
    (pairs : first.Pairs second relates) :
    Pairs
      (do
        if ← Layout.poll then return stopped
        first)
      (do
        if ← Layout.poll then return stoppedSecond
        second) relates := by
  obtain ⟨value, other, yields, yieldsOther, related⟩ := pairs
  exact ⟨value, other, yields_poll.bind yields, yields_poll.bind yieldsOther, related⟩

/-- Lists that follow the same list give results that follow it. -/
theorem mapM {follows : ι → β → γ → Prop} {gives : ι → δ → ε → Prop} {leads : List ι}
    {firsts : List β} {seconds : List γ} {each : β → Polling δ} {eachSecond : γ → Polling ε}
    (follow : Threefold follows leads firsts seconds)
    (pairs : ∀ lead first second, follows lead first second →
      (each first).Pairs (eachSecond second) (gives lead)) :
    (firsts.mapM each).Pairs (seconds.mapM eachSecond) (Threefold gives leads) := by
  induction follow with
  | nil => exact pure .nil
  | cons head tail ih =>
      rw [List.mapM_cons, List.mapM_cons]
      refine (pairs _ _ _ head).bind fun value other related => ?_
      refine ih.bind fun values others relate => ?_
      exact pure (.cons related relate)

/-- Two loops come to their ends. What relates them after the items so far relates them after all
items. -/
theorem stepThrough (after : List ι → σ → τ → Prop) {follows : ι → β → γ → Prop}
    {step : σ → β → Polling σ} {stepSecond : τ → γ → Polling τ} {leads : List ι}
    {firsts : List β} {seconds : List γ} (follow : Threefold follows leads firsts seconds)
    (steps : ∀ done state other, after done state other → ∀ lead first second,
      follows lead first second →
        (step state first).Pairs (stepSecond other second) (after (done ++ [lead])))
    {done : List ι} {state : σ} {other : τ} (start : after done state other) :
    (Layout.stepThrough step state firsts).Pairs (Layout.stepThrough stepSecond other seconds)
      fun progress another => progress.complete = true ∧ another.complete = true ∧
        after (done ++ leads) progress.state another.state := by
  induction follow generalizing done state other with
  | nil =>
      rw [List.append_nil]
      exact pure ⟨rfl, rfl, start⟩
  | cons head tail ih =>
      rw [Layout.stepThrough, Layout.stepThrough]
      refine unlessCancelled ?_
      refine (steps done state other start _ _ _ head).bind fun next another held => ?_
      rw [List.append_cons]
      exact ih held

end Pairs

end Polling

end SlidePress.Layout
