import Mathlib.Data.Prod.Lex
import Mathlib.Data.List.ReduceOption
import SlidePress.Css.Cascade
import SlidePress.Proofs.Table

/-! Which declaration the cascade takes. For every property it is the last of the greatest offers,
by importance first and then by weight, although offers are compared only with what stands when they
come. -/

namespace SlidePress.Css

open Html (Element)

/-! ## The last of the greatest -/

section LastGreatest

variable {β γ : Type} [LinearOrder γ] {rank : β → γ} {list : List β}

/-- No item has a greater rank, and no later one has the same. -/
def LastGreatest (rank : β → γ) (list : List β) (item : β) : Prop :=
  ∃ before after, list = before ++ item :: after ∧
    (∀ other ∈ before, rank other ≤ rank item) ∧ ∀ other ∈ after, rank other < rank item

namespace LastGreatest

variable {item other : β}

theorem mem (greatest : LastGreatest rank list item) : item ∈ list := by
  obtain ⟨before, after, rfl, -, -⟩ := greatest
  exact List.mem_append_right _ List.mem_cons_self

theorem le (greatest : LastGreatest rank list item) (member : other ∈ list) :
    rank other ≤ rank item := by
  obtain ⟨before, after, rfl, earlier, later⟩ := greatest
  rcases List.mem_append.mp member with inBefore | rest
  · exact earlier other inBefore
  · rcases List.mem_cons.mp rest with rfl | inAfter
    · exact le_refl _
    · exact le_of_lt (later other inAfter)

theorem unique (first : LastGreatest rank list item) (second : LastGreatest rank list other) :
    item = other := by
  obtain ⟨before, after, split, earlier, later⟩ := first
  obtain ⟨before', after', split', earlier', later'⟩ := second
  rw [split] at split'
  -- Of items at two places the later one is less than the earlier one, and at least as great.
  rcases List.append_eq_append_iff.mp split' with ⟨between, rfl, rest⟩ | ⟨between, rfl, rest⟩
  · cases between with
    | nil => exact (List.cons.inj rest).1
    | cons head tail =>
        obtain ⟨rfl, rfl⟩ := List.cons.inj rest
        have less := later other (List.mem_append_right _ List.mem_cons_self)
        have notLess := earlier' item (List.mem_append_right _ List.mem_cons_self)
        exact absurd less (not_lt_of_ge notLess)
  · cases between with
    | nil => exact (List.cons.inj rest).1.symm
    | cons head tail =>
        obtain ⟨rfl, rfl⟩ := List.cons.inj rest
        have less := later' item (List.mem_append_right _ List.mem_cons_self)
        have notLess := earlier other (List.mem_append_right _ List.mem_cons_self)
        exact absurd less (not_lt_of_ge notLess)

/-- The last greatest item of two lists stands in the second one, unless all of that is smaller. -/
theorem append_iff {first second : List β} :
    LastGreatest rank (first ++ second) item ↔
      (LastGreatest rank first item ∧ ∀ other ∈ second, rank other < rank item) ∨
        LastGreatest rank second item ∧ ∀ other ∈ first, rank other ≤ rank item := by
  constructor
  · rintro ⟨before, after, split, earlier, later⟩
    rcases List.append_eq_append_iff.mp split with ⟨between, rfl, rest⟩ | ⟨between, rfl, rest⟩
    · right
      obtain ⟨inFirst, inBetween⟩ := List.forall_mem_append.mp earlier
      exact ⟨⟨between, after, rest, inBetween, later⟩, inFirst⟩
    · cases between with
      | nil =>
          rw [List.append_nil]
          exact .inr ⟨⟨[], after, rest.symm, List.forall_mem_nil _, later⟩, earlier⟩
      | cons head tail =>
          obtain ⟨rfl, rfl⟩ := List.cons.inj rest
          obtain ⟨inTail, inSecond⟩ := List.forall_mem_append.mp later
          exact .inl ⟨⟨before, tail, rfl, earlier, inTail⟩, inSecond⟩
  · rintro (⟨⟨before, after, rfl, earlier, later⟩, less⟩ |
      ⟨⟨before, after, rfl, earlier, later⟩, le⟩)
    · exact ⟨before, after ++ second, by rw [List.append_assoc, List.cons_append], earlier,
        List.forall_mem_append.mpr ⟨later, less⟩⟩
    · exact ⟨first ++ before, after, (List.append_assoc ..).symm,
        List.forall_mem_append.mpr ⟨le, earlier⟩, later⟩

/-- Items that are dropped do not matter to one that stays. -/
theorem filter {keep : β → Bool} (greatest : LastGreatest rank list item)
    (kept : keep item = true) : LastGreatest rank (list.filter keep) item := by
  obtain ⟨before, after, rfl, earlier, later⟩ := greatest
  refine ⟨before.filter keep, after.filter keep, ?_, fun other member => ?_, fun other member => ?_⟩
  · rw [List.filter_append, List.filter_cons_of_pos kept]
  · exact earlier other (List.mem_of_mem_filter member)
  · exact later other (List.mem_of_mem_filter member)

theorem singleton (item : β) : LastGreatest rank [item] item :=
  ⟨[], [], rfl, List.forall_mem_nil _, List.forall_mem_nil _⟩

/-- An item at the end displaces the greatest one unless it has a smaller rank. -/
theorem append_ge (greatest : LastGreatest rank list item) (atLeast : rank item ≤ rank other) :
    LastGreatest rank (list ++ [other]) other :=
  append_iff.mpr (.inr ⟨singleton other, fun _ member => le_trans (greatest.le member) atLeast⟩)

theorem append_lt (greatest : LastGreatest rank list item) (less : rank other < rank item) :
    LastGreatest rank (list ++ [other]) item :=
  append_iff.mpr (.inl ⟨greatest, List.forall_mem_singleton.mpr less⟩)

/-- Ranks that compare in the same way have the same last greatest item. -/
theorem congr {δ : Type} [LinearOrder δ] {rank' : β → δ}
    (same : ∀ first ∈ list, ∀ second ∈ list,
      (rank first ≤ rank second ↔ rank' first ≤ rank' second))
    (greatest : LastGreatest rank list item) : LastGreatest rank' list item := by
  have isMember := greatest.mem
  obtain ⟨before, after, split, earlier, later⟩ := greatest
  refine ⟨before, after, split, fun other member => ?_, fun other member => ?_⟩
  · have inList : other ∈ list := split ▸ List.mem_append_left _ member
    exact (same other inList item isMember).mp (earlier other member)
  · have inList : other ∈ list :=
      split ▸ List.mem_append_right _ (List.mem_cons_of_mem _ member)
    have less := later other member
    rw [← not_le] at less ⊢
    exact fun atLeast => less ((same item isMember other inList).mpr atLeast)

section Map

variable {δ : Type} {view : δ → β} {items : List δ}

theorem map {source : δ} (greatest : LastGreatest (fun other => rank (view other)) items source) :
    LastGreatest rank (items.map view) (view source) := by
  obtain ⟨before, after, rfl, earlier, later⟩ := greatest
  exact ⟨before.map view, after.map view, by rw [List.map_append, List.map_cons],
    List.forall_mem_map.mpr earlier, List.forall_mem_map.mpr later⟩

theorem of_map (greatest : LastGreatest rank (items.map view) item) :
    ∃ source, LastGreatest (fun other => rank (view other)) items source ∧ view source = item := by
  obtain ⟨_, _, split, earlier, later⟩ := greatest
  obtain ⟨before, rest, rfl, rfl, tail⟩ := List.map_eq_append_iff.mp split
  obtain ⟨source, after, rfl, rfl, rfl⟩ := List.map_eq_cons_iff.mp tail
  exact ⟨source, ⟨before, after, rfl, List.forall_mem_map.mp earlier,
    List.forall_mem_map.mp later⟩, rfl⟩

end Map

end LastGreatest

end LastGreatest

/-! ## The cascade -/

def Offer.rank (offer : Offer) : Bool ×ₗ Nat := toLex (offer.declaration.important, offer.weight)

def offersFor (property : Text) (offers : List Offer) : List Offer :=
  offers.filter (·.declaration.property == property)

def Offer.winner (offer : Offer) : Winner :=
  ⟨offer.declaration.important, offer.weight, offer.declaration.value⟩

namespace Cascade

theorem displaces_iff (offer standing : Offer) :
    displaces offer standing.winner = true ↔ standing.rank ≤ offer.rank := by
  rw [Offer.rank, Offer.rank, Prod.Lex.toLex_le_toLex, displaces, Offer.winner]
  cases offer.declaration.important <;> cases standing.declaration.important <;> simp

/-- What stands for a property after some offers for it is the last of the greatest. -/
def Takes (offers : List Offer) : Option Winner → Prop
  | none => offers = []
  | some winner => ∃ offer, LastGreatest Offer.rank offers offer ∧ winner = offer.winner

/-- Each property has what it takes of the offers so far. -/
def Stands (done : List Offer) (winners : Table Winner) : Prop :=
  ∀ property, Takes (offersFor property done) (winners.get? property)

theorem Stands.consider {done : List Offer} {winners : Table Winner} (stands : Stands done winners)
    (offer : Offer) : Stands (done ++ [offer]) (consider winners offer) := by
  intro property
  by_cases same : offer.declaration.property = property
  · have extended : offersFor property (done ++ [offer]) = offersFor property done ++ [offer] := by
      rw [offersFor, List.filter_append, List.filter_singleton, beq_iff_eq.mpr same]
      rfl
    have before := stands property
    rw [extended, Cascade.consider, same]
    cases found : winners.get? property with
    | none =>
        rw [found] at before
        rw [before, Option.all_none, if_pos rfl, Table.get?_insert_self]
        exact ⟨offer, .singleton offer, rfl⟩
    | some winner =>
        rw [found] at before
        obtain ⟨standing, greatest, rfl⟩ := before
        rw [Option.all_some]
        by_cases displaced : displaces offer standing.winner = true
        · rw [if_pos displaced, Table.get?_insert_self]
          exact ⟨offer, greatest.append_ge ((displaces_iff offer standing).mp displaced), rfl⟩
        · rw [if_neg displaced, found]
          rw [displaces_iff, not_le] at displaced
          exact ⟨standing, greatest.append_lt displaced, rfl⟩
  · have unchanged : offersFor property (done ++ [offer]) = offersFor property done := by
      rw [offersFor, List.filter_append, List.filter_singleton, beq_false_of_ne same]
      exact List.append_nil _
    have untouched : (Cascade.consider winners offer).get? property = winners.get? property := by
      rw [Cascade.consider]
      split
      · exact Table.get?_insert_of_ne same winners _
      · rfl
    rw [unchanged, untouched]
    exact stands property

theorem Stands.foldl {done : List Offer} {winners : Table Winner} (stands : Stands done winners)
    (offers : List Offer) : Stands (done ++ offers) (offers.foldl Cascade.consider winners) := by
  induction offers generalizing done winners with
  | nil => rwa [List.append_nil]
  | cons offer rest ih =>
      rw [List.append_cons]
      exact ih (stands.consider offer)

theorem stands_offers (offers : List Offer) : Stands offers (offers.foldl consider ∅) := by
  have start : Stands [] ∅ := fun _ => rfl
  exact start.foldl offers

def outcome (offers : List Offer) : Properties := (offers.foldl consider ∅).map (·.value)

theorem get?_outcome_iff (offers : List Offer) (property value : Text) :
    (outcome offers).get? property = some value ↔
      ∃ offer, LastGreatest Offer.rank (offersFor property offers) offer ∧
        offer.declaration.value = value := by
  have takes := stands_offers offers property
  rw [outcome, Table.get?_map]
  cases found : (offers.foldl consider ∅).get? property with
  | none =>
      rw [found] at takes
      constructor
      · intro impossible
        cases impossible
      · rintro ⟨offer, greatest, -⟩
        rw [show offersFor property offers = [] from takes] at greatest
        cases greatest.mem
  | some winner =>
      rw [found] at takes
      obtain ⟨standing, greatest, rfl⟩ := takes
      constructor
      · intro same
        exact ⟨standing, greatest, Option.some.inj same⟩
      · rintro ⟨offer, greatest', rfl⟩
        rw [greatest'.unique greatest]
        rfl

theorem isSome_get?_outcome_iff (offers : List Offer) (property : Text) :
    ((outcome offers).get? property).isSome = true ↔
      ∃ offer ∈ offers, offer.declaration.property = property := by
  have takes := stands_offers offers property
  rw [outcome, Table.get?_map, Option.isSome_map]
  cases found : (offers.foldl consider ∅).get? property with
  | none =>
      rw [found] at takes
      have none : ∀ offer ∈ offers, ¬ (offer.declaration.property == property) = true :=
        List.filter_eq_nil_iff.mp takes
      constructor
      · intro impossible
        cases impossible
      · rintro ⟨offer, member, same⟩
        exact absurd (beq_iff_eq.mpr same) (none offer member)
  | some winner =>
      rw [found] at takes
      obtain ⟨standing, greatest, -⟩ := takes
      obtain ⟨member, same⟩ := List.mem_filter.mp greatest.mem
      exact ⟨fun _ => ⟨standing, member, beq_iff_eq.mp same⟩, fun _ => rfl⟩

end Cascade

theorem computedStyle_get?_iff (sheets : List (Option Stylesheet)) (ancestors : List Element)
    (element : Element) (property value : Text) :
    (computedStyle sheets ancestors element).get? property = some value ↔
      ∃ offer, LastGreatest Offer.rank
        (offersFor property (Cascade.offers sheets ancestors element)) offer ∧
          offer.declaration.value = value :=
  Cascade.get?_outcome_iff _ property value

theorem computedStyle_contains_iff (sheets : List (Option Stylesheet)) (ancestors : List Element)
    (element : Element) (property : Text) :
    (computedStyle sheets ancestors element).contains property = true ↔
      ∃ offer ∈ Cascade.offers sheets ancestors element, offer.declaration.property = property :=
  Cascade.isSome_get?_outcome_iff _ property

/-- All offers to an element. Each sheet that is there offers, rule by rule, the declarations of the
rules that select the element with the weight of the selector, and last come those of the style
attribute, which weigh a thousand. Every declaration comes with its longhands. -/
def offered (sheets : List (Option Stylesheet)) (ancestors : List Element) (element : Element) :
    List Offer :=
  (sheets.flatMap fun
    | none => []
    | some sheet =>
        (sheet.rules.filter (·.selector.selects ancestors element)).flatMap fun rule =>
          rule.declarations.flatMap fun declaration =>
            declaration.longhands.map (⟨·, rule.selector.specificity⟩)) ++
  (Declaration.parseBlock (element.valueOf "style")).flatMap fun declaration =>
    declaration.longhands.map (⟨·, 1000⟩)

theorem flatMap_ruleOffers (ancestors : List Element) (element : Element) (rules : List Rule) :
    rules.flatMap (Cascade.ruleOffers ancestors element) =
      (rules.filter (·.selector.selects ancestors element)).flatMap fun rule =>
        rule.declarations.flatMap fun declaration =>
          declaration.longhands.map (⟨·, rule.selector.specificity⟩) := by
  induction rules with
  | nil => rfl
  | cons rule rest ih =>
      rw [List.flatMap_cons, List.filter_cons, ih, Cascade.ruleOffers, List.map_flatMap]
      split
      · rw [List.flatMap_cons]
      · rfl

theorem offers_eq_offered (sheets : List (Option Stylesheet)) (ancestors : List Element)
    (element : Element) :
    Cascade.offers sheets ancestors element = offered sheets ancestors element := by
  rw [Cascade.offers, offered, Cascade.inlineOffers, List.map_flatMap]
  refine congrArg (· ++ _) ?_
  induction sheets with
  | nil => rfl
  | cons sheet rest ih =>
      cases sheet with
      | none => exact ih
      | some sheet =>
          rw [Cascade.rulesOf, List.flatMap_cons, List.flatMap_append, flatMap_ruleOffers,
            List.flatMap_cons, ← ih]
          rfl

/-- The computed style of an element has a property if it is offered, and then the value of the last
of the greatest offers. -/
theorem computedStyle_last_greatest (sheets : List (Option Stylesheet)) (ancestors : List Element)
    (element : Element) (property : Text) :
    ((computedStyle sheets ancestors element).contains property = true ↔
      ∃ offer ∈ offered sheets ancestors element, offer.declaration.property = property) ∧
    ∀ value, (computedStyle sheets ancestors element).get? property = some value ↔
      ∃ offer,
        LastGreatest Offer.rank (offersFor property (offered sheets ancestors element)) offer ∧
          offer.declaration.value = value := by
  rw [← offers_eq_offered]
  exact ⟨computedStyle_contains_iff _ _ _ _, computedStyle_get?_iff _ _ _ _⟩

end SlidePress.Css
