import SlidePress.Proofs.Css.Precedence

/-! Weights and the order of selectors. Selectors are meant to be ranked by how many identifiers
they name, then by how many classes and attribute tests, then by how many tags, and a style
attribute before all of them. The cascade ranks by weights, which are sums with a hundred for an identifier,
ten for a class and one for a tag, and a thousand for a style attribute. Both come to the same as
long as no number reaches ten; from there on the weights carry over. -/

namespace SlidePress.Css

open Html (Element)

namespace Selector

def ids (selector : Selector) : Nat := (selector.compounds.flatMap (·.ids)).length

def classes (selector : Selector) : Nat :=
  (selector.compounds.flatMap (·.classes)).length +
    (selector.compounds.flatMap (·.attributes)).length

def tags (selector : Selector) : Nat := selector.compounds.countP (·.tag.isSome)

theorem specificity_eq (selector : Selector) :
    selector.specificity = 100 * selector.ids + 10 * selector.classes + selector.tags := by
  rw [specificity, ids, classes, tags]
  induction selector.compounds with
  | nil => rfl
  | cons compound rest ih =>
      rw [List.map_cons, List.foldr_cons, ih, Compound.specificity]
      simp only [List.flatMap_cons, List.length_append, List.countP_cons]
      omega

/-- No part is named ten times. -/
@[mk_iff]
structure FewParts (selector : Selector) : Prop where
  ids : selector.ids < 10
  classes : selector.classes < 10
  tags : selector.tags < 10

instance (selector : Selector) : Decidable selector.FewParts :=
  decidable_of_iff _ (fewParts_iff selector).symm

end Selector

inductive Origin where
  | rule (selector : Selector)
  | inline

namespace Origin

def weight : Origin → Nat
  | .rule selector => selector.specificity
  | .inline => inlineWeight

/-- A style attribute is above all rules; rules are ranked by their identifiers, then by their
classes and attribute tests, then by their tags. -/
def priority : Origin → Bool ×ₗ Nat ×ₗ Nat ×ₗ Nat
  | .rule selector => toLex (false, toLex (selector.ids, toLex (selector.classes, selector.tags)))
  | .inline => toLex (true, toLex (0, toLex (0, 0)))

def FewParts : Origin → Prop
  | .rule selector => selector.FewParts
  | .inline => True

/-- Without carries the weights rank as the numbers they are made of. -/
theorem weight_le_iff {first second : Origin} (few : first.FewParts) (few' : second.FewParts) :
    first.weight ≤ second.weight ↔ first.priority ≤ second.priority := by
  cases first with
  | rule selector =>
      obtain ⟨ids, classes, tags⟩ := few
      cases second with
      | rule other =>
          obtain ⟨ids', classes', tags'⟩ := few'
          -- Both sides are about the same six numbers, and none of them carries.
          simp only [weight, priority, Selector.specificity_eq, Prod.Lex.toLex_le_toLex,
            lt_self_iff_false, false_or, true_and]
          omega
      | inline =>
          have below : selector.specificity ≤ inlineWeight := by
            rw [Selector.specificity_eq, inlineWeight]
            omega
          exact iff_of_true below (Prod.Lex.toLex_le_toLex.mpr (.inl Bool.false_lt_true))
  | inline =>
      cases second with
      | rule other =>
          obtain ⟨ids', classes', tags'⟩ := few'
          have above : ¬ inlineWeight ≤ other.specificity := by
            rw [Selector.specificity_eq, inlineWeight]
            omega
          refine iff_of_false above (not_le_of_gt ?_)
          exact Prod.Lex.toLex_lt_toLex.mpr (.inl Bool.false_lt_true)
      | inline => exact iff_of_true le_rfl le_rfl

end Origin

structure Sourced where
  declaration : Declaration
  origin : Origin

namespace Sourced

def offer (sourced : Sourced) : Offer := ⟨sourced.declaration, sourced.origin.weight⟩

/-- Declarations are ranked by importance, and then by their origin. -/
def priority (sourced : Sourced) : Bool ×ₗ Bool ×ₗ Nat ×ₗ Nat ×ₗ Nat :=
  toLex (sourced.declaration.important, sourced.origin.priority)

theorem rank_le_iff {first second : Sourced} (few : first.origin.FewParts)
    (few' : second.origin.FewParts) :
    first.offer.rank ≤ second.offer.rank ↔ first.priority ≤ second.priority := by
  rw [Offer.rank, Offer.rank, priority, priority, Prod.Lex.toLex_le_toLex,
    Prod.Lex.toLex_le_toLex]
  exact or_congr Iff.rfl (and_congr Iff.rfl (Origin.weight_le_iff few few'))

end Sourced

/-- The declarations that apply to an element, in order, each with its origin and followed by its
longhands. -/
def declared (sheets : List (Option Stylesheet)) (ancestors : List Element) (element : Element) :
    List Sourced :=
  (Cascade.rulesOf sheets).flatMap (fun rule =>
    if rule.selector.selects ancestors element then
      (rule.declarations.flatMap Declaration.longhands).map (⟨·, .rule rule.selector⟩)
    else []) ++
  ((Declaration.parseBlock (element.valueOf "style")).flatMap Declaration.longhands).map
    (⟨·, .inline⟩)

def declaredFor (property : Text) (sheets : List (Option Stylesheet)) (ancestors : List Element)
    (element : Element) : List Sourced :=
  (declared sheets ancestors element).filter (·.declaration.property == property)

/-- The element takes for every property the last of the declarations that are first by importance
and origin. -/
def FollowsPriority (sheets : List (Option Stylesheet)) (ancestors : List Element) (element : Element) :
    Prop :=
  ∀ property value, (computedStyle sheets ancestors element).get? property = some value ↔
    ∃ sourced,
      LastGreatest Sourced.priority (declaredFor property sheets ancestors element) sourced ∧
        sourced.declaration.value = value

section Declared

variable {sheets : List (Option Stylesheet)} {ancestors : List Element} {element : Element}

theorem map_offer_declared :
    (declared sheets ancestors element).map Sourced.offer =
      Cascade.offers sheets ancestors element := by
  rw [declared, Cascade.offers, List.map_append, List.map_flatMap, List.map_map]
  refine congrArg₂ (· ++ ·) (List.flatMap_congr fun rule _ => ?_) rfl
  rw [Cascade.ruleOffers]
  split
  · rw [List.map_map]
    rfl
  · rfl

theorem map_offer_declaredFor (property : Text) :
    (declaredFor property sheets ancestors element).map Sourced.offer =
      offersFor property (Cascade.offers sheets ancestors element) := by
  rw [offersFor, ← map_offer_declared, List.filter_map]
  rfl

theorem fewParts_of_mem
    (few : ∀ rule ∈ Cascade.rulesOf sheets,
      rule.selector.selects ancestors element = true → rule.selector.FewParts)
    {sourced : Sourced} (member : sourced ∈ declared sheets ancestors element) :
    sourced.origin.FewParts := by
  rcases List.mem_append.mp member with fromRule | isInline
  · obtain ⟨rule, isRule, inside⟩ := List.mem_flatMap.mp fromRule
    split at inside
    · rename_i selects
      obtain ⟨declaration, -, rfl⟩ := List.mem_map.mp inside
      exact few rule isRule selects
    · cases inside
  · obtain ⟨declaration, -, rfl⟩ := List.mem_map.mp isInline
    trivial

/-- An element that takes what another declaration goes before does not follow the priorities. -/
theorem not_followsPriority_of_lt (property value : Text)
    (found : (computedStyle sheets ancestors element).get? property = some value)
    (later : ∀ sourced ∈ declaredFor property sheets ancestors element,
      sourced.declaration.value = value →
        ∃ other ∈ declaredFor property sheets ancestors element,
          sourced.priority < other.priority) :
    ¬ FollowsPriority sheets ancestors element := by
  intro follows
  obtain ⟨sourced, greatest, same⟩ := (follows property value).mp found
  obtain ⟨other, member, less⟩ := later sourced greatest.mem same
  exact absurd (greatest.le member) (not_le_of_gt less)

end Declared

/-- As long as no selector that applies names a part ten times, the cascade follows importance and
origin. -/
theorem followsPriority_of_fewParts (sheets : List (Option Stylesheet)) (ancestors : List Element)
    (element : Element)
    (few : ∀ rule ∈ Cascade.rulesOf sheets,
      rule.selector.selects ancestors element = true → rule.selector.FewParts) :
    FollowsPriority sheets ancestors element := by
  intro property value
  have sameRank : ∀ first ∈ declaredFor property sheets ancestors element,
      ∀ second ∈ declaredFor property sheets ancestors element,
        (first.offer.rank ≤ second.offer.rank ↔ first.priority ≤ second.priority) :=
    fun first isFirst second isSecond => Sourced.rank_le_iff
      (fewParts_of_mem few (List.mem_filter.mp isFirst).1)
      (fewParts_of_mem few (List.mem_filter.mp isSecond).1)
  rw [computedStyle_get?_iff, ← map_offer_declaredFor]
  constructor
  · rintro ⟨offer, greatest, rfl⟩
    obtain ⟨sourced, greatest', rfl⟩ := greatest.of_map
    exact ⟨sourced, greatest'.congr sameRank, rfl⟩
  · rintro ⟨sourced, greatest, rfl⟩
    have byWeight : LastGreatest (fun sourced => sourced.offer.rank)
        (declaredFor property sheets ancestors element) sourced :=
      greatest.congr fun first isFirst second isSecond =>
        (sameRank first isFirst second isSecond).symm
    exact ⟨sourced.offer, byWeight.map, rfl⟩

def labelled (style : Text) : Element :=
  ⟨"p", Table.ofList [("class", "c"), ("id", "i"), ("style", style)]⟩

def labelledSheet : Stylesheet :=
  (Stylesheet.parse "#i{color:red;margin:1px}p.c.c.c.c.c.c.c.c.c{color:green}").1

/-- Nine classes stay below an identifier, and both below the style attribute. -/
theorem followsPriority_labelled :
    (∀ rule ∈ Cascade.rulesOf [some labelledSheet],
      rule.selector.selects [] (labelled "margin:0") = true → rule.selector.FewParts) ∧
    FollowsPriority [some labelledSheet] [] (labelled "margin:0") := by
  have few : ∀ rule ∈ Cascade.rulesOf [some labelledSheet],
      rule.selector.selects [] (labelled "margin:0") = true → rule.selector.FewParts := by
    decide +kernel
  exact ⟨few, followsPriority_of_fewParts [some labelledSheet] [] (labelled "margin:0") few⟩

/-- Eleven classes outweigh an identifier, and eleven identifiers the style attribute. -/
theorem not_followsPriority_carry :
    ¬ FollowsPriority [some (Stylesheet.parse ".c.c.c.c.c.c.c.c.c.c.c{color:blue}#i{color:red}").1] []
      (labelled "") ∧
    ¬ FollowsPriority [some (Stylesheet.parse "#i#i#i#i#i#i#i#i#i#i#i{color:blue}").1] []
      (labelled "color:red") := by
  constructor
  · exact not_followsPriority_of_lt "color" "blue" (by decide +kernel) (by decide +kernel)
  · exact not_followsPriority_of_lt "color" "blue" (by decide +kernel) (by decide +kernel)

end SlidePress.Css
