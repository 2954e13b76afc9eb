import SlidePress.Css.Shorthand
import SlidePress.Css.Stylesheet

/-! The cascade: every declaration that applies to an element is offered in order, with the weight
of its selector; a longhand takes part on its own. For each property the offer that is greatest
by importance and then by weight gives the value, a later one over an equal earlier one. -/
namespace SlidePress.Css

open Html (Element)

def inlineWeight : Nat := 1000

structure Offer where
  declaration : Declaration
  weight : Nat

/-- What stands for a property after some offers. -/
structure Winner where
  important : Bool
  weight : Nat
  value : Text

namespace Cascade

/-- The rules of the sheets that are there. -/
def rulesOf (sheets : List (Option Stylesheet)) : List Rule :=
  sheets.flatMap fun
    | some sheet => sheet.rules
    | none => []

def ruleOffers (ancestors : List Element) (element : Element) (rule : Rule) : List Offer :=
  if rule.selector.selects ancestors element then
    (rule.declarations.flatMap Declaration.longhands).map (⟨·, rule.selector.specificity⟩)
  else []

def inlineOffers (element : Element) : List Offer :=
  ((Declaration.parseBlock (element.valueOf "style")).flatMap Declaration.longhands).map
    (⟨·, inlineWeight⟩)

/-- All offers to an element, in order: sheet by sheet and rule by rule, then the style
attribute. -/
def offers (sheets : List (Option Stylesheet)) (ancestors : List Element) (element : Element) :
    List Offer :=
  (rulesOf sheets).flatMap (ruleOffers ancestors element) ++ inlineOffers element

/-- An offer displaces what stands when it is at least as important and, at the same importance,
has at least the same weight. -/
def displaces (offer : Offer) (winner : Winner) : Bool :=
  if offer.declaration.important != winner.important then offer.declaration.important
  else winner.weight ≤ offer.weight

def consider (winners : Table Winner) (offer : Offer) : Table Winner :=
  let declaration := offer.declaration
  if (winners.get? declaration.property).all (displaces offer) then
    winners.insert declaration.property ⟨declaration.important, offer.weight, declaration.value⟩
  else winners

end Cascade

def computedStyle (sheets : List (Option Stylesheet)) (ancestors : List Element)
    (element : Element) : Properties :=
  ((Cascade.offers sheets ancestors element).foldl Cascade.consider ∅).map (·.value)

end SlidePress.Css
