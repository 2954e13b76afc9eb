import SlidePress.Proofs.Css.Longhands
import SlidePress.Proofs.Css.Precedence

/-! What a border shorthand resets. The longhands of a declaration are offered right behind it with
its own rank, so they stand against everything that comes before the declaration in the cascade. A
border gives a width and a style in any case: whatever it outranks could as well be missing. It
gives a color only if it names one; a border without a color leaves that of an outranked declaration
in place, unless something else still offers the color. -/

namespace SlidePress.Css

open Html (Element)

/-! ## Offers that are outranked -/

/-- What is left of offers when those that come before one of them in the cascade are taken away:
the ones of smaller rank, and the earlier ones of the same rank. -/
def remaining (before : List Offer) (offer : Offer) (after : List Offer) : List Offer :=
  before.filter (offer.rank < ·.rank) ++ offer :: after.filter (offer.rank ≤ ·.rank)

section Remaining

variable {before after : List Offer} {offer other : Offer}

theorem remaining_eq : remaining before offer after =
    before.filter (offer.rank < ·.rank) ++ (offer :: after).filter (offer.rank ≤ ·.rank) := by
  rw [remaining, List.filter_cons_of_pos (by simp)]

theorem remaining_subset (member : other ∈ remaining before offer after) :
    other ∈ before ++ offer :: after := by
  rw [remaining_eq] at member
  rcases List.mem_append.mp member with earlier | later
  · exact List.mem_append_left _ (List.mem_of_mem_filter earlier)
  · exact List.mem_append_right _ (List.mem_of_mem_filter later)

theorem mem_remaining_of_after (member : other ∈ after) (atLeast : offer.rank ≤ other.rank) :
    other ∈ remaining before offer after :=
  List.mem_append_right _ (List.mem_cons_of_mem _
    (List.mem_filter.mpr ⟨member, decide_eq_true atLeast⟩))

/-- What is left for a property is what is left of the offers for it. -/
theorem offersFor_remaining (property : Text) :
    offersFor property (remaining before offer after) =
      (offersFor property before).filter (offer.rank < ·.rank) ++
        (offersFor property (offer :: after)).filter (offer.rank ≤ ·.rank) := by
  rw [remaining_eq, offersFor, List.filter_append, List.filter_comm,
    List.filter_comm (l := offer :: after)]
  rfl

end Remaining

/-- The last greatest item stays, if anything does: what is above the bound is so by a rank that the
greatest one has as well. -/
theorem LastGreatest.above {β γ : Type} [LinearOrder γ] {rank : β → γ} {first second : List β}
    {item : β} (greatest : LastGreatest rank (first ++ second) item) (bound : γ)
    (some : ∃ other, other ∈ first.filter (bound < rank ·) ++ second.filter (bound ≤ rank ·)) :
    LastGreatest rank (first.filter (bound < rank ·) ++ second.filter (bound ≤ rank ·)) item := by
  obtain ⟨other, member⟩ := some
  rw [List.mem_append, List.mem_filter, List.mem_filter, decide_eq_true_eq,
    decide_eq_true_eq] at member
  rcases LastGreatest.append_iff.mp greatest with ⟨inFirst, less⟩ | ⟨inSecond, le⟩
  · have above : bound < rank item := by
      rcases member with ⟨isFirst, isAbove⟩ | ⟨isSecond, isAbove⟩
      · exact lt_of_lt_of_le isAbove (inFirst.le isFirst)
      · exact lt_of_le_of_lt isAbove (less other isSecond)
    exact LastGreatest.append_iff.mpr (.inl ⟨inFirst.filter (decide_eq_true above),
      fun candidate isLeft => less candidate (List.mem_of_mem_filter isLeft)⟩)
  · have above : bound ≤ rank item := by
      rcases member with ⟨isFirst, isAbove⟩ | ⟨isSecond, isAbove⟩
      · exact le_trans (le_of_lt isAbove) (le other isFirst)
      · exact le_trans isAbove (inSecond.le isSecond)
    exact LastGreatest.append_iff.mpr (.inr ⟨inSecond.filter (decide_eq_true above),
      fun candidate isLeft => le candidate (List.mem_of_mem_filter isLeft)⟩)

namespace Cascade

variable {before after : List Offer} {offer : Offer} {property : Text}

theorem get?_remaining_of_offered
    (offered : ∃ other ∈ remaining before offer after, other.declaration.property = property) :
    (outcome (remaining before offer after)).get? property =
      (outcome (before ++ offer :: after)).get? property := by
  obtain ⟨other, member, same⟩ := offered
  have isOffered : ((outcome (before ++ offer :: after)).get? property).isSome = true :=
    (isSome_get?_outcome_iff _ _).mpr ⟨other, remaining_subset member, same⟩
  obtain ⟨value, found⟩ := Option.isSome_iff_exists.mp isOffered
  obtain ⟨winner, greatest, isValue⟩ := (get?_outcome_iff _ _ _).mp found
  have left : other ∈ offersFor property (remaining before offer after) :=
    List.mem_filter.mpr ⟨member, beq_iff_eq.mpr same⟩
  rw [offersFor, List.filter_append] at greatest
  rw [offersFor_remaining] at left
  have still := greatest.above offer.rank ⟨other, left⟩
  rw [found]
  refine (get?_outcome_iff _ _ _).mpr ⟨winner, ?_, isValue⟩
  rw [offersFor_remaining]
  exact still

/-- Taking away what an offer outranks changes nothing for a property that is still offered, or
never was, and only for these. -/
theorem get?_remaining_iff :
    (outcome (remaining before offer after)).get? property =
        (outcome (before ++ offer :: after)).get? property ↔
      (∃ other ∈ remaining before offer after, other.declaration.property = property) ∨
        ∀ other ∈ before ++ offer :: after, other.declaration.property ≠ property := by
  constructor
  · intro same
    by_contra neither
    rw [not_or] at neither
    have lost := mt (isSome_get?_outcome_iff _ _).mp neither.1
    rw [same, isSome_get?_outcome_iff] at lost
    exact neither.2 fun other member isOffered => lost ⟨other, member, isOffered⟩
  · rintro (offered | never)
    · exact get?_remaining_of_offered offered
    · have missing : ∀ offers : List Offer,
          (∀ other ∈ offers, other ∈ before ++ offer :: after) →
            (outcome offers).get? property = none := by
        intro offers among
        rw [← Option.not_isSome_iff_eq_none, isSome_get?_outcome_iff]
        rintro ⟨other, member, same⟩
        exact never other (among other member) same
      rw [missing _ fun other => remaining_subset, missing _ fun other => id]

end Cascade

/-! ## Longhands among the offers -/

namespace Declaration

def others (declaration : Declaration) : List Declaration :=
  ((Shorthand.expand (Table.empty.insert declaration.property declaration.value)).entries.filter
    (·.1 != declaration.property)).map fun (property, value) =>
      ⟨property, value, declaration.important⟩

variable {declaration : Declaration}

theorem longhands_eq : declaration.longhands = declaration :: declaration.others := rfl

/-- No other longhand is a shorthand. -/
theorem shorthand_not_mem_others {rule : Shorthand.Rule} (listed : rule ∈ Shorthand.rules)
    {longhand : Declaration} (member : longhand ∈ declaration.others) :
    longhand.property ≠ rule.shorthand := by
  rw [others] at member
  obtain ⟨⟨property, value⟩, isEntry, rfl⟩ := List.mem_map.mp member
  obtain ⟨expanded, other⟩ := List.mem_filter.mp isEntry
  have different : declaration.property ≠ property := Ne.symm (bne_iff_ne.mp other)
  have found := Table.get?_of_mem expanded
  rw [Shorthand.get?_expand, Table.get?_insert_of_ne different] at found
  obtain ⟨first, rest, whole, -⟩ := List.lookup_eq_some_iff.mp found
  have amongAll : (property, value) ∈ Shorthand.longhandsOf _ :=
    whole ▸ List.mem_append_right _ List.mem_cons_self
  obtain ⟨giving, isRule, isGiven⟩ := List.mem_flatMap.mp amongAll
  rintro rfl
  exact Shorthand.rules_apart giving isRule rule listed
    (Shorthand.Rule.mem_properties_of_given isGiven)

/-- What the rule of a shorthand gives is among its longhands. -/
theorem mem_others {rule : Shorthand.Rule} (listed : rule ∈ Shorthand.rules)
    (same : declaration.property = rule.shorthand) {property value : Text}
    (isGiven : (property, value) ∈ rule.longhands declaration.value) :
    ⟨property, value, declaration.important⟩ ∈ declaration.others := by
  have other : property ≠ rule.shorthand := by
    rintro rfl
    exact Shorthand.rules_apart rule listed rule listed (Shorthand.Rule.mem_properties isGiven)
  have found := Table.mem_of_get? (Shorthand.get?_expand_single listed isGiven)
  rw [others, same]
  exact List.mem_map.mpr ⟨(property, value),
    List.mem_filter.mpr ⟨found, bne_iff_ne.mpr other⟩, rfl⟩

end Declaration

def Offer.expanded (source : Offer) : List Offer :=
  source.declaration.longhands.map (⟨·, source.weight⟩)

def sources (sheets : List (Option Stylesheet)) (ancestors : List Element) (element : Element) :
    List Offer :=
  ((Cascade.rulesOf sheets).filter (·.selector.selects ancestors element)).flatMap (fun rule =>
    rule.declarations.map (⟨·, rule.selector.specificity⟩)) ++
  (Declaration.parseBlock (element.valueOf "style")).map (⟨·, inlineWeight⟩)

theorem offers_eq_expanded (sheets : List (Option Stylesheet)) (ancestors : List Element)
    (element : Element) :
    Cascade.offers sheets ancestors element =
      (sources sheets ancestors element).flatMap Offer.expanded := by
  rw [Cascade.offers, sources, flatMap_ruleOffers, Cascade.inlineOffers, List.map_flatMap,
    List.flatMap_append, List.flatMap_assoc, List.flatMap_map]
  simp only [List.flatMap_map]
  rfl

/-- An item of joined lists is an item of one of them, and what follows it there follows it. -/
theorem exists_of_flatMap_eq {α β : Type} {list : List α} {view : α → List β}
    {before after : List β} {item : β} (split : list.flatMap view = before ++ item :: after) :
    ∃ source ∈ list, ∃ first rest, view source = first ++ item :: rest ∧ rest ⊆ after := by
  induction list generalizing before with
  | nil => simp at split
  | cons source others ih =>
      rw [List.flatMap_cons] at split
      rcases List.append_eq_append_iff.mp split with ⟨between, rfl, rest⟩ | ⟨between, whole, rest⟩
      · obtain ⟨found, member, inside⟩ := ih rest
        exact ⟨found, List.mem_cons_of_mem _ member, inside⟩
      · cases between with
        | nil =>
            have later : others.flatMap view = [] ++ item :: after := rest.symm
            obtain ⟨found, member, inside⟩ := ih later
            exact ⟨found, List.mem_cons_of_mem _ member, inside⟩
        | cons head tail =>
            obtain ⟨rfl, rfl⟩ := List.cons.inj rest
            exact ⟨source, List.mem_cons_self, before, tail, whole, List.subset_append_left _ _⟩

section Behind

variable {sheets : List (Option Stylesheet)} {ancestors : List Element} {element : Element}
  {before after : List Offer} {offer : Offer}

/-- The longhands of a shorthand are offered behind it, with its importance and weight. -/
theorem longhand_mem_after
    (split : Cascade.offers sheets ancestors element = before ++ offer :: after)
    {rule : Shorthand.Rule} (listed : rule ∈ Shorthand.rules)
    (same : offer.declaration.property = rule.shorthand) {property value : Text}
    (isGiven : (property, value) ∈ rule.longhands offer.declaration.value) :
    ⟨⟨property, value, offer.declaration.important⟩, offer.weight⟩ ∈ after := by
  rw [offers_eq_expanded] at split
  obtain ⟨source, -, first, rest, whole, behind⟩ := exists_of_flatMap_eq split
  rw [Offer.expanded, Declaration.longhands_eq, List.map_cons] at whole
  cases first with
  | nil =>
      obtain ⟨rfl, rfl⟩ := List.cons.inj whole
      exact behind (List.mem_map.mpr ⟨_, Declaration.mem_others listed same isGiven, rfl⟩)
  | cons head tail =>
      -- A shorthand is never offered as the longhand of another declaration.
      have inside : offer ∈ source.declaration.others.map (⟨·, source.weight⟩) := by
        rw [(List.cons.inj whole).2]
        exact List.mem_append_right _ List.mem_cons_self
      obtain ⟨longhand, isOther, rfl⟩ := List.mem_map.mp inside
      exact absurd same (Declaration.shorthand_not_mem_others listed isOther)

/-- A shorthand does for its longhands without all that it outranks. -/
theorem get?_longhand_remaining
    (split : Cascade.offers sheets ancestors element = before ++ offer :: after)
    {rule : Shorthand.Rule} (listed : rule ∈ Shorthand.rules)
    (same : offer.declaration.property = rule.shorthand) {property value : Text}
    (isGiven : (property, value) ∈ rule.longhands offer.declaration.value) :
    (Cascade.outcome (remaining before offer after)).get? property =
      (computedStyle sheets ancestors element).get? property := by
  have behind := longhand_mem_after split listed same isGiven
  have still : ∃ other ∈ remaining before offer after, other.declaration.property = property :=
    ⟨_, mem_remaining_of_after behind le_rfl, rfl⟩
  rw [Cascade.get?_remaining_of_offered still, ← split]
  rfl

end Behind

/-! ## Borders -/

def CoversBorder (property : Text) (side : Side) : Prop :=
  property = "border" ∨ property = sideProperty "border" side []

theorem CoversBorder.rule {property : Text} {side : Side} (covers : CoversBorder property side) :
    ∃ rule ∈ Shorthand.rules, property = rule.shorthand ∧
      ∀ value, Shorthand.borderLonghands value side ⊆ rule.longhands value := by
  have every := side.mem_all
  rcases covers with isBorder | isSide
  · refine ⟨Shorthand.borderRule, by simp [Shorthand.rules], isBorder, fun value entry member => ?_⟩
    exact List.mem_flatMap.mpr ⟨side, every, member⟩
  · exact ⟨Shorthand.borderSideRule side,
      List.mem_append_left _ (List.mem_map_of_mem every), isSide, fun value => List.Subset.refl _⟩

/-- A border does without the declarations that it outranks: they change neither the width nor the
style of the sides it covers, and the color only where it names none, nothing else that remains
offers one, and one of them did. -/
theorem border_resets (sheets : List (Option Stylesheet)) (ancestors : List Element) (element : Element)
    {before after : List Offer} {border : Offer}
    (split : Cascade.offers sheets ancestors element = before ++ border :: after) {side : Side}
    (covers : CoversBorder border.declaration.property side) :
    (Cascade.outcome (remaining before border after)).get? (sideProperty "border" side "width") =
        (computedStyle sheets ancestors element).get? (sideProperty "border" side "width") ∧
    (Cascade.outcome (remaining before border after)).get? (sideProperty "border" side "style") =
        (computedStyle sheets ancestors element).get? (sideProperty "border" side "style") ∧
    ((Cascade.outcome (remaining before border after)).get? (sideProperty "border" side "color") =
        (computedStyle sheets ancestors element).get? (sideProperty "border" side "color") ↔
      (Shorthand.borderParts border.declaration.value).color ≠ [] ∨
        (∃ other ∈ remaining before border after,
          other.declaration.property = sideProperty "border" side "color") ∨
        ∀ other ∈ Cascade.offers sheets ancestors element,
          other.declaration.property ≠ sideProperty "border" side "color") := by
  obtain ⟨rule, listed, same, gives⟩ := covers.rule
  have resets : ∀ {property value : Text},
      (property, value) ∈ Shorthand.borderLonghands border.declaration.value side →
        (Cascade.outcome (remaining before border after)).get? property =
          (computedStyle sheets ancestors element).get? property :=
    fun isGiven => get?_longhand_remaining split listed same (gives _ isGiven)
  refine ⟨resets List.mem_cons_self, resets (List.mem_cons_of_mem _ List.mem_cons_self), ?_⟩
  have whole : computedStyle sheets ancestors element =
      Cascade.outcome (before ++ border :: after) := by
    rw [← split]
    rfl
  constructor
  · intro unchanged
    right
    rw [whole, Cascade.get?_remaining_iff] at unchanged
    rw [split]
    exact unchanged
  · rintro (named | otherwise)
    · have isGiven : (sideProperty "border" side "color",
          (Shorthand.borderParts border.declaration.value).color) ∈
            Shorthand.borderLonghands border.declaration.value side := by
        rw [Shorthand.borderLonghands, List.isEmpty_eq_false_iff.mpr named]
        simp
      exact resets isGiven
    · rw [whole, Cascade.get?_remaining_iff, ← split]
      exact otherwise

deriving instance DecidableEq for Offer

def plainParagraph : Element := ⟨"p", ∅⟩

def paragraphOffers (css : Text) : List Offer :=
  Cascade.offers [some (Stylesheet.parse css).1] [] plainParagraph

def framedSheet : Text := "p{border-left-color:red!important;border-left:2px;border:thin dashed}"

def framedBorder : Offer := ⟨⟨"border", "thin dashed", false⟩, 1⟩

/-- The width of the left side is reset, and the important color remains. -/
theorem border_resets_framed :
    ∃ before after, paragraphOffers framedSheet = before ++ framedBorder :: after ∧
      CoversBorder framedBorder.declaration.property .left ∧
      (Cascade.outcome (remaining before framedBorder after)).get?
        (sideProperty "border" .left "width") = some "thin" ∧
      (Cascade.outcome (remaining before framedBorder after)).get?
        (sideProperty "border" .left "color") = some "red" := by
  have split : paragraphOffers framedSheet = (paragraphOffers framedSheet).take 4 ++
      framedBorder :: (paragraphOffers framedSheet).drop 5 := by decide +kernel
  have covers : CoversBorder framedBorder.declaration.property .left := .inl rfl
  obtain ⟨width, -, color⟩ := border_resets [some (Stylesheet.parse framedSheet).1] [] plainParagraph
    split covers
  have remains : ∃ other ∈ remaining ((paragraphOffers framedSheet).take 4) framedBorder
      ((paragraphOffers framedSheet).drop 5),
        other.declaration.property = sideProperty "border" .left "color" := by decide +kernel
  refine ⟨_, _, split, covers, width.trans ?_, (color.mpr (.inr (.inl remains))).trans ?_⟩
  · decide +kernel
  · decide +kernel

/-- A border without a color does not reset the color of a side. -/
theorem not_border_resets_color :
    ¬ ∀ (sheets : List (Option Stylesheet)) (ancestors : List Element) (element : Element)
      (before after : List Offer) (border : Offer) (side : Side),
      Cascade.offers sheets ancestors element = before ++ border :: after →
        CoversBorder border.declaration.property side → border.declaration.value ≠ [] →
          (Cascade.outcome (remaining before border after)).get?
              (sideProperty "border" side "color") =
            (computedStyle sheets ancestors element).get? (sideProperty "border" side "color") := by
  intro resets
  have split : paragraphOffers "p{border-top-color:red}p{border:1px solid}" =
      [⟨⟨"border-top-color", "red", false⟩, 1⟩] ++ ⟨⟨"border", "1px solid", false⟩, 1⟩ ::
        (paragraphOffers "p{border-top-color:red}p{border:1px solid}").drop 2 := by
    decide +kernel
  have same := resets _ _ _ _ _ _ .top split (.inl rfl) (by decide +kernel)
  revert same
  decide +kernel

end SlidePress.Css
