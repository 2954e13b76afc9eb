import SlidePress.Proofs.Css.SelectorGrammar
import SlidePress.Proofs.Html.Nesting

/-! What a selector selects. A selector is matched from the inside out, and at a descendant
combinator every element further out is tried, not only the nearest one that meets the compound. So
a position in a document is selected exactly when positions can be chosen for all compounds, the
selected one for the last, such that each stands to the next as the combinator between them asks:
as its parent, or as one of its ancestors. -/

namespace SlidePress

/-! ## Positions -/

namespace Html

inductive Position where
  | document
  | node (place : Placed)

namespace Position

def parent? : Position → Option Position
  | .document => none
  | .node ⟨[], _⟩ => some .document
  | .node ⟨holder :: outer, _⟩ => some (.node ⟨outer, holder⟩)

/-- The element at a position; texts and the document are none. -/
def located? : Position → Option Located
  | .document => none
  | .node place => place.located?

/-- The position is the parent of another one, or further out. -/
inductive IsAncestor (outer : Position) : Position → Prop where
  | parent {inner : Position} (direct : inner.parent? = some outer) : IsAncestor outer inner
  | above {between inner : Position} (direct : inner.parent? = some between)
      (further : IsAncestor outer between) : IsAncestor outer inner

theorem isAncestor_iff {inner parent outer : Position} (direct : inner.parent? = some parent) :
    IsAncestor outer inner ↔ outer = parent ∨ IsAncestor outer parent := by
  constructor
  · intro ancestor
    cases ancestor with
    | parent other => exact .inl (Option.some.inj (other.symm.trans direct))
    | above other further =>
        obtain rfl := Option.some.inj (other.symm.trans direct)
        exact .inr further
  · rintro (rfl | further)
    · exact .parent direct
    · exact .above direct further

theorem not_isAncestor_document (outer : Position) : ¬ IsAncestor outer .document := by
  intro ancestor
  cases ancestor with
  | parent direct => cases direct
  | above direct further => cases direct

end Position

namespace Document

variable {document : Document} {inner : Position}

def positions (document : Document) : List Position :=
  .document :: document.placed.map .node

theorem held_position {place : Placed} (member : .node place ∈ document.positions) :
    place.Held document.placed document.children := by
  rcases List.mem_cons.mp member with isDocument | member
  · cases isDocument
  · obtain ⟨_, placed, same⟩ := List.mem_map.mp member
    cases same
    exact document.held place placed

theorem parent_mem_positions {outer : Position} (member : inner ∈ document.positions)
    (direct : inner.parent? = some outer) : outer ∈ document.positions := by
  match inner with
  | .document => cases direct
  | .node ⟨[], node⟩ =>
      cases direct
      exact List.mem_cons_self
  | .node ⟨holder :: around, node⟩ =>
      cases direct
      obtain ⟨-, placed⟩ := held_position member
      exact List.mem_cons_of_mem _ (List.mem_map_of_mem placed)

theorem ancestor_mem_positions {outer : Position} (ancestor : outer.IsAncestor inner)
    (member : inner ∈ document.positions) : outer ∈ document.positions := by
  induction ancestor with
  | parent direct => exact parent_mem_positions member direct
  | above direct further ih => exact ih (parent_mem_positions member direct)

/-- The innermost element around an element is at the parent's position. -/
theorem parent_of_located {found : Located} (member : inner ∈ document.positions)
    (isElement : inner.located? = some found) :
    inner.parent? = some .document ∧ found.ancestors = [] ∨
      ∃ outer holder, inner.parent? = some outer ∧ outer ∈ document.positions ∧
        outer.located? = some holder ∧ found.ancestors = holder.head :: holder.ancestors := by
  match inner with
  | .document => cases isElement
  | .node ⟨[], node⟩ =>
      obtain ⟨head, -, rfl⟩ := Option.map_eq_some_iff.mp isElement
      exact .inl ⟨rfl, rfl⟩
  | .node ⟨.text content :: around, node⟩ =>
      obtain ⟨inText, -⟩ := held_position member
      cases inText
  | .node ⟨.element holder children :: around, node⟩ =>
      obtain ⟨head, -, rfl⟩ := Option.map_eq_some_iff.mp isElement
      exact .inr ⟨_, _, rfl, parent_mem_positions member rfl, rfl, rfl⟩

end Document

end Html

namespace Css

open Html (Document Position Located)

/-! ## One combinator -/

/-- How a position stands to one further in when a combinator joins their compounds. -/
def Combinator.Relates : Combinator → Position → Position → Prop
  | .child, outer, inner => inner.parent? = some outer
  | .descendant, outer, inner => outer.IsAncestor inner

theorem Combinator.Relates.mem_positions {combinator : Combinator} {outer inner : Position}
    (relates : combinator.Relates outer inner) {document : Document}
    (member : inner ∈ document.positions) : outer ∈ document.positions := by
  cases combinator with
  | child => exact Document.parent_mem_positions member relates
  | descendant => exact Document.ancestor_mem_positions relates member

def Compound.MetBy (compound : Compound) (position : Position) : Prop :=
  ∃ found, position.located? = some found ∧ compound.holds found.head = true

namespace Selector

def SelectsAt (selector : Selector) (position : Position) : Prop :=
  ∃ found, position.located? = some found ∧ selector.selects found.ancestors found.head = true

theorem selectsAt_alone (subject : Compound) (position : Position) :
    SelectsAt ⟨subject, []⟩ position ↔ subject.MetBy position := by
  simp only [SelectsAt, Compound.MetBy, selects, contextHolds, Bool.and_true]

theorem selectsAt_of_located {selector : Selector} {position : Position} {found : Located}
    (isElement : position.located? = some found) :
    selector.SelectsAt position ↔ (selector.subject.holds found.head &&
      contextHolds selector.context found.ancestors) = true := by
  constructor
  · rintro ⟨other, same, selected⟩
    obtain rfl := Option.some.inj (same.symm.trans isElement)
    exact selected
  · exact fun selected => ⟨found, isElement, selected⟩

theorem not_selectsAt_document (selector : Selector) : ¬ selector.SelectsAt .document := by
  rintro ⟨found, missing, -⟩
  cases missing

section Context

variable {document : Document} {compound : Compound} {context : List (Combinator × Compound)}

theorem contextHolds_child {position : Position} {found : Located}
    (member : position ∈ document.positions) (isElement : position.located? = some found) :
    contextHolds ((.child, compound) :: context) found.ancestors = true ↔
      ∃ outer, position.parent? = some outer ∧ SelectsAt ⟨compound, context⟩ outer := by
  obtain ⟨direct, bare⟩ | ⟨parent, holder, direct, -, isHolder, around⟩ :=
    Document.parent_of_located member isElement
  · simp [bare, contextHolds, direct, not_selectsAt_document]
  · simp [around, contextHolds, direct, selectsAt_of_located isHolder]

/-- Every ancestor is tried. The induction is on the elements around: the nearest is at the parent,
and the others are those around the parent. -/
theorem contextHolds_descendant {position : Position} {found : Located}
    (member : position ∈ document.positions) (isElement : position.located? = some found) :
    contextHolds ((.descendant, compound) :: context) found.ancestors = true ↔
      ∃ outer : Position, outer.IsAncestor position ∧ SelectsAt ⟨compound, context⟩ outer := by
  induction ancestors : found.ancestors generalizing position found with
  | nil =>
      obtain ⟨direct, -⟩ | ⟨_, _, _, _, _, around⟩ := Document.parent_of_located member isElement
      · simp [contextHolds, someAncestor, Position.isAncestor_iff direct,
          Position.not_isAncestor_document, not_selectsAt_document]
      · cases ancestors.symm.trans around
  | cons nearest further ih =>
      obtain ⟨-, bare⟩ | ⟨parent, holder, direct, isPosition, isHolder, around⟩ :=
        Document.parent_of_located member isElement
      · cases ancestors.symm.trans bare
      · obtain ⟨rfl, rfl⟩ := List.cons.inj (ancestors.symm.trans around)
        have atParent : SelectsAt ⟨compound, context⟩ parent ↔ _ := selectsAt_of_located isHolder
        have beyond := ih isPosition isHolder rfl
        rw [contextHolds] at beyond
        rw [contextHolds, someAncestor, Bool.or_eq_true, beyond, ← atParent]
        simp only [Position.isAncestor_iff direct, or_and_right, exists_or, exists_eq_left]

/-- A selector with more than one compound selects where the last one is met and the selector of the
others selects a position that stands there as the combinator asks. -/
theorem selectsAt_joined {subject : Compound} {combinator : Combinator} {position : Position}
    (member : position ∈ document.positions) :
    SelectsAt ⟨subject, (combinator, compound) :: context⟩ position ↔
      subject.MetBy position ∧
        ∃ outer, combinator.Relates outer position ∧ SelectsAt ⟨compound, context⟩ outer := by
  cases isElement : position.located? with
  | none => simp [SelectsAt, Compound.MetBy, isElement]
  | some found =>
      have met : subject.MetBy position ↔ subject.holds found.head = true := by
        simp [Compound.MetBy, isElement]
      rw [selectsAt_of_located isElement, Bool.and_eq_true, met]
      apply and_congr_right'
      cases combinator with
      | child => exact contextHolds_child member isElement
      | descendant => exact contextHolds_descendant member isElement

end Context

/-! ## All combinators -/

structure Picks (selector : Selector) (chosen : List Position) : Prop where
  length : chosen.length = selector.written.length
  met : ∀ (index : Nat) (compound : Compound) (position : Position),
    selector.written[index]? = some compound → chosen[index]? = some position →
      compound.MetBy position
  related : ∀ (index : Nat) (combinator : Combinator) (outer inner : Position),
    selector.combinators[index]? = some combinator → chosen[index]? = some outer →
      chosen[index + 1]? = some inner → combinator.Relates outer inner

theorem picks_alone {subject : Compound} {position : Position} :
    Picks ⟨subject, []⟩ [position] ↔ subject.MetBy position := by
  constructor
  · intro picks
    exact picks.met 0 subject position rfl rfl
  · intro met
    refine ⟨rfl, fun index compound other isCompound isOther => ?_, nofun⟩
    cases index with
    | zero =>
        cases isCompound
        cases isOther
        exact met
    | succ index => cases isOther

section Joined

variable (subject compound : Compound) (combinator : Combinator)
  (context : List (Combinator × Compound))

theorem written_joined : written ⟨subject, (combinator, compound) :: context⟩ =
    written ⟨compound, context⟩ ++ [subject] :=
  List.reverse_cons

theorem combinators_joined : combinators ⟨subject, (combinator, compound) :: context⟩ =
    combinators ⟨compound, context⟩ ++ [combinator] :=
  List.reverse_cons

end Joined

theorem getElem?_concat_eq_some {α : Type} {list : List α} {last item : α} {index : Nat} :
    (list ++ [last])[index]? = some item ↔
      list[index]? = some item ∨ index = list.length ∧ last = item := by
  rcases Nat.lt_trichotomy index list.length with inside | rfl | outside
  · simp [List.getElem?_append_left inside, Nat.ne_of_lt inside]
  · simp
  · have missing : list.length ≤ index := Nat.le_of_lt outside
    have beyond : (list ++ [last]).length ≤ index := by
      rw [List.length_append]
      exact outside
    simp [List.getElem?_eq_none missing, List.getElem?_eq_none beyond, Nat.ne_of_gt outside]

/-- Choosing for one compound more: the combinator before it is asked of the last two positions. -/
theorem picks_joined {subject compound : Compound} {combinator : Combinator}
    {context : List (Combinator × Compound)} {chosen : List Position} {outer position : Position}
    (isLast : chosen.getLast? = some outer) :
    Picks ⟨subject, (combinator, compound) :: context⟩ (chosen ++ [position]) ↔
      subject.MetBy position ∧ combinator.Relates outer position ∧
        Picks ⟨compound, context⟩ chosen := by
  have count := length_written ⟨compound, context⟩
  have lastAt : chosen.length = (written ⟨compound, context⟩).length →
      chosen[(combinators ⟨compound, context⟩).length]? = some outer := by
    intro length
    rw [List.getLast?_eq_getElem?, length, count] at isLast
    exact isLast
  constructor
  · rintro ⟨length, met, related⟩
    rw [written_joined, List.length_append, List.length_append] at length
    have length := Nat.add_right_cancel length
    simp only [written_joined, getElem?_concat_eq_some] at met
    simp only [combinators_joined, getElem?_concat_eq_some] at related
    refine ⟨met _ _ _ (.inr ⟨rfl, rfl⟩) (.inr ⟨length.symm, rfl⟩),
      related _ _ _ _ (.inr ⟨rfl, rfl⟩) (.inl (lastAt length)) (.inr ⟨by omega, rfl⟩), length,
      fun index _ _ isCompound isChosen => met index _ _ (.inl isCompound) (.inl isChosen),
      fun index _ _ _ isCombinator isOuter isInner =>
        related index _ _ _ (.inl isCombinator) (.inl isOuter) (.inl isInner)⟩
  · rintro ⟨metLast, relatedLast, picks⟩
    have length := picks.length
    refine ⟨by simp [written_joined, length], ?_, ?_⟩
    · intro index other positionToo isCompound isChosen
      rw [written_joined, getElem?_concat_eq_some] at isCompound
      rcases isCompound with isCompound | ⟨rfl, rfl⟩
      · have inside := (List.getElem?_eq_some_iff.mp isCompound).1
        rw [List.getElem?_append_left (by omega)] at isChosen
        exact picks.met index other positionToo isCompound isChosen
      · rw [← length, List.getElem?_concat_length] at isChosen
        cases isChosen
        exact metLast
    · intro index other outerToo innerToo isCombinator isOuter isInner
      rw [combinators_joined, getElem?_concat_eq_some] at isCombinator
      rcases isCombinator with isCombinator | ⟨rfl, rfl⟩
      · have inside := (List.getElem?_eq_some_iff.mp isCombinator).1
        rw [List.getElem?_append_left (by omega)] at isOuter isInner
        exact picks.related index other outerToo innerToo isCombinator isOuter isInner
      · rw [List.getElem?_append_left (by omega), lastAt length] at isOuter
        rw [← count, ← length, List.getElem?_concat_length] at isInner
        cases isOuter
        cases isInner
        exact relatedLast

section Choice

variable {document : Document} {position : Position} {subject compound : Compound}
  {combinator : Combinator} {context : List (Combinator × Compound)}

/-- Positions of the document can be chosen for the compounds of the selector, this one for the
last. -/
def Chooses (document : Document) (selector : Selector) (position : Position) : Prop :=
  ∃ chosen : List Position, (∀ other ∈ chosen, other ∈ document.positions) ∧
    chosen.getLast? = some position ∧ selector.Picks chosen

theorem chooses_alone (member : position ∈ document.positions) :
    Chooses document ⟨subject, []⟩ position ↔ subject.MetBy position := by
  constructor
  · rintro ⟨chosen, -, isLast, picks⟩
    obtain ⟨before, rfl⟩ := List.getLast?_eq_some_iff.mp isLast
    have length := picks.length
    rw [List.length_append] at length
    obtain rfl : before = [] := List.length_eq_zero_iff.mp (Nat.add_right_cancel length)
    exact picks_alone.mp picks
  · intro met
    exact ⟨[position], List.forall_mem_singleton.mpr member, rfl, picks_alone.mpr met⟩

theorem chooses_joined (member : position ∈ document.positions) :
    Chooses document ⟨subject, (combinator, compound) :: context⟩ position ↔
      subject.MetBy position ∧ ∃ outer ∈ document.positions, combinator.Relates outer position ∧
        Chooses document ⟨compound, context⟩ outer := by
  constructor
  · rintro ⟨chosen, inside, isLast, picks⟩
    obtain ⟨before, rfl⟩ := List.getLast?_eq_some_iff.mp isLast
    have insideBefore := (List.forall_mem_append.mp inside).1
    have some : before ≠ [] := by
      rintro rfl
      have length := picks.length
      simp [written_joined, length_written] at length
    have isOuter := List.getLast?_eq_some_getLast some
    obtain ⟨met, relates, picksOuter⟩ := (picks_joined isOuter).mp picks
    exact ⟨met, _, insideBefore _ (List.getLast_mem some), relates, before, insideBefore, isOuter,
      picksOuter⟩
  · rintro ⟨met, outer, -, relates, chosen, inside, isLast, picks⟩
    refine ⟨chosen ++ [position], ?_, List.getLast?_concat, ?_⟩
    · exact List.forall_mem_append.mpr ⟨inside, List.forall_mem_singleton.mpr member⟩
    · exact (picks_joined isLast).mpr ⟨met, relates, picks⟩

end Choice

/-- A position is selected exactly when positions of the document, of which it is the last, can be
chosen for the compounds of the selector, such that each meets its compound and is the parent or an
ancestor of the next one, as the combinator between them asks. -/
theorem selectsAt_iff_picks (document : Document) (selector : Selector) (position : Position)
    (member : position ∈ document.positions) :
    selector.SelectsAt position ↔
      ∃ chosen : List Position, (∀ other ∈ chosen, other ∈ document.positions) ∧
        chosen.getLast? = some position ∧ selector.Picks chosen := by
  change _ ↔ Chooses document selector position
  obtain ⟨subject, context⟩ := selector
  -- Both sides take the compounds one by one from the inside out.
  induction context generalizing subject position with
  | nil => rw [selectsAt_alone, chooses_alone member]
  | cons entry rest ih =>
      rw [selectsAt_joined member, chooses_joined member]
      apply and_congr_right'
      constructor
      · rintro ⟨outer, relates, selected⟩
        have isPosition := relates.mem_positions member
        exact ⟨outer, isPosition, relates, (ih outer isPosition _).mp selected⟩
      · rintro ⟨outer, isPosition, relates, chosen⟩
        exact ⟨outer, relates, (ih outer isPosition _).mpr chosen⟩

/-- A paragraph in two divisions, of which only the outer one is a child of the section. -/
def nestedParagraph : Document :=
  let element (tag : Text) (children : List Html.Node) := Html.Node.element ⟨tag, ∅⟩ children
  ⟨[element "section" [element "div" [element "i" [element "div" [element "p" []]]]]]⟩

def childThenDescendant : Selector :=
  ⟨{ tag := some "p" }, [(.descendant, { tag := some "div" }), (.child, { tag := some "section" })]⟩

/-- The paragraph is selected through the outer division. -/
theorem selectsAt_iff_picks_nestedParagraph :
    parse? "section > div p" = some childThenDescendant ∧
    ∃ paragraph ∈ nestedParagraph.positions,
      (∃ found, paragraph.located? = some found ∧ found.head.tag = "p") ∧
      ∃ chosen : List Position, (∀ other ∈ chosen, other ∈ nestedParagraph.positions) ∧
        chosen.getLast? = some paragraph ∧ childThenDescendant.Picks chosen := by
  obtain ⟨paragraph, isLast⟩ : ∃ paragraph, nestedParagraph.positions[5]? = some paragraph :=
    ⟨_, rfl⟩
  have member := List.mem_of_getElem? isLast
  have selected : childThenDescendant.SelectsAt paragraph := by
    cases isLast
    exact ⟨_, rfl, by decide +kernel⟩
  have isParagraph : ∃ found, paragraph.located? = some found ∧ found.head.tag = "p" := by
    cases isLast
    exact ⟨_, rfl, rfl⟩
  exact ⟨by decide +kernel, paragraph, member, isParagraph,
    (selectsAt_iff_picks nestedParagraph childThenDescendant paragraph member).mp selected⟩

end Selector

end Css

end SlidePress
