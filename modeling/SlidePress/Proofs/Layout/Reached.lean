import SlidePress.Proofs.Layout.RelativeShift

/-! How the block at a place of a document comes about. On the way to it every block sets the next one
at a placement inside itself, and later moves it along with everything else that it holds. So the box
at a place is the box of the element there at some placement, moved; and the placement takes the width
that percentages refer to from the boxes around it. The same is told of two documents at once that
differ in the element at the place, as long as the ways around it cannot tell the difference. -/

namespace SlidePress.Layout

open Polling

variable {α : Type} [Scalar α] {inFlex : Bool} {node other element : Styled α}
  {placement : Placement α} {area : Rect α} {path : List Nat}

/-! ## Boxes at places -/

theorem Box.at?_drifted (drift : Drift α) (path : List Nat) (box : Box α) :
    (box.drifted drift).at? path = (box.at? path).map (Box.drifted drift) := by
  induction path generalizing box with
  | nil => rfl
  | cons index path ih =>
      rw [Box.at?, Box.at?, Box.drifted_eq, List.getElem?_map]
      cases box.children[index]? with
      | none => rfl
      | some child => exact ih child

/-- What is at a place inside a child that was moved twice. -/
theorem Box.at?_cons {index : Nat} {path : List Nat} {box held deep : Box α} {drift own : Drift α}
    (isHeld : box.children[index]? = some ((held.drifted drift).drifted own))
    (isDeep : held.at? path = some deep) :
    box.at? (index :: path) = some ((deep.drifted drift).drifted own) := by
  rw [Box.at?, isHeld, Option.bind_some, Box.at?_drifted, Box.at?_drifted, isDeep]
  rfl

omit [Scalar α] in
theorem Box.at?_append (path rest : List Nat) (box : Box α) :
    box.at? (path ++ rest) = (box.at? path).bind (Box.at? rest) := by
  induction path generalizing box with
  | nil => rfl
  | cons index path ih =>
      rw [List.cons_append, Box.at?, Box.at?]
      cases box.children[index]? with
      | none => rfl
      | some child => exact ih child

def contentWidthOf (node : Styled α) (around : α) (box : Box α) : α :=
  Scalar.positive (box.frame.width - (node.padding around).horizontal - node.border.horizontal)

/-- The width that the percentages of a block at a place refer to, in the boxes of a layout: of the
content of the box around it, or of the padding box that it is placed against if it is absolute. -/
def widthAround : List Nat → Styled α → Box α → α → α → α
  | [], _, _, around, _ => around
  | index :: path, node, box, around, positioned =>
      let hung := if node.isPositioned then box.frame.width - node.border.horizontal else positioned
      match node.children[index]?, box.children[index]? with
      | some child, some inside =>
          widthAround path child inside
            (if child.isAbsolute then hung else contentWidthOf node around box) hung
      | _, _ => around

theorem widthAround_drifted (drift : Drift α) (path : List Nat) (node : Styled α) (box : Box α)
    (around positioned : α) :
    widthAround path node (box.drifted drift) around positioned =
      widthAround path node box around positioned := by
  induction path generalizing node box around positioned with
  | nil => rfl
  | cons index path ih =>
      have inside : (box.drifted drift).children[index]? =
          box.children[index]?.map (Box.drifted drift) := by
        rw [Box.drifted_eq, List.getElem?_map]
      unfold widthAround contentWidthOf
      rw [Box.width_drifted, inside]
      cases node.children[index]? with
      | none => rfl
      | some child =>
          cases box.children[index]? with
          | none => rfl
          | some box => exact ih child box _ _

omit [Scalar α] in
/-- The first step of a way. -/
theorem exists_child_of_blockAt? {index : Nat}
    (found : node.blockAt? (index :: path) = some element) :
    node.tag ≠ "img" ∧ ∃ child, node.children[index]? = some child ∧
      child.standsAlone node.isFlex = true ∧ child.blockAt? path = some element := by
  obtain ⟨head, style, fontSize, before, child, after, rfl, rfl, notImage, alone, inside, -⟩ :=
    exists_of_blockAt?_cons found
  exact ⟨notImage, child, by simp [Styled.children], alone, inside⟩

omit [Scalar α] in
theorem notImage_of_blockAt? (found : node.blockAt? path = some element) : element.tag ≠ "img" := by
  induction path generalizing node with
  | nil =>
      obtain ⟨-, head, style, fontSize, children, rfl, notImage⟩ := exists_of_blockAt?_nil found
      exact notImage
  | cons index path ih =>
      obtain ⟨-, child, -, -, inside⟩ := exists_child_of_blockAt? found
      exact ih inside

def Styled.isItemAt : List Nat → Styled α → Bool
  | [], _ => false
  | index :: path, node =>
      path.isEmpty && node.isFlex || node.children[index]?.any (Styled.isItemAt path)

/-! ## From a block to a child -/

/-- What a block holds in one layout. -/
theorem holds_of_yields {parent child : Styled α} {index : Nat} {box : Box α}
    (notImage : parent.tag ≠ "img") (isChild : parent.children[index]? = some child)
    (yields : (layoutNode parent placement).Yields box) :
    box.Holds parent parent placement .none placement.positioned
      ((moves_layoutNode child).peers parent.isFlex) index box := by
  cases parent with
  | text content style fontSize => cases isChild
  | element head style fontSize children =>
      obtain ⟨before, after, rfl, rfl, -⟩ :=
        exists_modify (show children[index]? = some child from isChild)
      obtain ⟨_, _, first, second, holds⟩ := level_inside notImage rfl
        ((moves_layoutNode child).peers _) rfl rfl .none placement placement.positioned
      rwa [first.unique yields, second.unique yields] at holds

/-! ## Along a way -/

/-- The width around a child is that of the interior that it is set in. -/
theorem widthAround_cons {index : Nat} {path : List Nat} {child : Styled α} {box inside : Box α}
    {drift : Drift α} {taken : α} (isChild : node.children[index]? = some child)
    (isInside : box.children[index]? = some inside)
    (frame : box.frame = drift.carry (blockFrame node placement taken)) :
    widthAround (index :: path) node box placement.containingWidth placement.positioned.width =
      widthAround path child inside
        (if child.isAbsolute then (blockInterior node placement).positioned.width
          else (blockInterior node placement).area.width)
        (blockInterior node placement).positioned.width := by
  have hung : (if node.isPositioned then box.frame.width - node.border.horizontal
      else placement.positioned.width) = (blockInterior node placement).positioned.width := by
    unfold blockInterior
    rw [frame]
    split
    · rfl
    · rfl
  have content : contentWidthOf node placement.containingWidth box =
      (blockInterior node placement).area.width := by
    rw [contentWidthOf, frame]
    rfl
  rw [widthAround, isChild, isInside]
  dsimp only
  rw [hung, content]

/-- The boxes of two nodes, set at the same placement and moved alike. The height that they may be
given there comes about in one of the ways in which heights are given. -/
structure Box.Sets (first second : Styled α) (width positioned : α) (forced : Prop)
    (box set : Box α) : Prop where
  intro ::
  parts : ∃ placement drift inner innerSet,
    (layoutNode first placement).Yields inner ∧ (layoutNode second placement).Yields innerSet ∧
    box = inner.drifted drift ∧ set = innerSet.drifted drift ∧
    placement.containingWidth = width ∧ placement.positioned.width = positioned ∧
    ∀ height, placement.forcedHeight = some height →
      forced ∧ Child.Rises ⟨first, layoutNode first⟩ height

/-- A child that is set by itself in two blocks that resemble each other. -/
theorem Peers.End.sets {parent another : Styled α} {taken : α} {peers : Peers α inFlex}
    {box set : Box α}
    (ends : peers.End parent another placement .none placement.positioned taken box set)
    (first : peers.first = ⟨node, layoutNode node⟩) (second : peers.second = ⟨other, layoutNode other⟩)
    (still : peers.apart = .none) (alone : node.standsAlone inFlex = true)
    (absolute : node.isAbsolute = true → node.style = other.style)
    (resembles : parent.Resembles another) :
    box.Sets node other
      (if node.isAbsolute then (blockInterior parent placement).positioned.width
        else (blockInterior parent placement).area.width)
      (blockInterior parent placement).positioned.width (inFlex = true ∨ node.isAbsolute = true)
      set := by
  have notInLine : ¬ (peers.first.node.standsAlone inFlex = false ∧ set = box.drifted .none) := by
    rw [first]
    exact fun inLine => absurd alone (Bool.eq_false_iff.mp inLine.1)
  obtain ⟨placed, there, drift, inner, innerSet, ends⟩ :=
    (ends.exists_ends resembles .none (.inl rfl) fun isAbsolute => by
      rw [first] at isAbsolute
      rw [first, second]
      exact ⟨absolute isAbsolute, still⟩).resolve_left notInLine
  have yields := ends.first
  have yieldsToo := ends.second
  have width := ends.width
  have rises := ends.rises
  rw [first] at yields width rises
  rw [second, ends.setAt.eq_of_still still] at yieldsToo
  exact ⟨placed, drift, inner, innerSet, yields, yieldsToo, ends.isBox, ends.isSet, width,
    ends.positioned, rises⟩

theorem Box.Sets.drifted {first second : Styled α} {width positioned : α} {forced : Prop}
    {box set : Box α} (sets : box.Sets first second width positioned forced set) (further : Drift α) :
    (box.drifted further).Sets first second width positioned forced (set.drifted further) := by
  obtain ⟨placement, drift, inner, innerSet, yields, yieldsToo, rfl, rfl, placed⟩ := sets
  rw [Box.drifted_drifted, Box.drifted_drifted]
  exact ⟨placement, drift.append further, inner, innerSet, yields, yieldsToo, rfl, rfl, placed⟩

structure Box.Reaches (first second : Styled α) (path : List Nat) (width : α) (forced : Prop)
    (box set : Box α) : Prop where
  intro ::
  blocks : ∃ positioned inner innerSet, box.at? path = some inner ∧ set.at? path = some innerSet ∧
    inner.Sets first second width positioned forced innerSet

/-- A block that takes the place of another one without notice: what is around it is set alike. -/
structure Unnoticed (element another : Styled α) : Prop where
  alike : element.Alike another
  level : ∀ ⦃drift : Drift α⦄, drift.Rigid → ∀ (placement : Placement α) (area : Rect α),
    (layoutNode element placement).Pairs (layoutNode another (placement.carried drift area))
      fun box set => set.frame = drift.carry box.frame
  absolute : element.isAbsolute = true → element.style = another.style

namespace Unnoticed

theorem refl (element : Styled α) : Unnoticed element element :=
  ⟨(Styled.Like.refl element).toAlike,
    fun _ rigid placement area =>
      (moves_layoutNode element rigid placement area).weaken fun _ _ both => both.1,
    fun _ => rfl⟩

def peers (unnoticed : Unnoticed node other) (alone : node.standsAlone inFlex = true) :
    Peers α inFlex where
  first := ⟨node, layoutNode node⟩
  second := ⟨other, layoutNode other⟩
  apart := .none
  rigid := .none
  alike := unnoticed.alike
  level := unnoticed.level
  plain inLine := absurd alone (Bool.eq_false_iff.mp inLine)

/-- What is not noticed inside an element is not noticed outside either. -/
theorem inside {head : Html.Element} {style : Properties} {fontSize : α}
    {before after : List (Styled α)} (unnoticed : Unnoticed node other) (notImage : head.tag ≠ "img")
    (alone : node.standsAlone
      (Styled.element head style fontSize (before ++ node :: after)).isFlex = true) :
    Unnoticed (.element head style fontSize (before ++ node :: after))
      (.element head style fontSize (before ++ other :: after)) where
  alike := .element (Styled.Resembles.refl _).toAkin
    (forall₂_exchanged (fun node => (Styled.Like.refl node).toAlike) unnoticed.alike before after)
  level _ rigid placement area :=
    (level_inside notImage rfl (unnoticed.peers alone) rfl rfl rigid placement area).weaken
      fun _ _ ⟨_, _, _, _, frame, _⟩ => frame
  absolute _ := rfl

/-- How an element comes to its box inside its parent, and another one in its place. -/
theorem sets_inside {head : Html.Element} {style : Properties} {fontSize : α}
    {before after : List (Styled α)} (unnoticed : Unnoticed node other) (notImage : head.tag ≠ "img")
    {parent : Styled α} (isParent : parent = .element head style fontSize (before ++ node :: after))
    (alone : node.standsAlone parent.isFlex = true) (placement : Placement α) :
    (layoutNode parent placement).Pairs
      (layoutNode (.element head style fontSize (before ++ other :: after)) placement)
      fun box set => ∃ (taken : α) (inner innerSet : Box α),
        box.frame =
          (ownDrift parent placement.containingWidth).carry (blockFrame parent placement taken) ∧
        box.children[before.length]? =
          some (inner.drifted (ownDrift parent placement.containingWidth)) ∧
        set.children[before.length]? =
          some (innerSet.drifted (ownDrift parent placement.containingWidth)) ∧
        inner.Sets node other
          (if node.isAbsolute then (blockInterior parent placement).positioned.width
            else (blockInterior parent placement).area.width)
          (blockInterior parent placement).positioned.width
          (parent.isFlex = true ∨ node.isAbsolute = true) innerSet := by
  subst isParent
  refine (level_inside notImage rfl (unnoticed.peers alone) rfl rfl .none placement
    placement.positioned).weaken ?_
  rintro box set ⟨taken, inner, innerSet, frame, -, isInner, isInnerSet, ends, -⟩
  exact ⟨taken, inner, innerSet, frame, isInner, isInnerSet,
    ends.sets rfl rfl rfl alone unnoticed.absolute (.of_head head style fontSize _ _)⟩

variable {change : Styled α → Styled α}

theorem changeAt (unnoticed : Unnoticed element (change element)) {node : Styled α}
    (found : node.blockAt? path = some element) : Unnoticed node (node.changeAt change path) := by
  induction path generalizing node with
  | nil =>
      obtain ⟨rfl, -⟩ := exists_of_blockAt?_nil found
      exact unnoticed
  | cons index path ih =>
      obtain ⟨head, style, fontSize, before, child, after, -, rfl, notImage, alone, inside, changed⟩ :=
        exists_of_blockAt?_cons found
      rw [changed]
      exact (ih inside).inside notImage alone

end Unnoticed

variable {change : Styled α → Styled α}

/-- The ways to a place of two trees are set alike when what is at the place goes unnoticed. -/
theorem reaches_changeAt (unnoticed : Unnoticed element (change element)) (forced : Prop)
    (absolute : element.isAbsolute = true → forced) {node : Styled α}
    (found : node.blockAt? path = some element) (item : node.isItemAt path = true → forced)
    (placement : Placement α) :
    (layoutNode node placement).Pairs (layoutNode (node.changeAt change path) placement)
      fun box set =>
        (path = [] → ∀ height, placement.forcedHeight = some height →
          forced ∧ Child.Rises ⟨node, layoutNode node⟩ height) →
        box.Reaches element (change element) path
          (widthAround path node box placement.containingWidth placement.positioned.width) forced
          set := by
  induction path generalizing node placement with
  | nil =>
      obtain ⟨rfl, -⟩ := exists_of_blockAt?_nil found
      refine (unnoticed.level .none placement placement.positioned).keep.weaken ?_
      rintro box set ⟨yields, yieldsToo, -⟩ rises
      exact ⟨_, box, set, rfl, rfl, placement, .none, box, set, yields, yieldsToo,
        (Box.drifted_none box).symm, (Box.drifted_none set).symm, rfl, rfl, rises rfl⟩
  | cons index path ih =>
      obtain ⟨head, style, fontSize, before, child, after, rfl, rfl, notImage, alone, inside, changed⟩ :=
        exists_of_blockAt?_cons found
      let parent := Styled.element head style fontSize (before ++ child :: after)
      have isChild : parent.children[before.length]? = some child := by simp [parent, Styled.children]
      have itemInside : child.isItemAt path = true → forced := fun isItem => item <| by
        rw [Styled.isItemAt, isChild, Option.any_some, isItem, Bool.or_true]
      rw [changed]
      refine ((unnoticed.changeAt inside).sets_inside notImage rfl alone placement).weaken ?_
      rintro box set ⟨taken, _, _, frame, isHeld, isHeldSet, sets⟩ _
      obtain ⟨placed, drift, inner, innerSet, yields, yieldsToo, rfl, rfl, width, positioned, rises⟩ := sets
      obtain ⟨_, _, again, againToo, reaches⟩ := ih inside itemInside placed
      obtain rfl := yields.unique again
      obtain rfl := yieldsToo.unique againToo
      have risen : path = [] → ∀ height, placed.forcedHeight = some height →
          forced ∧ Child.Rises ⟨child, layoutNode child⟩ height := by
        rintro rfl height isForced
        obtain ⟨rfl, -⟩ := exists_of_blockAt?_nil inside
        obtain ⟨isItem | isAbsolute, rise⟩ := rises height isForced
        · exact ⟨item (Bool.or_eq_true_iff.mpr (.inl isItem)), rise⟩
        · exact ⟨absolute isAbsolute, rise⟩
      obtain ⟨around, deep, deepSet, isDeep, isDeepSet, sets⟩ := reaches risen
      refine ⟨around, _, _, Box.at?_cons isHeld isDeep, Box.at?_cons isHeldSet isDeepSet, ?_⟩
      rw [widthAround_cons isChild isHeld frame, widthAround_drifted, widthAround_drifted, ← width,
        ← positioned]
      exact (sets.drifted drift).drifted _

/-! ## Documents -/

/-- The style of a document itself does not depend on what is in it. -/
theorem style_styledFreely (author : Css.Stylesheet) (document : Html.Document) :
    (styledFreely author document : Styled α).style =
      (settle ⟨∅, defaultFontSize⟩ ∅ : Surroundings α).style := by
  obtain ⟨_, inside, steady⟩ := (cancellable_styleNodes [some Css.Stylesheet.userAgent, some author] []
    (settle ⟨∅, defaultFontSize⟩ ∅ : Surroundings α) document.children).steady
  have yields : (styleDocument author document : Polling (Styled α)).Yields
      (assembleElement documentElement (settle ⟨∅, defaultFontSize⟩ ∅) inside) :=
    yields_poll.bind (steady.unchecked.bind fun _ => rfl)
  rw [styledFreely, yields.freely]
  rfl

def Box.filled (path : List Nat) (height : α) (box : Box α) : Box α :=
  if path.isEmpty then box.atLeast height else box

theorem Box.y_filled (path : List Nat) (height : α) (box : Box α) :
    (box.filled path height).frame.y = box.frame.y := by
  unfold filled
  split <;> rfl

theorem Box.width_filled (path : List Nat) (height : α) (box : Box α) :
    (box.filled path height).frame.width = box.frame.width := by
  unfold filled
  split <;> rfl

/-- A layout that fills the viewport has a box at a place, with everything that is in the box. -/
structure Box.HasAt (layout : Box α) (height : α) (path : List Nat) (box : Box α) : Prop where
  here : layout.at? path = some (box.filled path height)
  below : ∀ rest ≠ [], layout.at? (path ++ rest) = box.at? rest

theorem Box.hasAt_atLeast (height : α) {box inner : Box α} (isInner : box.at? path = some inner) :
    (box.atLeast height).HasAt height path inner := by
  have inside : ∀ {outer : Box α}, outer.children = inner.children → ∀ rest ≠ [],
      outer.at? rest = inner.at? rest := by
    intro outer same rest below
    cases rest with
    | nil => exact absurd rfl below
    | cons index rest => rw [Box.at?, Box.at?, same]
  cases path with
  | nil =>
      obtain rfl : box = inner := Option.some.inj isInner
      exact ⟨rfl, inside rfl⟩
  | cons index path =>
      refine ⟨isInner, fun rest _ => ?_⟩
      exact (Box.at?_append (index :: path) rest box).trans (by rw [isInner]; rfl)

theorem Box.HasAt.child {layout box child : Box α} {height : α} (has : layout.HasAt height path box)
    {index : Nat} (isChild : box.children[index]? = some child) :
    layout.at? (path ++ [index]) = some child := by
  rw [has.below [index] (List.cons_ne_nil _ _), Box.at?, isChild]
  rfl

/-- The width that the percentages of the element at a place of a document refer to. -/
def widthAt (author : Css.Stylesheet) (viewport : Viewport α) (document : Html.Document)
    (path : List Nat) : α :=
  widthAround path (styledFreely author document) (layoutFreely author viewport document)
    viewport.width viewport.width

theorem widthAround_atLeast (height : α) (path : List Nat) (node : Styled α) (box : Box α)
    (around positioned : α) :
    widthAround path node (box.atLeast height) around positioned =
      widthAround path node box around positioned := by
  cases path with
  | nil => rfl
  | cons index path => rfl

/-- A block is given its height only in a certain case, and gets one that comes about as heights of
items do. -/
def Placement.GivesHeightIf (allowed : Prop) (element : Styled α) (placement : Placement α) : Prop :=
  ∀ height, placement.forcedHeight = some height →
    allowed ∧ Child.Rises ⟨element, layoutNode element⟩ height

theorem Placement.GivesHeightIf.unforced {allowed : Prop}
    (gives : placement.GivesHeightIf allowed element) (notAllowed : ¬ allowed) :
    placement.forcedHeight = none :=
  Option.eq_none_iff_forall_ne_some.mpr fun height forced => notAllowed (gives height forced).1

def MayBeGivenHeight (author : Css.Stylesheet) (document : Html.Document) (path : List Nat)
    (element : Styled α) : Prop :=
  (styledFreely author document : Styled α).isItemAt path = true ∨ element.isAbsolute = true

/-- The block at a place of a document, in its layout and in that of the document where another block
has taken its place without notice: both are set at the same placement and moved alike. -/
theorem documents_reach (author : Css.Stylesheet) (viewport : Viewport α) (document : Html.Document)
    (unnoticed : Unnoticed element (change element))
    (found : (styledFreely author document).blockAt? path = some element) :
    ∃ placement drift, ∃ box set : Box α,
      (layoutFreely author viewport document).HasAt viewport.height path (box.drifted drift) ∧
      (layoutRoot viewport ((styledFreely author document).changeAt change path)).freely.HasAt
        viewport.height path (set.drifted drift) ∧
      (layoutNode element placement).Yields box ∧ (layoutNode (change element) placement).Yields set ∧
      placement.containingWidth = widthAt author viewport document path ∧
      placement.GivesHeightIf (MayBeGivenHeight author document path element) element := by
  have ways := reaches_changeAt unnoticed (MayBeGivenHeight author document path element) .inr
    found .inl (rootPlacement viewport)
  obtain ⟨root, rootSet, reaches, isRoot, isRootSet⟩ := (pairs_rootPlacement ways).freely
  obtain ⟨_, _, _, atPlace, atPlaceSet, placement, drift, box, set, yields, yieldsSet, rfl, rfl, width,
    -, gives⟩ := reaches fun _ _ forced => nomatch forced
  have isLayout := (layoutFreely_eq author viewport document).trans isRoot
  rw [widthAt, isLayout, isRootSet, widthAround_atLeast]
  exact ⟨placement, drift, box, set, Box.hasAt_atLeast viewport.height atPlace,
    Box.hasAt_atLeast viewport.height atPlaceSet, yields, yieldsSet, width, gives⟩

/-- The box at a place of a document is that of the element there at a placement, moved. -/
theorem exists_placement (author : Css.Stylesheet) (viewport : Viewport α) (document : Html.Document)
    (found : (styledFreely author document).blockAt? path = some element) :
    ∃ placement drift, ∃ box : Box α,
      (layoutFreely author viewport document).HasAt viewport.height path (box.drifted drift) ∧
      (layoutNode element placement).Yields box ∧
      placement.containingWidth = widthAt author viewport document path ∧
      placement.GivesHeightIf (MayBeGivenHeight author document path element) element := by
  have unnoticed : Unnoticed element (id element) := .refl element
  obtain ⟨placement, drift, box, _, has, -, yields, -, width, gives⟩ :=
    documents_reach author viewport document unnoticed found
  exact ⟨placement, drift, box, has, yields, width, gives⟩

end SlidePress.Layout
