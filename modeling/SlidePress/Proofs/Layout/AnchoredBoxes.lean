import Mathlib.Algebra.Order.Field.Basic
import Mathlib.Tactic.Linarith
import Mathlib.Tactic.Positivity
import Mathlib.Tactic.Ring
import SlidePress.Proofs.Layout.HeldSizes

/-! Boxes that hang from a bottom offset. The bottom edge of an absolute child of a positioned block
stands off that of the padding box of the block, whatever height the block comes to take. An absolute
box further down is set before the height of the block is known, and is not set again: unless the
height is given to the block from outside, it hangs as if the content of the block had no height. -/

namespace SlidePress.Layout

open Polling

/-! ## Ways to absolute boxes -/

section Ways

variable {α : Type}

/-- No node on the way to a place has a position, the nodes at both ends left aside. -/
def Styled.isNearest : List Nat → Styled α → Bool
  | [], _ => true
  | index :: path, node => path.isEmpty ||
      node.children[index]?.any fun child => !child.isPositioned && child.isNearest path

variable [Scalar α]

/-- Some row lifts an item that the place is inside of. -/
def Styled.isLiftedTo : List Nat → Styled α → Prop
  | [], _ => False
  | index :: path, node => path ≠ [] ∧ ∃ child, node.children[index]? = some child ∧
      ((node.isFlex = true ∧ ∃ interior, Lifts node interior child) ∨ child.isLiftedTo path)

variable {node hung : Styled α} {placement : Placement α} {path : List Nat} {index : Nat} {box : Box α}

theorem ownDrift_of_unpositioned (unpositioned : node.isPositioned = false) (containingWidth : α) :
    ownDrift node containingWidth = .none := by
  have still : (node.value "position" == "relative") = false := by
    refine beq_eq_false_iff_ne.mpr fun relative => ?_
    cases unpositioned.symm.trans (positioned_of_relative relative).1
  rw [ownDrift, still]
  rfl

omit [Scalar α] in
theorem not_absolute_of_unpositioned (unpositioned : node.isPositioned = false) :
    node.isAbsolute = false := by
  refine Bool.eq_false_iff.mpr fun isAbsolute => ?_
  unfold Styled.isPositioned Styled.valueD at unpositioned
  unfold Styled.isAbsolute Styled.value styleValueOf at isAbsolute
  unfold styleValue at unpositioned isAbsolute
  cases position : node.style.get? "position" with
  | none =>
      rw [position] at isAbsolute
      exact absurd isAbsolute (by decide)
  | some value =>
      rw [position] at unpositioned isAbsolute
      dsimp only at unpositioned isAbsolute
      rw [bne_eq_false_iff_eq.mp unpositioned] at isAbsolute
      exact absurd isAbsolute (by decide)

/-- An absolute box at a place inside a block. A child is placed against what the block has for
absolute boxes at last, a box further down against what the block had when it was set. -/
structure Box.Hangs (node hung : Styled α) (placement : Placement α) (index : Nat) (path : List Nat)
    (box : Box α) : Prop where
  intro ::
  parts : ∃ taken inner drift staticX staticY,
    box.frame = (ownDrift node placement.containingWidth).carry (blockFrame node placement taken) ∧
    (layoutAbsolute ⟨hung, layoutNode hung⟩
      (if path = [] then hangArea node placement taken else (blockInterior node placement).positioned)
      staticX staticY).Yields inner ∧
    box.at? (index :: path) =
      some ((inner.drifted drift).drifted (ownDrift node placement.containingWidth)) ∧
    (drift.down = [] ∨ node.isLiftedTo (index :: path))

theorem positioned_of_unpositioned (unpositioned : node.isPositioned = false) (taken : α) :
    (if path = [] then hangArea node placement taken else (blockInterior node placement).positioned) =
      placement.positioned := by
  have outside : (blockInterior node placement).positioned = placement.positioned := by
    unfold blockInterior
    rw [unpositioned]
    rfl
  have once : setsAgain node placement = false := by
    rw [setsAgain, unpositioned, Bool.false_and]
  split
  · rw [hangArea, once, if_neg Bool.false_ne_true, outside]
  · exact outside

/-- A child in the flow of a block is set inside the block, and no row but one that lifts it moves it
up or down. -/
theorem exists_within {child : Styled α} {taken : α} {held set : Box α}
    (alone : child.standsAlone node.isFlex = true) (inFlow : child.isAbsolute = false)
    (ends : ((moves_layoutNode child).peers node.isFlex).End node node placement .none
      placement.positioned taken held set) :
    ∃ placed inner drift, placed.Within (blockInterior node placement) ∧
      (layoutNode child placed).Yields inner ∧ held = inner.drifted drift ∧
      (drift.down = [] ∨ node.isFlex = true ∧ Lifts node (blockInterior node placement) child) := by
  cases ends with
  | absolute isAbsolute => cases inFlow.symm.trans isAbsolute
  | inFlow _ come =>
      cases come with
      | line inLine => cases alone.symm.trans inLine
      | @block placed _ _ _ _ within _ _ yields _ =>
          exact ⟨placed, held, .none, within, yields, (Box.drifted_none held).symm, .inl rfl⟩
      | @item placed inner _ _ lift isItem _ within _ lifted _ yields _ =>
          exact ⟨placed, inner, lift, within, yields, rfl, lifted.imp_right (⟨isItem, ·⟩)⟩
      | absolute isAbsolute => cases inFlow.symm.trans isAbsolute

/-- How an absolute box at a place comes about. -/
theorem hangs_of_yields (found : node.blockAt? (index :: path) = some hung)
    (isAbsolute : hung.isAbsolute = true) (nearest : node.isNearest (index :: path) = true)
    (yields : (layoutNode node placement).Yields box) : box.Hangs node hung placement index path := by
  induction path generalizing node placement index box with
  | nil =>
      obtain ⟨notImage, child, isChild, -, inside⟩ := exists_child_of_blockAt? found
      obtain ⟨rfl, -⟩ := exists_of_blockAt?_nil inside
      obtain ⟨taken, held, _, frame, -, isHeld, -, ends, -⟩ := holds_of_yields notImage isChild yields
      cases ends with
      | inFlow inFlow => cases inFlow.symm.trans isAbsolute
      | @absolute staticY _ _ _ hangs _ =>
          refine ⟨taken, held, .none, _, _, frame, hangs, ?_, .inl rfl⟩
          exact Box.at?_cons (by rw [Box.drifted_none]; exact isHeld) rfl
  | cons next path ih =>
      obtain ⟨notImage, child, isChild, alone, inside⟩ := exists_child_of_blockAt? found
      obtain ⟨taken, _, _, frame, -, isHeld, -, ends, -⟩ := holds_of_yields notImage isChild yields
      rw [Styled.isNearest, isChild, List.isEmpty_cons, Bool.false_or, Option.any_some,
        Bool.and_eq_true, Bool.not_eq_true'] at nearest
      obtain ⟨unpositioned, nearer⟩ := nearest
      obtain ⟨placed, inner, drift, within, yieldsInner, rfl, lifted⟩ :=
        exists_within alone (not_absolute_of_unpositioned unpositioned) ends
      obtain ⟨takenInside, deep, further, staticX, staticY, -, hangs, isDeep, liftedInside⟩ :=
        ih inside nearer yieldsInner
      rw [positioned_of_unpositioned unpositioned, within.positioned] at hangs
      rw [ownDrift_of_unpositioned unpositioned, Box.drifted_none] at isDeep
      refine ⟨taken, deep, further.append drift, staticX, staticY, frame, hangs, ?_, ?_⟩
      · rw [Box.at?_cons isHeld isDeep, ← Box.drifted_drifted further drift]
      · rcases lifted with level | lifted
        · refine liftedInside.imp (fun levelInside => ?_) fun liftedInside => ?_
          · exact List.append_eq_nil_iff.mpr ⟨levelInside, level⟩
          · exact ⟨List.cons_ne_nil next path, child, isChild, .inr liftedInside⟩
        · exact .inr ⟨List.cons_ne_nil next path, child, isChild, .inl ⟨lifted.1, _, lifted.2⟩⟩

end Ways

/-! ## Bottom edges -/

variable {node hung : Styled ℚ} {placement : Placement ℚ} {path : List Nat} {index : Nat}

def lowEdge (rect : Rect ℚ) : ℚ := rect.y + rect.height

/-- An absolute box with a bottom offset stands off the bottom edge of what it is placed against. -/
theorem lowEdge_of_layoutAbsolute {area : Rect ℚ} {staticX staticY bottom : ℚ} {box : Box ℚ}
    (noTop : hung.offset? "top" area.height = none)
    (isBottom : hung.offset? "bottom" area.height = some bottom)
    (yields : (layoutAbsolute ⟨hung, layoutNode hung⟩ area staticX staticY).Yields box) :
    lowEdge box.frame + (hung.margin area.width).bottom + bottom = lowEdge area := by
  let place := absolutePlacement hung area staticX staticY
  obtain ⟨inner, yieldsInner⟩ := exists_layoutNode hung place
  have hangs := exists_of_layoutAbsolute yields yieldsInner
  have frame : box.frame = (hangDrift hung area inner.frame).carry inner.frame := by
    rw [hangs, Box.frame_drifted]
  unfold hangDrift hangsBy? at frame
  rw [noTop, isBottom] at frame
  rw [frame]
  simp only [lowEdge, Drift.carry, Drift.below, List.foldl_cons, List.foldl_nil]
  ring

/-- What a block without a fixed height is given for its height is not negative. -/
theorem nonneg_of_rises (notImage : node.tag ≠ "img")
    (noHeight : ∀ base, node.fixedHeight? base = none) {height : ℚ}
    (rises : Child.Rises ⟨node, layoutNode node⟩ height) : 0 ≤ height := by
  induction rises with
  | positive distance =>
      rw [rational_positive]
      exact le_max_left 0 distance
  | basis least => rwa [rational_zero] at least
  | fixed style => cases (noHeight _).symm.trans style
  | own yields =>
      obtain ⟨taken, frame⟩ := exists_blockFrame notImage yields
      rw [frame]
      change 0 ≤ Scalar.positive _
      rw [rational_positive]
      exact le_max_left 0 _
  | grown factor base room growing ih =>
      rw [rational_zero] at room growing
      rw [rational_positive]
      have growth : 0 ≤ max 0 factor := le_max_left 0 factor
      positivity

/-- Where the padding box of a block ends, before it is moved by offsets of its own. -/
def lowPadding (node : Styled ℚ) (placement : Placement ℚ) (taken : ℚ) : ℚ :=
  lowEdge (blockFrame node placement taken) - node.border.bottom

/-- A block whose height is known is as high at last as it was known to be. -/
theorem lowEdge_of_known (positioned : node.isPositioned = true) {height : ℚ}
    (forced : placement.forcedHeight = some height) (nonneg : 0 ≤ height) (taken : ℚ) :
    lowEdge (blockInterior node placement).positioned = lowPadding node placement taken := by
  have known : knownHeight? node placement =
      some (max 0 (height - (node.padding placement.containingWidth).vertical -
        node.border.vertical)) := by
    unfold knownHeight?
    rw [forced, Option.some_or, Option.map_some, rational_positive]
  have frame := height_of_known known taken
  have enough : 0 ≤ max 0 (height - (node.padding placement.containingWidth).vertical -
      node.border.vertical) + (node.padding placement.containingWidth).vertical +
        node.border.vertical := by
    have least := le_max_right 0 (height - (node.padding placement.containingWidth).vertical -
      node.border.vertical)
    linarith
  rw [max_eq_right enough] at frame
  unfold lowPadding lowEdge
  rw [frame]
  unfold blockInterior paddingArea
  rw [if_pos positioned, known, Option.getD_some]
  unfold blockFrame Edges.vertical
  dsimp only
  ring

/-- The interior of a block whose height nothing tells counts as empty. -/
theorem lowEdge_of_unknown (positioned : node.isPositioned = true)
    (unknown : knownHeight? node placement = none) :
    lowEdge (blockInterior node placement).positioned = placement.y + node.border.top +
      (node.padding placement.containingWidth).vertical := by
  unfold blockInterior paddingArea lowEdge
  rw [if_pos positioned, unknown, Option.getD_none, rational_zero, zero_add]

/-- An absolute child is placed against the padding box that its parent has at last. -/
theorem lowEdge_hangArea (positioned : node.isPositioned = true)
    (noHeight : ∀ base, node.fixedHeight? base = none)
    (nonneg : ∀ height, placement.forcedHeight = some height → 0 ≤ height) (taken : ℚ) :
    lowEdge (hangArea node placement taken) = lowPadding node placement taken := by
  cases forced : placement.forcedHeight with
  | some height =>
      have once : setsAgain node placement = false := by
        rw [setsAgain, knownHeight?, forced]
        exact Bool.and_false _
      rw [hangArea, once, if_neg Bool.false_ne_true]
      exact lowEdge_of_known positioned forced (nonneg height forced) taken
  | none =>
      have again : setsAgain node placement = true := by
        rw [setsAgain, knownHeight?_of_free noHeight forced, positioned]
        rfl
      rw [hangArea, again, if_pos rfl]
      unfold paddingArea lowPadding lowEdge blockFrame Edges.vertical
      dsimp only
      ring

/-! ## Boxes that hang inside a block -/

def Drift.depth (drift : Drift ℚ) : ℚ := drift.down.foldl (· + ·) 0

theorem Drift.y_carry (drift : Drift ℚ) (rect : Rect ℚ) :
    (drift.carry rect).y = rect.y + drift.depth := by
  have steps : ∀ (steps : List ℚ) (start further : ℚ),
      steps.foldl (· + ·) (start + further) = start + steps.foldl (· + ·) further := by
    intro steps
    induction steps with
    | nil => exact fun _ _ => rfl
    | cons step rest ih =>
        intro start further
        rw [List.foldl_cons, List.foldl_cons, add_assoc, ih]
  exact (congrArg (drift.down.foldl (· + ·)) (add_zero rect.y).symm).trans (steps _ _ _)

theorem lowEdge_carry (drift : Drift ℚ) (rect : Rect ℚ) :
    lowEdge (drift.carry rect) = lowEdge rect + drift.depth := by
  rw [lowEdge, Drift.y_carry, lowEdge, add_right_comm]
  rfl

theorem Drift.depth_of_level {drift : Drift ℚ} (level : drift.down = []) : drift.depth = 0 := by
  rw [depth, level]
  rfl

theorem width_positioned (positioned : node.isPositioned = true) (taken : ℚ) :
    (blockInterior node placement).positioned.width =
      (blockFrame node placement taken).width - node.border.horizontal := by
  unfold blockInterior
  rw [if_pos positioned]
  rfl

theorem width_against (positioned : node.isPositioned = true) (taken : ℚ) :
    (if path = [] then hangArea node placement taken
      else (blockInterior node placement).positioned).width =
        (blockFrame node placement taken).width - node.border.horizontal := by
  rw [← width_positioned positioned]
  split
  · exact width_hangArea node placement taken
  · rfl

/-- Where an absolute box inside a block hangs from, by its bottom margin and offset. -/
def hangsFrom (around hung : Styled ℚ) (bottom : ℚ) (box inner : Box ℚ) : ℚ :=
  lowEdge inner.frame + (hung.margin (box.frame.width - around.border.horizontal)).bottom + bottom

/-- What moves a block moves what hangs inside. -/
theorem hangsFrom_drifted (around : Styled ℚ) (bottom : ℚ) (drift : Drift ℚ) (box inner : Box ℚ) :
    hangsFrom around hung bottom (box.drifted drift) (inner.drifted drift) =
      hangsFrom around hung bottom box inner + drift.depth := by
  rw [hangsFrom, hangsFrom, Box.width_drifted, Box.frame_drifted, lowEdge_carry]
  ring

structure HangsInBlock (around hung : Styled ℚ) (bottom : ℚ) (placement : Placement ℚ)
    (path : List Nat) (lifted : Prop) (box inner : Box ℚ) : Prop where
  child : path = [] →
    hangsFrom around hung bottom box inner = lowEdge box.frame - around.border.bottom
  free : path ≠ [] → ¬ lifted → placement.forcedHeight = none →
    hangsFrom around hung bottom box inner =
      box.frame.y + around.border.top + (around.padding placement.containingWidth).vertical
  forced : path ≠ [] → ¬ lifted → placement.forcedHeight ≠ none →
    hangsFrom around hung bottom box inner = lowEdge box.frame - around.border.bottom

theorem exists_hangsInBlock {bottom : ℚ} {box : Box ℚ} (positioned : node.isPositioned = true)
    (noHeight : ∀ base, node.fixedHeight? base = none)
    (nonneg : ∀ height, placement.forcedHeight = some height → 0 ≤ height)
    (inside : node.blockAt? (index :: path) = some hung) (isAbsolute : hung.isAbsolute = true)
    (nearest : node.isNearest (index :: path) = true) (isBottom : hung.pixels? "bottom" = some bottom)
    (noTop : ∀ base, hung.offset? "top" base = none) (yields : (layoutNode node placement).Yields box) :
    ∃ inner, box.at? (index :: path) = some inner ∧
      HangsInBlock node hung bottom placement path (node.isLiftedTo (index :: path)) box inner := by
  obtain ⟨taken, deep, further, staticX, staticY, frame, hangs, isDeep, lifted⟩ :=
    hangs_of_yields inside isAbsolute nearest yields
  have edge := lowEdge_of_layoutAbsolute (noTop _) (offset?_of_pixels? isBottom _) hangs
  have width : box.frame.width = (blockFrame node placement taken).width := by simp [frame, Drift.carry]
  rw [width_against positioned, ← width] at edge
  -- The box hangs from what it was placed against, unless a row has lifted it.
  have fromArea : further.depth = 0 → hangsFrom node hung bottom box
      ((deep.drifted further).drifted (ownDrift node placement.containingWidth)) =
        lowEdge (if path = [] then hangArea node placement taken
          else (blockInterior node placement).positioned) +
            (ownDrift node placement.containingWidth).depth := by
    intro level
    rw [hangsFrom, ← edge, Box.frame_drifted, Box.frame_drifted, lowEdge_carry, lowEdge_carry, level]
    ring
  have low : lowPadding node placement taken + (ownDrift node placement.containingWidth).depth =
      lowEdge box.frame - node.border.bottom := by
    rw [frame, lowEdge_carry, lowPadding]
    ring
  refine ⟨_, isDeep, fun isChild => ?_, fun isDeeper notLifted free => ?_,
    fun isDeeper notLifted isForced => ?_⟩
  · have level : further.down = [] := lifted.resolve_right fun isLifted => isLifted.1 isChild
    rw [fromArea (Drift.depth_of_level level), if_pos isChild, ← low,
      lowEdge_hangArea positioned noHeight nonneg]
  · rw [fromArea (Drift.depth_of_level (lifted.resolve_right notLifted)), if_neg isDeeper,
      lowEdge_of_unknown positioned (knownHeight?_of_free noHeight free), frame, Drift.y_carry]
    unfold blockFrame
    dsimp only
    ring
  · obtain ⟨height, isHeight⟩ := Option.ne_none_iff_exists'.mp isForced
    rw [fromArea (Drift.depth_of_level (lifted.resolve_right notLifted)), if_neg isDeeper, ← low,
      lowEdge_of_known positioned isHeight (nonneg height isHeight) taken]

theorem HangsInBlock.drifted {around : Styled ℚ} {bottom : ℚ} {lifted : Prop} {box inner : Box ℚ}
    (hangs : HangsInBlock around hung bottom placement path lifted box inner) (drift : Drift ℚ) :
    HangsInBlock around hung bottom placement path lifted (box.drifted drift) (inner.drifted drift) := by
  have low : lowEdge (box.drifted drift).frame - around.border.bottom =
      lowEdge box.frame - around.border.bottom + drift.depth := by
    rw [Box.frame_drifted, lowEdge_carry]
    ring
  refine ⟨fun isChild => ?_, fun isDeeper notLifted free => ?_, fun isDeeper notLifted forced => ?_⟩
  · rw [hangsFrom_drifted, hangs.child isChild, low]
  · rw [hangsFrom_drifted, hangs.free isDeeper notLifted free, Box.frame_drifted, Drift.y_carry]
    ring
  · rw [hangsFrom_drifted, hangs.forced isDeeper notLifted forced, low]

/-! ## Documents -/

/-- A document has no position. -/
theorem styledFreely_unpositioned (author : Css.Stylesheet) (document : Html.Document) :
    (styledFreely author document : Styled ℚ).isPositioned = false := by
  rw [Styled.isPositioned, Styled.valueD, style_styledFreely]
  decide +kernel

/-- The bottom offset of an absolute box counts from the padding box of the block that the box is a
child of. For a box further down it counts from where the padding box would end without content, or
from where it ends if the height is given to the block from outside. -/
theorem hangs_from_bottom (author : Css.Stylesheet) (viewport : Viewport ℚ)
    (document : Html.Document) {outer : List Nat} {around : Styled ℚ} {bottom : ℚ}
    (found : (styledFreely author document).blockAt? outer = some around)
    (positioned : around.isPositioned = true) (noHeight : ∀ base, around.fixedHeight? base = none)
    (inside : around.blockAt? (index :: path) = some hung)
    (nearest : around.isNearest (index :: path) = true) (isAbsolute : hung.isAbsolute = true)
    (isBottom : hung.pixels? "bottom" = some bottom) (noTop : ∀ base, hung.offset? "top" base = none) :
    ∃ box inner : Box ℚ, (layoutFreely author viewport document).at? outer = some box ∧
      (layoutFreely author viewport document).at? (outer ++ index :: path) = some inner ∧
      let hangsFrom := lowEdge inner.frame +
        (hung.margin (box.frame.width - around.border.horizontal)).bottom + bottom
      (path = [] → hangsFrom = lowEdge box.frame - around.border.bottom) ∧
      (path ≠ [] → ¬ around.isLiftedTo (index :: path) →
        hangsFrom = box.frame.y + around.border.top +
            (around.padding (widthAt author viewport document outer)).vertical ∨
          ((styledFreely author document : Styled ℚ).isItemAt outer = true ∨
              around.isAbsolute = true) ∧
            hangsFrom = lowEdge box.frame - around.border.bottom) := by
  obtain ⟨placement, drift, held, has, yields, width, gives⟩ :=
    exists_placement author viewport document found
  have nonneg : ∀ height, placement.forcedHeight = some height → 0 ≤ height := fun height forced =>
    nonneg_of_rises (notImage_of_blockAt? found) noHeight (gives height forced).2
  obtain ⟨inner, isInner, hangs⟩ :=
    exists_hangsInBlock positioned noHeight nonneg inside isAbsolute nearest isBottom noTop yields
  have isInside : outer.isEmpty = false := by
    cases outer with
    | cons next outer => rfl
    | nil =>
        obtain ⟨rfl, -⟩ := exists_of_blockAt?_nil found
        cases (styledFreely_unpositioned author document).symm.trans positioned
  have atOuter := has.here
  rw [Box.filled, isInside, if_neg Bool.false_ne_true] at atOuter
  have atHung : (layoutFreely author viewport document).at? (outer ++ index :: path) =
      some (inner.drifted drift) := by
    rw [has.below _ (List.cons_ne_nil _ _), Box.at?_drifted, isInner]
    rfl
  have moved := hangs.drifted drift
  rw [← width]
  refine ⟨_, _, atOuter, atHung, moved.child, fun isDeeper notLifted => ?_⟩
  cases forced : placement.forcedHeight with
  | none => exact .inl (moved.free isDeeper notLifted forced)
  | some height =>
      refine .inr ⟨(gives height forced).1, moved.forced isDeeper notLifted ?_⟩
      exact Option.ne_none_iff_exists'.mpr ⟨height, forced⟩

/-! ## Pages -/

def hangingPage : Html.Document :=
  let hung : Text := "<div style=\"position:absolute;bottom:0px\">x</div>"
  let high : Text := "<div style=\"height:50px\">" ++ hung ++ "</div>"
  (Html.Document.parse ("<div style=\"position:relative\">" ++ high ++ hung ++ "</div>")).1

/-- A block that takes its height from its content, and an absolute box inside that hangs from the
bottom of the block. -/
structure HangsInside (path : List Nat) (around hung : Styled ℚ) : Prop where
  found : (styledFreely ⟨[]⟩ hangingPage : Styled ℚ).blockAt? [0] = some around
  positioned : around.isPositioned = true
  noHeight : ∀ base, around.fixedHeight? base = none
  inside : around.blockAt? path = some hung
  nearest : around.isNearest path = true
  isAbsolute : hung.isAbsolute = true
  isBottom : hung.pixels? "bottom" = some 0
  noTop : ∀ base, hung.offset? "top" base = none

theorem exists_hangsInside (path : List Nat)
    (reads : ((styledFreely ⟨[]⟩ hangingPage : Styled ℚ).blockAt? [0]).map (fun around =>
      (around.isPositioned && (around.value "height").isEmpty && around.isNearest path,
        (around.blockAt? path).map fun hung =>
          (hung.isAbsolute && (hung.value "top").isEmpty, hung.pixels? "bottom"))) =
      some (true, some (true, some 0))) :
    ∃ around hung, HangsInside path around hung := by
  obtain ⟨around, found, reads⟩ := Option.map_eq_some_iff.mp reads
  simp only [Prod.mk.injEq, Bool.and_eq_true, Option.map_eq_some_iff] at reads
  obtain ⟨⟨⟨positioned, height⟩, nearest⟩, hung, inside, ⟨isAbsolute, top⟩, isBottom⟩ := reads
  refine ⟨around, hung, found, positioned, fun base => ?_, inside, nearest, isAbsolute, isBottom,
    fun base => ?_⟩
  · rw [Styled.fixedHeight?, List.isEmpty_iff.mp height]
    rfl
  · rw [Styled.offset?, Styled.length?, List.isEmpty_iff.mp top]
    rfl

/-- The absolute child hangs from the bottom of the block. -/
theorem hangs_from_bottom_child : ∃ (around hung : Styled ℚ) (box inner : Box ℚ),
    HangsInside [1] around hung ∧
    (layoutFreely ⟨[]⟩ ⟨800, 600⟩ hangingPage).at? [0] = some box ∧
    (layoutFreely ⟨[]⟩ ⟨800, 600⟩ hangingPage).at? [0, 1] = some inner ∧
    lowEdge inner.frame + (hung.margin (box.frame.width - around.border.horizontal)).bottom + 0 =
      lowEdge box.frame - around.border.bottom := by
  obtain ⟨around, hung, hangs⟩ := exists_hangsInside [1] (by decide +kernel)
  obtain ⟨box, inner, atOuter, atHung, isChild, -⟩ := hangs_from_bottom ⟨[]⟩ ⟨800, 600⟩ hangingPage
    hangs.found hangs.positioned hangs.noHeight hangs.inside hangs.nearest hangs.isAbsolute
    hangs.isBottom hangs.noTop
  exact ⟨around, hung, box, inner, hangs, atOuter, atHung, isChild rfl⟩

/-- The absolute box further down hangs from the top. -/
theorem not_hangs_from_bottom : ∃ (around hung : Styled ℚ) (box inner : Box ℚ),
    HangsInside [0, 0] around hung ∧
    (layoutFreely ⟨[]⟩ ⟨800, 600⟩ hangingPage).at? [0] = some box ∧
    (layoutFreely ⟨[]⟩ ⟨800, 600⟩ hangingPage).at? [0, 0, 0] = some inner ∧
    lowEdge inner.frame + (hung.margin (box.frame.width - around.border.horizontal)).bottom + 0 ≠
      lowEdge box.frame - around.border.bottom := by
  obtain ⟨around, hung, hangs⟩ := exists_hangsInside [0, 0] (by decide +kernel)
  have edges : (((styledFreely ⟨[]⟩ hangingPage : Styled ℚ).blockAt? [0]).bind fun around =>
      (around.blockAt? [0, 0]).bind fun hung =>
        ((layoutFreely ⟨[]⟩ ⟨800, 600⟩ hangingPage).at? [0]).bind fun box =>
          ((layoutFreely ⟨[]⟩ ⟨800, 600⟩ hangingPage).at? [0, 0, 0]).map fun inner =>
            (lowEdge inner.frame + (hung.margin (box.frame.width - around.border.horizontal)).bottom + 0,
              lowEdge box.frame - around.border.bottom)) = some (0, 50) := by decide +kernel
  rw [hangs.found, Option.bind_some, hangs.inside, Option.bind_some] at edges
  obtain ⟨box, isBox, edges⟩ := Option.bind_eq_some_iff.mp edges
  obtain ⟨inner, isInner, edges⟩ := Option.map_eq_some_iff.mp edges
  rw [Prod.mk.injEq] at edges
  refine ⟨around, hung, box, inner, hangs, isBox, isInner, fun same => ?_⟩
  rw [edges.1, edges.2] at same
  exact absurd same (by decide)

end SlidePress.Layout
