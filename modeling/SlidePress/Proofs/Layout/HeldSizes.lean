import SlidePress.Proofs.Layout.Reached

/-! Least and greatest sizes. The width of a block in a flow is held between its limits, and the least
width counts where they contradict each other. Of heights this holds only where the style does not
fix one: a height that is fixed is not held at all, and where the limits contradict each other the
greatest height counts. -/

namespace SlidePress.Layout

open Polling

/-- A size lies between two limits, and above the least one where they contradict each other. -/
structure Held (least most size : ℚ) : Prop where
  between : least ≤ most → least ≤ size ∧ size ≤ most
  above : most < least → least ≤ size

structure Edges.IsNonneg (edges : Edges ℚ) : Prop where
  top : 0 ≤ edges.top
  right : 0 ≤ edges.right
  bottom : 0 ≤ edges.bottom
  left : 0 ≤ edges.left

theorem Edges.IsNonneg.horizontal {edges : Edges ℚ} (nonneg : edges.IsNonneg) :
    0 ≤ edges.horizontal :=
  add_nonneg nonneg.left nonneg.right

theorem Edges.IsNonneg.vertical {edges : Edges ℚ} (nonneg : edges.IsNonneg) : 0 ≤ edges.vertical :=
  add_nonneg nonneg.top nonneg.bottom

variable {node : Styled ℚ} {placement : Placement ℚ} {least most : ℚ}

/-- A limit in pixels. -/
theorem limit?_of_pixels? {property : Text} {number : ℚ} (pixels : node.pixels? property = some number)
    (nonneg : 0 ≤ number) (percentBase : ℚ) : node.limit? property percentBase = some number := by
  have offset := offset?_of_pixels? pixels percentBase
  rw [Styled.offset?, Option.filter_eq_some_iff] at offset
  rw [Styled.limit?, offset.1, Option.filter, if_pos]
  rw [decide_eq_true_iff, rational_zero]
  exact nonneg

/-- The width of a block that is free to choose it, without what stands around its content. -/
theorem held_blockWidth (contentBox : node.isBorderBox = false) (free : placement.forcedWidth = none)
    {padding border : Edges ℚ} (paddings : padding.IsNonneg) (borders : border.IsNonneg)
    (leastWidth : node.pixels? "min-width" = some least) (mostWidth : node.pixels? "max-width" = some most)
    (leastNonneg : 0 ≤ least) (mostNonneg : 0 ≤ most) :
    Held least most
      (blockWidth node placement padding border - padding.horizontal - border.horizontal) := by
  have frame : 0 ≤ padding.horizontal + border.horizontal :=
    add_nonneg paddings.horizontal borders.horizontal
  unfold blockWidth clampWidth
  dsimp only
  rw [free, contentBox, limit?_of_pixels? leastWidth leastNonneg,
    limit?_of_pixels? mostWidth mostNonneg]
  dsimp only
  rw [rational_positive, rational_max, rational_min, if_neg Bool.false_ne_true]
  generalize (node.fixedWidth? placement.containingWidth).getD placement.availableWidth = width
  have size : max 0 (max (min width (most + (padding.horizontal + border.horizontal)))
      (least + (padding.horizontal + border.horizontal))) - padding.horizontal - border.horizontal =
        max (min width (most + (padding.horizontal + border.horizontal)))
          (least + (padding.horizontal + border.horizontal)) -
            (padding.horizontal + border.horizontal) := by
    rw [max_eq_right (le_max_of_le_right (add_nonneg leastNonneg frame)), sub_sub]
  rw [size]
  refine ⟨fun compatible => ⟨le_sub_iff_add_le.mpr (le_max_right _ _), ?_⟩,
    fun _ => le_sub_iff_add_le.mpr (le_max_right _ _)⟩
  refine sub_le_iff_le_add.mpr (max_le (min_le_right _ _) ?_)
  gcongr

/-- Of the limits of a height that nothing fixes the greatest one counts last. -/
theorem contentHeight_of_limits (contentBox : node.isBorderBox = false) (placement : Placement ℚ)
    (padding border : Edges ℚ) (taken : ℚ) (leastHeight : node.pixels? "min-height" = some least)
    (mostHeight : node.pixels? "max-height" = some most) (leastNonneg : 0 ≤ least)
    (mostNonneg : 0 ≤ most) :
    contentHeight node placement padding border none taken = min (max taken least) most := by
  unfold contentHeight clampHeight
  dsimp only
  rw [contentBox, limit?_of_pixels? leastHeight leastNonneg, limit?_of_pixels? mostHeight mostNonneg]
  dsimp only
  rw [if_neg Bool.false_ne_true, rational_zero, sub_zero, sub_zero, rational_max, rational_min]

/-- What stands around the content of a block is taken off its height again. -/
theorem height_blockFrame (placement : Placement ℚ) {taken : ℚ}
    (paddings : (node.padding placement.containingWidth).IsNonneg) (borders : node.border.IsNonneg)
    (nonneg : 0 ≤ contentHeight node placement (node.padding placement.containingWidth) node.border
      (knownHeight? node placement) taken) :
    (blockFrame node placement taken).height - (node.padding placement.containingWidth).vertical -
        node.border.vertical =
      contentHeight node placement (node.padding placement.containingWidth) node.border
        (knownHeight? node placement) taken := by
  unfold blockFrame
  dsimp only
  rw [rational_positive, max_eq_right (add_nonneg (add_nonneg nonneg paddings.vertical)
    borders.vertical), sub_sub, add_assoc, add_sub_cancel_right]

/-- A block in the flow of a parent is set in the interior of the parent, and is free to choose its
sizes. -/
theorem exists_inFlow {parent : Styled ℚ} {index : Nat} {box : Box ℚ} (notImage : parent.tag ≠ "img")
    (notFlex : parent.isFlex = false) (isChild : parent.children[index]? = some node)
    (inFlow : node.isFlowBlock = true) (yields : (layoutNode parent placement).Yields box) :
    ∃ taken placed held own, box.frame = own.carry (blockFrame parent placement taken) ∧
      placed.Within (blockInterior parent placement) ∧ placed.forcedWidth = none ∧
      placed.forcedHeight = none ∧ (layoutNode node placed).Yields held ∧
      box.children[index]? = some (held.drifted own) := by
  obtain ⟨taken, inner, _, frame, -, isHeld, -, ends, -⟩ := holds_of_yields notImage isChild yields
  have inLine : node.isInline = false := Bool.not_eq_true' _ ▸ (Bool.and_eq_true_iff.mp inFlow).1
  have notAbsolute : node.isAbsolute = false := Bool.not_eq_true' _ ▸ (Bool.and_eq_true_iff.mp inFlow).2
  cases ends with
  | absolute isAbsolute =>
      cases notAbsolute.symm.trans isAbsolute
  | inFlow _ come =>
      cases come with
      | line isInLine =>
          have isText : node.isText = false := (Bool.or_eq_false_iff.mp inLine).1
          have alone : node.standsAlone parent.isFlex = true := by
            rw [Styled.standsAlone, isText, inLine, Bool.not_false, Bool.or_true]
            rfl
          cases alone.symm.trans isInLine
      | @block placed _ _ _ _ within freeWidth freeHeight yields _ =>
          exact ⟨taken, placed, inner, _, frame, within, freeWidth, freeHeight, yields, isHeld⟩
      | item isItem => cases notFlex.symm.trans isItem
      | absolute isAbsolute => cases notAbsolute.symm.trans isAbsolute

/-- The known height of a parent is that of its content. -/
theorem height_of_known {height : ℚ} (known : knownHeight? node placement = some height) (taken : ℚ) :
    (blockFrame node placement taken).height =
      max 0 (height + (node.padding placement.containingWidth).vertical + node.border.vertical) := by
  unfold blockFrame contentHeight
  dsimp only
  rw [known, rational_positive]

/-- A document fixes no height of its own, and is not taken out of anything. -/
theorem free_styledFreely (author : Css.Stylesheet) (document : Html.Document) :
    (∀ base, (styledFreely author document : Styled ℚ).fixedHeight? base = none) ∧
      (styledFreely author document : Styled ℚ).isAbsolute = false := by
  have height : (styledFreely author document : Styled ℚ).value "height" = [] := by
    rw [Styled.value, style_styledFreely]
    decide +kernel
  refine ⟨fun base => ?_, ?_⟩
  · rw [Styled.fixedHeight?, height]
    rfl
  · rw [Styled.isAbsolute, Styled.value, style_styledFreely]
    decide +kernel

/-- How the content of a block is held between its limits. The base is the height that the percentages
of its height refer to, if they can. -/
structure HeldSizes (node : Styled ℚ) (padding : Edges ℚ) (base : Option ℚ) (frame : Rect ℚ) : Prop where
  width : ∀ least most, node.pixels? "min-width" = some least → node.pixels? "max-width" = some most →
    0 ≤ least → 0 ≤ most →
    Held least most (frame.width - padding.horizontal - node.border.horizontal)
  height : node.fixedHeight? base = none → ∀ least most, node.pixels? "min-height" = some least →
    node.pixels? "max-height" = some most → 0 ≤ least → 0 ≤ most →
    (least ≤ most → least ≤ frame.height - padding.vertical - node.border.vertical ∧
      frame.height - padding.vertical - node.border.vertical ≤ most) ∧
    (most < least → frame.height - padding.vertical - node.border.vertical = most)
  fixed : ∀ height, node.fixedHeight? base = some height →
    frame.height - padding.vertical - node.border.vertical =
      max 0 (height - padding.vertical - node.border.vertical)

theorem heldSizes_blockFrame (contentBox : node.isBorderBox = false)
    (freeWidth : placement.forcedWidth = none) (freeHeight : placement.forcedHeight = none)
    (paddings : (node.padding placement.containingWidth).IsNonneg) (borders : node.border.IsNonneg)
    (taken : ℚ) :
    HeldSizes node (node.padding placement.containingWidth) placement.containingHeight
      (blockFrame node placement taken) := by
  have known : knownHeight? node placement = (node.fixedHeight? placement.containingHeight).map
      fun height => max 0 (height - (node.padding placement.containingWidth).vertical -
        node.border.vertical) := by
    unfold knownHeight?
    rw [freeHeight, Option.none_or]
    exact congrArg (Option.map · _) (funext fun height => rational_positive _)
  refine ⟨fun least most leastWidth mostWidth leastNonneg mostNonneg =>
    held_blockWidth contentBox freeWidth paddings borders leastWidth mostWidth leastNonneg mostNonneg,
    fun auto least most leastHeight mostHeight leastNonneg mostNonneg => ?_, fun height fixed => ?_⟩
  · have limits := contentHeight_of_limits contentBox placement
      (node.padding placement.containingWidth) node.border taken leastHeight mostHeight leastNonneg
      mostNonneg
    rw [auto, Option.map_none] at known
    rw [← known] at limits
    have nonneg : 0 ≤ min (max taken least) most :=
      le_min (le_max_of_le_right leastNonneg) mostNonneg
    rw [height_blockFrame placement paddings borders (limits ▸ nonneg), limits]
    refine ⟨fun compatible => ⟨le_min (le_max_right _ _) compatible, min_le_right _ _⟩,
      fun contradict => min_eq_right (le_max_of_le_right contradict.le)⟩
  · rw [fixed, Option.map_some] at known
    have same : contentHeight node placement (node.padding placement.containingWidth) node.border
        (knownHeight? node placement) taken =
          max 0 (height - (node.padding placement.containingWidth).vertical - node.border.vertical) := by
      rw [known]
      rfl
    rw [height_blockFrame placement paddings borders (same ▸ le_max_left _ _), same]

/-- The height of its content that a block tells its children is that of its box in the document. The
document itself, whose box is made higher than its content, tells them none. -/
theorem height_of_told (author : Css.Stylesheet) (viewport : Viewport ℚ) (document : Html.Document)
    {path : List Nat} {parent : Styled ℚ}
    (found : (styledFreely author document).blockAt? path = some parent)
    (gives : placement.GivesHeightIf (MayBeGivenHeight author document path parent) parent) {known : ℚ}
    (isKnown : (blockInterior parent placement).height = some known) {box : Box ℚ} {drift : Drift ℚ}
    {taken : ℚ} (frame : box.frame = drift.carry (blockFrame parent placement taken)) :
    (box.filled path viewport.height).frame.height =
      max 0 (known + (parent.padding placement.containingWidth).vertical + parent.border.vertical) := by
  cases path with
  | nil =>
      obtain ⟨rfl, -⟩ := exists_of_blockAt?_nil found
      obtain ⟨noHeight, notAbsolute⟩ := free_styledFreely author document
      have unforced := gives.unforced fun allowed => allowed.elim Bool.false_ne_true
        fun isAbsolute => Bool.false_ne_true (notAbsolute.symm.trans isAbsolute)
      cases (knownHeight?_of_free noHeight unforced).symm.trans isKnown
  | cons next path =>
      rw [Box.filled, List.isEmpty_cons, if_neg Bool.false_ne_true, frame]
      exact height_of_known isKnown taken

/-- A block in the flow of a document is free to choose its sizes, with the width of the content around
it for percentages, and the height of that content if there is one. -/
theorem exists_inFlow_document (author : Css.Stylesheet) (viewport : Viewport ℚ)
    (document : Html.Document) {outer : List Nat} {index : Nat} {parent : Styled ℚ}
    (found : (styledFreely author document).blockAt? outer = some parent)
    (notFlex : parent.isFlex = false) (isChild : parent.children[index]? = some node)
    (inFlow : node.isFlowBlock = true) (notImage : node.tag ≠ "img") :
    ∃ (around inner : Box ℚ) (placed : Placement ℚ) (taken : ℚ) (drift : Drift ℚ),
      (layoutFreely author viewport document).at? outer = some around ∧
      (layoutFreely author viewport document).at? (outer ++ [index]) = some inner ∧
      contentWidthOf parent (widthAt author viewport document outer) around = placed.containingWidth ∧
      (∀ known ∈ placed.containingHeight, around.frame.height =
        max 0 (known + (parent.padding (widthAt author viewport document outer)).vertical +
          parent.border.vertical)) ∧
      placed.forcedWidth = none ∧ placed.forcedHeight = none ∧
      inner.frame = drift.carry (blockFrame node placed taken) := by
  obtain ⟨placement, drift, held, has, yields, width, gives⟩ :=
    exists_placement author viewport document found
  obtain ⟨taken, placed, inner, own, frame, within, freeWidth, freeHeight, yieldsInner, isInner⟩ :=
    exists_inFlow (notImage_of_blockAt? found) notFlex isChild inFlow yields
  obtain ⟨takenInside, frameInside⟩ := exists_blockFrame notImage yieldsInner
  have moved : (held.drifted drift).frame =
      (own.append drift).carry (blockFrame parent placement taken) := by
    rw [Box.frame_drifted, frame, Drift.carry_append]
  have isInside : (held.drifted drift).children[index]? =
      some (inner.drifted (own.append drift)) := by
    rw [Box.child_drifted drift isInner, Box.drifted_drifted]
  rw [← width]
  refine ⟨_, _, placed, takenInside, (ownDrift node placed.containingWidth).append (own.append drift),
    has.here, has.child isInside, ?_, fun known isKnown => ?_, freeWidth, freeHeight, ?_⟩
  · rw [within.containingWidth, contentWidthOf, Box.width_filled, moved]
    rfl
  · rw [within.containingHeight] at isKnown
    exact height_of_told author viewport document found gives isKnown moved
  · rw [Box.frame_drifted, frameInside, ← Drift.carry_append]

/-- The content of a block in a flow is held between its limits, but for a height that its style
fixes, and the greatest height counts before the least one. -/
theorem sizes_held (author : Css.Stylesheet) (viewport : Viewport ℚ) (document : Html.Document)
    {outer : List Nat} {index : Nat} {parent : Styled ℚ}
    (found : (styledFreely author document).blockAt? outer = some parent)
    (notFlex : parent.isFlex = false) (isChild : parent.children[index]? = some node)
    (inFlow : node.isFlowBlock = true) (notImage : node.tag ≠ "img")
    (contentBox : node.isBorderBox = false) :
    ∃ around inner : Box ℚ, ∃ base : Option ℚ,
      (layoutFreely author viewport document).at? outer = some around ∧
      (layoutFreely author viewport document).at? (outer ++ [index]) = some inner ∧
      (∀ known ∈ base, around.frame.height =
        max 0 (known + (parent.padding (widthAt author viewport document outer)).vertical +
          parent.border.vertical)) ∧
      ((node.padding (contentWidthOf parent (widthAt author viewport document outer) around)).IsNonneg →
        node.border.IsNonneg →
        HeldSizes node
          (node.padding (contentWidthOf parent (widthAt author viewport document outer) around)) base
          inner.frame) := by
  obtain ⟨around, inner, placed, taken, drift, atOuter, atInner, content, told, freeWidth, freeHeight,
    frame⟩ := exists_inFlow_document author viewport document found notFlex isChild inFlow notImage
  refine ⟨around, inner, placed.containingHeight, atOuter, atInner, told, ?_⟩
  rw [content, frame]
  intro paddings borders
  obtain ⟨width, height, fixed⟩ :=
    heldSizes_blockFrame contentBox freeWidth freeHeight paddings borders taken
  exact ⟨width, height, fixed⟩

/-! ## Pages -/

def Styled.isBare (around : ℚ) (node : Styled ℚ) : Bool :=
  let sides (edges : Edges ℚ) : List ℚ := [edges.top, edges.right, edges.bottom, edges.left]
  node.isFlowBlock && node.tag != "img" && !node.isBorderBox &&
    (sides (node.padding around) ++ sides node.border).all (· == 0)

theorem Styled.bare_parts {around : ℚ} (bare : node.isBare around = true) :
    node.isFlowBlock = true ∧ node.tag ≠ "img" ∧ node.isBorderBox = false ∧
      node.padding around = ⟨0, 0, 0, 0⟩ ∧ node.border = ⟨0, 0, 0, 0⟩ := by
  have zero : ∀ {edges : Edges ℚ}, edges.top = 0 ∧ edges.right = 0 ∧ edges.bottom = 0 ∧ edges.left = 0 →
      edges = ⟨0, 0, 0, 0⟩ := by
    rintro ⟨_, _, _, _⟩ ⟨rfl, rfl, rfl, rfl⟩
    rfl
  simp only [Styled.isBare, Bool.and_eq_true, bne_iff_ne, Bool.not_eq_true', List.all_append,
    List.all_cons, List.all_nil, beq_iff_eq, and_true] at bare
  obtain ⟨⟨⟨inFlow, notImage⟩, contentBox⟩, padding, border⟩ := bare
  exact ⟨inFlow, notImage, contentBox, zero padding, zero border⟩

theorem Edges.isNonneg_zero : (⟨0, 0, 0, 0⟩ : Edges ℚ).IsNonneg := ⟨le_rfl, le_rfl, le_rfl, le_rfl⟩

def boundedPage : Html.Document :=
  (Html.Document.parse
    "<div style=\"min-width:10px;max-width:50px;min-height:30px;max-height:70px\">a</div>").1

theorem sizes_held_bounded : ∃ (node : Styled ℚ) (inner : Box ℚ),
    (styledFreely ⟨[]⟩ boundedPage : Styled ℚ).children[0]? = some node ∧
    (layoutFreely ⟨[]⟩ ⟨800, 600⟩ boundedPage : Box ℚ).at? [0] = some inner ∧
    Held 10 50 (inner.frame.width - (node.padding 800).horizontal - node.border.horizontal) ∧
    Held 30 70 (inner.frame.height - (node.padding 800).vertical - node.border.vertical) := by
  have reads : (styledFreely ⟨[]⟩ boundedPage : Styled ℚ).children[0]?.map (fun node =>
      (node.isBare 800, (node.value "height").isEmpty, [node.pixels? "min-width",
        node.pixels? "max-width", node.pixels? "min-height", node.pixels? "max-height"])) =
      some (true, true, [some 10, some 50, some 30, some 70]) := by decide +kernel
  obtain ⟨node, isChild, reads⟩ := Option.map_eq_some_iff.mp reads
  simp only [Prod.mk.injEq, List.cons.injEq, and_true] at reads
  obtain ⟨bare, value, leastWidth, mostWidth, leastHeight, mostHeight⟩ := reads
  obtain ⟨inFlow, notImage, contentBox, padding, border⟩ := Styled.bare_parts bare
  have found : (styledFreely ⟨[]⟩ boundedPage : Styled ℚ).blockAt? [] =
      some (styledFreely ⟨[]⟩ boundedPage) := by
    rw [Styled.blockAt?, if_neg (by decide +kernel)]
  obtain ⟨around, inner, base, atRoot, atChild, -, held⟩ := sizes_held ⟨[]⟩ ⟨800, 600⟩ boundedPage
    found (by decide +kernel) isChild inFlow notImage contentBox
  have width : ((layoutFreely ⟨[]⟩ ⟨800, 600⟩ boundedPage : Box ℚ).at? []).map
      (contentWidthOf (styledFreely ⟨[]⟩ boundedPage) 800) = some 800 := by decide +kernel
  rw [atRoot] at width
  have around : contentWidthOf (styledFreely ⟨[]⟩ boundedPage)
      (widthAt ⟨[]⟩ ⟨800, 600⟩ boundedPage []) around = 800 := Option.some.inj width
  rw [around] at held
  obtain ⟨widths, heights, -⟩ :=
    held (padding ▸ Edges.isNonneg_zero) (border ▸ Edges.isNonneg_zero)
  have auto : node.fixedHeight? base = none := by
    rw [Styled.fixedHeight?, List.isEmpty_iff.mp value]
    rfl
  have height := heights auto 30 70 leastHeight mostHeight (by decide) (by decide)
  exact ⟨node, inner, isChild, atChild,
    widths 10 50 leastWidth mostWidth (by decide) (by decide),
    height.1, fun contradict => absurd contradict (by decide)⟩

/-- A block with a fixed height beyond the greatest one, and one whose limits contradict each other. -/
def unboundedPage : Html.Document :=
  let fixed : Text := "<div style=\"height:100px;min-height:10px;max-height:50px\">a</div>"
  let contradicting : Text := "<div style=\"min-height:100px;max-height:50px\">b</div>"
  (Html.Document.parse (fixed ++ contradicting)).1

def IsBoundedAt (index : Nat) (least most height : ℚ) : Prop :=
  ∃ (node : Styled ℚ) (box : Box ℚ),
    (styledFreely ⟨[]⟩ unboundedPage : Styled ℚ).children[index]? = some node ∧
    (layoutFreely ⟨[]⟩ ⟨800, 600⟩ unboundedPage : Box ℚ).at? [index] = some box ∧
    node.isBare 800 = true ∧ node.pixels? "min-height" = some least ∧
    node.pixels? "max-height" = some most ∧
    box.frame.height - (node.padding 800).vertical - node.border.vertical = height

theorem isBoundedAt {index : Nat} {least most height : ℚ}
    (reads : (styledFreely ⟨[]⟩ unboundedPage : Styled ℚ).children[index]?.map (fun node =>
      (node.isBare 800, [node.pixels? "min-height", node.pixels? "max-height"])) =
      some (true, [some least, some most]))
    (laid : ((layoutFreely ⟨[]⟩ ⟨800, 600⟩ unboundedPage : Box ℚ).at? [index]).map (·.frame.height) =
      some height) : IsBoundedAt index least most height := by
  obtain ⟨node, isChild, reads⟩ := Option.map_eq_some_iff.mp reads
  obtain ⟨box, isBox, rfl⟩ := Option.map_eq_some_iff.mp laid
  simp only [Prod.mk.injEq, List.cons.injEq, and_true] at reads
  obtain ⟨bare, leastHeight, mostHeight⟩ := reads
  obtain ⟨-, -, -, padding, border⟩ := Styled.bare_parts bare
  refine ⟨node, box, isChild, isBox, bare, leastHeight, mostHeight, ?_⟩
  rw [padding, border, Edges.vertical, add_zero, sub_zero, sub_zero]

/-- The first block is higher than its greatest height, the second one lower than its least height. -/
theorem not_held_heights :
    (IsBoundedAt 0 10 50 100 ∧ ¬ Held 10 50 100) ∧ IsBoundedAt 1 100 50 50 ∧ ¬ Held 100 50 50 := by
  refine ⟨⟨isBoundedAt (by decide +kernel) (by decide +kernel), fun held => ?_⟩,
    isBoundedAt (by decide +kernel) (by decide +kernel), fun held => ?_⟩
  · exact absurd (held.between (by decide)).2 (by decide)
  · exact absurd (held.above (by decide)) (by decide)

end SlidePress.Layout
