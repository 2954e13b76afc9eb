import SlidePress.Layout.Block
import SlidePress.Proofs.Layout.Likeness
import SlidePress.Proofs.Layout.Paired

/-! Children of two trees side by side. Each of a list of leads names a child of a first tree and a
child of a second one. Where the two are both absolute or both not, and both in a line or both not,
the two trees cut their children into the same parts, pick the same ones as items, and put their boxes
back in the same order. Containers with the same room that measure their items alike plan them
alike, and blocks in the same room are sized alike. -/

namespace SlidePress.Layout

variable {ι α : Type} {first second : ι → Child α}

/-- A child that is set by itself, not in a line: in a flex container any but a text. -/
def Styled.standsAlone (inFlex : Bool) (node : Styled α) : Bool :=
  !node.isText && (inFlex || node.isAbsolute || !node.isInline)

/-- Parts of two flows that set the same children in the same way. -/
inductive Segment.Follow (first second : ι → Child α) : List ι → Segment α → Segment α → Prop where
  | absolute {lead : ι} (isAbsolute : (first lead).node.isAbsolute = true) :
      Follow first second [lead] (.absolute (first lead)) (.absolute (second lead))
  | inline {run : List ι} (inLine : ∀ lead ∈ run, (first lead).node.standsAlone false = false)
      (inFlow : ∀ lead ∈ run, (first lead).node.isAbsolute = false) :
      Follow first second run (.inline (run.map first)) (.inline (run.map second))
  | block {lead : ι} (inFlow : (first lead).node.isFlowBlock = true) :
      Follow first second [lead] (.block (first lead)) (.block (second lead))

/-- Children side by side are cut into the same parts. -/
theorem segments_follow
    (absolute : ∀ lead, (first lead).node.isAbsolute = (second lead).node.isAbsolute)
    (inline : ∀ lead, (first lead).node.isInline = (second lead).node.isInline) (leads : List ι) :
    ∃ parts : List (List ι), parts.flatten = leads ∧
      Threefold (Segment.Follow first second) parts (segments (leads.map first))
        (segments (leads.map second)) := by
  induction leads with
  | nil => exact ⟨[], rfl, .nil⟩
  | cons lead rest ih =>
      obtain ⟨parts, cut, follow⟩ := ih
      rw [List.map_cons, List.map_cons, segments, segments, ← absolute, ← inline]
      by_cases isAbsolute : (first lead).node.isAbsolute = true
      · rw [if_pos isAbsolute, if_pos isAbsolute]
        exact ⟨[lead] :: parts, congrArg (lead :: ·) cut, .cons (.absolute isAbsolute) follow⟩
      · rw [if_neg isAbsolute, if_neg isAbsolute]
        by_cases isInline : (first lead).node.isInline = true
        · rw [if_pos isInline, if_pos isInline]
          have inFlow : (first lead).node.isAbsolute = false := Bool.eq_false_iff.mpr isAbsolute
          have inLine : (first lead).node.standsAlone false = false := by
            rw [Styled.standsAlone, isInline, inFlow]
            exact Bool.and_false _
          have alone : ∀ {parts : List (List ι)}, parts.flatten = rest →
              ([lead] :: parts).flatten = lead :: rest := fun cut => congrArg (lead :: ·) cut
          have single : Segment.Follow first second [lead] (.inline ([lead].map first))
              (.inline ([lead].map second)) :=
            .inline (List.forall_mem_singleton.mpr inLine) (List.forall_mem_singleton.mpr inFlow)
          generalize segments (rest.map first) = firsts at follow ⊢
          generalize segments (rest.map second) = seconds at follow ⊢
          cases follow with
          | nil => exact ⟨[[lead]], alone cut, .cons single .nil⟩
          | cons head tail =>
              cases head with
              | absolute isAbsolute =>
                  exact ⟨_, alone cut, .cons single (.cons (.absolute isAbsolute) tail)⟩
              | block inFlow => exact ⟨_, alone cut, .cons single (.cons (.block inFlow) tail)⟩
              | inline inRun areInFlow =>
                  have longer : Segment.Follow first second _ _ _ :=
                    .inline (List.forall_mem_cons.mpr ⟨inLine, inRun⟩)
                      (List.forall_mem_cons.mpr ⟨inFlow, areInFlow⟩)
                  refine ⟨_ :: _, ?_, .cons longer tail⟩
                  exact congrArg (lead :: ·) cut
        · rw [if_neg isInline, if_neg isInline]
          have inFlow : (first lead).node.isFlowBlock = true := by
            rw [Styled.isFlowBlock, Bool.eq_false_iff.mpr isInline, Bool.eq_false_iff.mpr isAbsolute]
            rfl
          exact ⟨[lead] :: parts, congrArg (lead :: ·) cut, .cons (.block inFlow) follow⟩

/-- The boxes of items and of absolute children go back to the same places. -/
theorem weave_follow {relates : ι → Box α → Box α → Prop}
    (absolute : ∀ lead, (first lead).node.isAbsolute = (second lead).node.isAbsolute)
    (leads : List ι) {items found absolutes foundAbsolutes : List (Box α)}
    (isItems : Threefold relates (leads.filter fun lead => !(first lead).node.isAbsolute) items found)
    (isAbsolutes : Threefold relates (leads.filter fun lead => (first lead).node.isAbsolute)
      absolutes foundAbsolutes) :
    Threefold relates leads (weave (leads.map first) items absolutes)
      (weave (leads.map second) found foundAbsolutes) := by
  induction leads generalizing items found absolutes foundAbsolutes with
  | nil => exact .nil
  | cons lead rest ih =>
      rw [List.map_cons, List.map_cons]
      unfold weave
      rw [← absolute]
      by_cases isAbsolute : (first lead).node.isAbsolute = true
      · rw [List.filter_cons_of_pos (by simpa using isAbsolute)] at isAbsolutes
        rw [List.filter_cons_of_neg (by simp [isAbsolute])] at isItems
        rw [if_pos isAbsolute, if_pos isAbsolute]
        cases isAbsolutes with
        | cons head tail => exact .cons head (ih isItems tail)
      · rw [List.filter_cons_of_neg (by simpa using isAbsolute)] at isAbsolutes
        rw [List.filter_cons_of_pos (by simpa using isAbsolute)] at isItems
        rw [if_neg isAbsolute, if_neg isAbsolute]
        cases isItems with
        | cons head tail => exact .cons head (ih tail isAbsolutes)

structure PickedSides (first second : ι → Child α) (test : Styled α → Bool) (lead : ι)
    (child another : Child α) : Prop where
  isFirst : child = first lead
  isSecond : another = second lead
  passes : test (first lead).node = true

/-- A test that does not tell the sides apart picks the same children from both. -/
theorem filter_follow {test : Styled α → Bool}
    (same : ∀ lead, test (first lead).node = test (second lead).node) (leads : List ι) :
    Threefold (PickedSides first second test) (leads.filter fun lead => test (first lead).node)
      ((leads.map first).filter fun child => test child.node)
      ((leads.map second).filter fun child => test child.node) := by
  induction leads with
  | nil => exact .nil
  | cons lead rest ih =>
      simp only [List.map_cons, List.filter_cons, ← same]
      split
      · rename_i passes
        exact .cons ⟨rfl, rfl, passes⟩ ih
      · exact ih

structure BoxedSides (first second : ι → Child α) (relates : ι → Box α → Box α → Prop) (lead : ι)
    (pair another : Child α × Box α) : Prop where
  isFirst : pair.1 = first lead
  isSecond : another.1 = second lead
  boxes : relates lead pair.2 another.2

theorem zip_follow {relates : ι → Box α → Box α → Prop} {leads : List ι} {boxes sets : List (Box α)}
    (follow : Threefold relates leads boxes sets) :
    Threefold (BoxedSides first second relates) leads ((leads.map first).zip boxes)
      ((leads.map second).zip sets) := by
  induction follow with
  | nil => exact .nil
  | cons head tail ih => exact .cons ⟨rfl, rfl, head⟩ ih

/-! ## Plans -/

variable [Scalar α]

/-- Interiors with the same room, wherever they are. -/
structure Interior.SameRoom (interior another : Interior α) : Prop where
  width : another.area.width = interior.area.width
  height : another.height = interior.height

section Plans

variable {interior another : Interior α} {parent other : Styled α}

omit [Scalar α] in
theorem Interior.SameRoom.isDefinite (same : interior.SameRoom another) (isRow : Bool) :
    Layout.isDefinite isRow another = Layout.isDefinite isRow interior := by
  rw [Layout.isDefinite, Layout.isDefinite, same.height]

theorem Interior.SameRoom.mainSize (same : interior.SameRoom another) (isRow : Bool) :
    Layout.mainSize isRow another = Layout.mainSize isRow interior := by
  rw [Layout.mainSize, Layout.mainSize, same.width, same.height]

theorem flexRules_eq (akin : parent.Akin other) (same : interior.SameRoom another) :
    flexRules other another = flexRules parent interior := by
  have room : mainSize other.isRow another = mainSize parent.isRow interior := by
    rw [← akin.isRow, same.mainSize]
  have gap : isPlacing (if parent.isRow = true then ("column-gap" : Text) else "row-gap") = false := by
    split <;> decide
  unfold flexRules
  dsimp only
  rw [room, ← akin.isRow, ← akin.length? gap,
    ← akin.valueD (show isPlacing "justify-content" = false by decide),
    ← akin.valueD (show isPlacing "align-items" = false by decide)]

theorem columnWidth?_eq {node peer : Styled α} (alike : node.Alike peer) (rules : FlexRules α)
    (same : interior.SameRoom another) (margin : Edges α) :
    columnWidth? rules another peer margin = columnWidth? rules interior node margin := by
  unfold columnWidth?
  rw [same.width, ← alike.isText, ← alike.fixedWidth?, ← alike.width,
    ← alike.valueD (show isPlacing "align-self" = false by decide)]

structure FlexBase.Follow (first second : ι → Child α) (lead : ι) (base found : FlexBase α) :
    Prop where
  isFirst : base.child = first lead
  isSecond : found = { base with child := second lead }

structure FlexItem.Follow (first second : ι → Child α) (lead : ι) (item found : FlexItem α) :
    Prop where
  isFirst : item.child = first lead
  isSecond : found = { item with child := second lead }

/-- The plans of two containers agree in all but the children. -/
structure FlexPlan.Follow (first second : ι → Child α) (leads : List ι) (plan found : FlexPlan α) :
    Prop where
  items : Threefold (FlexItem.Follow first second) leads plan.items found.items
  used : found.used = plan.used
  offset : found.offset = plan.offset
  spacing : found.spacing = plan.spacing

theorem flexSizes_follow {leads : List ι} {bases found : List (FlexBase α)}
    (follow : Threefold (FlexBase.Follow first second) leads bases found) (free : α) :
    Threefold (FlexItem.Follow first second) leads (flexSizes free bases) (flexSizes free found) := by
  have growth : found.map (·.grow) = bases.map (·.grow) :=
    (follow.map_eq fun lead base found same => by rw [same.isSecond]).symm
  have weight : (found.map fun item => item.shrink * item.base) =
      bases.map fun item => item.shrink * item.base :=
    (follow.map_eq fun lead base found same => by rw [same.isSecond]).symm
  unfold flexSizes
  dsimp only
  rw [growth, weight]
  refine follow.map fun lead base found same => ⟨same.isFirst, ?_⟩
  rw [same.isSecond]

theorem flexPlan_follow {leads : List ι} {bases found : List (FlexBase α)}
    (follow : Threefold (FlexBase.Follow first second) leads bases found) (rules : FlexRules α)
    (same : interior.SameRoom another) :
    (flexPlan rules interior bases).Follow first second leads (flexPlan rules another found) := by
  have count : found.length = bases.length := follow.length_eq.2.trans follow.length_eq.1.symm
  have wanted : (found.map fun item => item.base + mainMargin rules.isRow item.margin) =
      bases.map fun item => item.base + mainMargin rules.isRow item.margin :=
    (follow.map_eq fun lead base found same => by rw [same.isSecond]).symm
  have used : ∀ free : α,
      ((flexSizes free found).map fun item => item.main + mainMargin rules.isRow item.margin) =
        (flexSizes free bases).map fun item => item.main + mainMargin rules.isRow item.margin :=
    fun free => ((flexSizes_follow follow free).map_eq fun lead base found same => by
      rw [same.isSecond]).symm
  unfold flexPlan
  dsimp only
  rw [same.mainSize, same.isDefinite, count, wanted, used]
  exact ⟨flexSizes_follow follow _, rfl, rfl, rfl⟩

/-- Items with the same margins and cross sizes extend as far. -/
theorem crossExtent_eq {relates : ι → FlexSet α → FlexSet α → Prop} {isRow : Bool} {leads : List ι}
    {placed found : List (FlexSet α)} (follow : Threefold relates leads placed found)
    (margin : ∀ lead item found, relates lead item found → found.margin = item.margin)
    (size : ∀ lead item found, relates lead item found →
      crossSize isRow found.box = crossSize isRow item.box) :
    crossExtent isRow found = crossExtent isRow placed := by
  unfold crossExtent
  generalize (0.0 : α) = start
  induction follow generalizing start with
  | nil => rfl
  | cons head tail ih =>
      rw [List.foldl_cons, List.foldl_cons, margin _ _ _ head, size _ _ _ head]
      exact ih _

end Plans

/-! ## Blocks -/

structure Placement.SameRoom (placement another : Placement α) : Prop where
  availableWidth : another.availableWidth = placement.availableWidth
  containingWidth : another.containingWidth = placement.containingWidth
  containingHeight : another.containingHeight = placement.containingHeight
  forcedWidth : another.forcedWidth = placement.forcedWidth

section Blocks

variable {node other : Styled α} (akin : node.Akin other)
include akin

theorem Styled.Akin.clampWidth (containingWidth frame width : α) :
    Layout.clampWidth other containingWidth frame width =
      Layout.clampWidth node containingWidth frame width := by
  unfold Layout.clampWidth
  rw [akin.limit? (show isPlacing "max-width" = false by decide),
    akin.limit? (show isPlacing "min-width" = false by decide)]

theorem Styled.Akin.clampHeight (containingHeight frame height : α) :
    Layout.clampHeight other containingHeight frame height =
      Layout.clampHeight node containingHeight frame height := by
  unfold Layout.clampHeight
  rw [akin.limit? (show isPlacing "min-height" = false by decide),
    akin.limit? (show isPlacing "max-height" = false by decide)]

variable {placement another : Placement α} (same : placement.SameRoom another)
include same

theorem blockWidth_eq (padding border : Edges α) :
    blockWidth other another padding border = blockWidth node placement padding border := by
  unfold blockWidth
  dsimp only
  rw [same.forcedWidth, same.containingWidth, same.availableWidth, ← akin.isBorderBox,
    ← akin.fixedWidth?, akin.clampWidth]

theorem contentHeight_eq (padding border : Edges α) (fixed : Option α) (taken : α) :
    contentHeight other another padding border fixed taken =
      contentHeight node placement padding border fixed taken := by
  unfold contentHeight
  dsimp only
  rw [same.containingHeight, ← akin.isBorderBox, akin.clampHeight]

end Blocks

end SlidePress.Layout
