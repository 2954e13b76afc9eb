import SlidePress.Layout.Block
import SlidePress.Proofs.Layout.Polling
import SlidePress.Proofs.Table

/-! What a layout shows of a document, apart from where it stands and how it looks. The skeleton of
a box is that of the boxes inside it under its tag, text and attributes. A document has a skeleton
of its own: its nodes without the elements that are not displayed and without the white space that
is not shown. Styling a document gives a tree with that skeleton. -/

namespace SlidePress.Layout

open Css (Stylesheet)
open Html (Element)

variable {α : Type}

structure Skeleton where
  tag : Text
  text : Text
  attributes : Properties
  children : List Skeleton

mutual

def Box.skeleton : Box α → Skeleton
  | ⟨_, tag, text, attributes, _, children⟩ => ⟨tag, text, attributes, boxSkeletons children⟩

def boxSkeletons : List (Box α) → List Skeleton
  | [] => []
  | box :: rest => box.skeleton :: boxSkeletons rest

end

theorem boxSkeletons_eq_map (boxes : List (Box α)) :
    boxSkeletons boxes = boxes.map Box.skeleton := by
  induction boxes with
  | nil => rfl
  | cons box rest ih => rw [boxSkeletons, ih, List.map_cons]

theorem Box.skeleton_eq (box : Box α) :
    box.skeleton = ⟨box.tag, box.text, box.attributes, box.children.map Box.skeleton⟩ := by
  cases box with
  | mk frame tag text attributes style children => rw [Box.skeleton, boxSkeletons_eq_map]

mutual

/-- Moving a box changes nothing of its skeleton. -/
theorem skeleton_mapFrames (change : Rect α → Rect α) (box : Box α) :
    (box.mapFrames change).skeleton = box.skeleton := by
  cases box with
  | mk frame tag text attributes style children =>
      rw [Box.mapFrames, Box.skeleton, Box.skeleton, skeletons_mapFramesAll change children]

theorem skeletons_mapFramesAll (change : Rect α → Rect α) (boxes : List (Box α)) :
    boxSkeletons (mapFramesAll change boxes) = boxSkeletons boxes := by
  cases boxes with
  | nil => rw [mapFramesAll]
  | cons box rest =>
      rw [mapFramesAll, boxSkeletons, boxSkeletons, skeleton_mapFrames change box,
        skeletons_mapFramesAll change rest]

end

mutual

def Styled.skeleton : Styled α → Skeleton
  | .text content style fontSize =>
      ⟨Html.textTag, (Styled.text content style fontSize).shownText, ∅, []⟩
  | .element head _ _ children => ⟨head.tag, [], head.attributes, styledSkeletons children⟩

def styledSkeletons : List (Styled α) → List Skeleton
  | [] => []
  | node :: rest => node.skeleton :: styledSkeletons rest

end

theorem styledSkeletons_eq_map (nodes : List (Styled α)) :
    styledSkeletons nodes = nodes.map Styled.skeleton := by
  induction nodes with
  | nil => rfl
  | cons node rest ih => rw [styledSkeletons, ih, List.map_cons]

theorem Styled.skeleton_element (head : Element) (style : Properties) (fontSize : α)
    (children : List (Styled α)) :
    (Styled.element head style fontSize children).skeleton =
      ⟨head.tag, [], head.attributes, children.map Styled.skeleton⟩ := by
  rw [Styled.skeleton, styledSkeletons_eq_map]

/-! ## The skeleton of a document -/

section Document

variable [Scalar α]

def styledAlone (sheets : List (Option Stylesheet)) (ancestors : List Element) (outer : Surroundings α) :
    Html.Node → Styled α
  | .text content => .text content (outer.style.filterKeys Css.isInherited) outer.fontSize
  | .element head _ =>
      let own := settle outer (Css.computedStyle sheets ancestors head)
      .element head own.style own.fontSize []

/-- No white space is shown among the children of an element: it is a flex container, or it keeps a
child that is neither part of a line nor taken out of the flow. -/
def dropsBlanks (sheets : List (Option Stylesheet)) (ancestors : List Element) (head : Element)
    (own : Surroundings α) (children : List Html.Node) : Bool :=
  (Styled.element head own.style own.fontSize []).isFlex ||
    children.any fun child =>
      let alone := styledAlone sheets ancestors own child
      !alone.isHidden && !alone.isInline && !alone.isAbsolute

/-- A child is left out: an element that is not displayed, or white space where none is shown. -/
def leavesOut (sheets : List (Option Stylesheet)) (ancestors : List Element) (own : Surroundings α)
    (blanks : Bool) (child : Html.Node) : Bool :=
  let alone := styledAlone sheets ancestors own child
  alone.isHidden || (blanks && alone.isBlankText)

mutual

/-- The skeleton of a node: its text as its style shows it, or its tag and attributes over the
skeletons of the children that are not left out. -/
def nodeSkeleton (sheets : List (Option Stylesheet)) (ancestors : List Element) (outer : Surroundings α) :
    Html.Node → Skeleton
  | .text content =>
      ⟨Html.textTag, transformText (outer.style.filterKeys Css.isInherited) content, ∅, []⟩
  | .element head children =>
      let own := settle outer (Css.computedStyle sheets ancestors head)
      let blanks := dropsBlanks sheets (head :: ancestors) head own children
      ⟨head.tag, [], head.attributes,
        childSkeletons sheets (head :: ancestors) own blanks children⟩

def childSkeletons (sheets : List (Option Stylesheet)) (ancestors : List Element) (own : Surroundings α)
    (blanks : Bool) : List Html.Node → List Skeleton
  | [] => []
  | child :: rest =>
      if leavesOut sheets ancestors own blanks child then
        childSkeletons sheets ancestors own blanks rest
      else
        nodeSkeleton sheets ancestors own child ::
          childSkeletons sheets ancestors own blanks rest

end

def documentSkeleton (α : Type) [Scalar α] (author : Stylesheet) (document : Html.Document) :
    Skeleton :=
  let sheets := [some Stylesheet.userAgent, some author]
  let own : Surroundings α := settle ⟨∅, defaultFontSize⟩ ∅
  let blanks := dropsBlanks sheets [] documentElement own document.children
  ⟨Html.documentTag, [], ∅, childSkeletons sheets [] own blanks document.children⟩

end Document

/-! ## Styling -/

def Styled.alone : Styled α → Styled α
  | .text content style fontSize => .text content style fontSize
  | .element head style fontSize _ => .element head style fontSize []

namespace Styled

theorem isHidden_alone (node : Styled α) : node.alone.isHidden = node.isHidden := by
  cases node with
  | text => rfl
  | element => rfl

theorem isBlankText_alone (node : Styled α) : node.alone.isBlankText = node.isBlankText := by
  cases node with
  | text => rfl
  | element => rfl

theorem isFlowBlock_alone (node : Styled α) :
    (!node.alone.isInline && !node.alone.isAbsolute) = node.isFlowBlock := by
  cases node with
  | text => rfl
  | element => rfl

/-- A styled tree that can be set: its texts stand in the flow, and its images hold nothing. -/
inductive Settable : Styled α → Prop where
  | text {content : Text} {style : Properties} {fontSize : α}
      (flows : (Styled.text content style fontSize).isAbsolute = false) :
      Settable (.text content style fontSize)
  | element {head : Element} {style : Properties} {fontSize : α} {children : List (Styled α)}
      (image : head.tag = "img" → children = [])
      (inside : ∀ child ∈ children, Settable child) :
      Settable (.element head style fontSize children)

end Styled

/-- No text of such a tree is taken out of the flow. -/
theorem Styled.Settable.flows {node : Styled α} (settable : node.Settable)
    (isText : node.isText = true) : node.isAbsolute = false := by
  cases settable with
  | text flows => exact flows
  | element image inside => cases isText

/-- White space is dropped, and what is not displayed, in one go. -/
theorem shownChildren_eq_filter (isFlex : Bool) (children : List (Styled α)) :
    shownChildren isFlex children = children.filter fun child =>
      !(child.isHidden || ((isFlex || children.any fun other =>
        !other.isHidden && other.isFlowBlock) && child.isBlankText)) := by
  rw [shownChildren, List.any_filter]
  split
  · rename_i drops
    rw [drops, List.filter_filter]
    refine List.filter_congr fun child _ => ?_
    rw [Bool.true_and, Bool.not_or, Bool.and_comm]
  · rename_i keeps
    rw [Bool.not_eq_true] at keeps
    rw [keeps]
    refine List.filter_congr fun child _ => ?_
    rw [Bool.false_and, Bool.or_false]

/-- An element holds no other nodes than those that were styled for it. -/
theorem mem_of_mem_assembleElement {head : Element} {own : Surroundings α}
    {inside : Progress (List (Styled α))} {child : Styled α}
    (member : child ∈ (assembleElement head own inside).children) : child ∈ inside.state := by
  rw [assembleElement, Styled.children] at member
  split at member
  · rw [shownChildren_eq_filter] at member
    exact (List.mem_filter.mp member).1
  · exact (List.mem_filter.mp member).1

theorem children_assembleElement_nil {head : Element} {own : Surroundings α}
    {inside : Progress (List (Styled α))} (none : inside.state = []) :
    (assembleElement head own inside).children = [] :=
  List.eq_nil_iff_forall_not_mem.mpr fun _ member =>
    List.not_mem_nil (none ▸ mem_of_mem_assembleElement member)

/-- What goes for the second of a pair whenever the first one is in a list goes for every second one. -/
theorem forall_mem_of_forall₂ {β γ : Type} {relates : β → γ → Prop} {holds : γ → Prop}
    {firsts : List β} {seconds : List γ} (related : List.Forall₂ relates firsts seconds)
    (each : ∀ first ∈ firsts, ∀ second, relates first second → holds second) :
    ∀ second ∈ seconds, holds second := by
  induction related with
  | nil => exact List.forall_mem_nil _
  | cons head tail ih =>
      obtain ⟨first, others⟩ := List.forall_mem_cons.mp each
      exact List.forall_mem_cons.mpr ⟨first _ head, ih others⟩

inductive BareImages : Html.Node → Prop where
  | text {content : Text} : BareImages (.text content)
  | element {head : Element} {children : List Html.Node} (image : head.tag = "img" → children = [])
      (inside : ∀ child ∈ children, BareImages child) : BareImages (.element head children)

section Styling

variable [Scalar α]

/-- What holds of a text in its surroundings, and of an element when it holds of the children that are
styled for it. -/
structure HoldsStyled (sheets : List (Option Stylesheet))
    (holds : List Element → Surroundings α → Html.Node → Styled α → Prop) : Prop where
  text : ∀ ancestors outer content, holds ancestors outer (.text content)
    (.text content (outer.style.filterKeys Css.isInherited) outer.fontSize)
  element : ∀ ancestors outer head children state,
    let own := settle outer (Css.computedStyle sheets ancestors head)
    List.Forall₂ (holds (head :: ancestors) own) children state →
      holds ancestors outer (.element head children) (assembleElement head own ⟨state, true⟩)

section Holds

variable {sheets : List (Option Stylesheet)}
  {holds : List Element → Surroundings α → Html.Node → Styled α → Prop}

mutual

theorem gives_styleNode (kept : HoldsStyled sheets holds) (ancestors : List Element)
    (outer : Surroundings α) (node : Html.Node) :
    (styleNode sheets ancestors outer node).Gives (holds ancestors outer node) := by
  cases node with
  | text content =>
      rw [styleNode]
      exact .unlessCancelled (.pure (kept.text ancestors outer content))
  | element head children =>
      rw [styleNode]
      refine .unlessCancelled ?_
      refine (gives_styleNodes kept (head :: ancestors) _ children).bind fun progress ends => ?_
      obtain ⟨state, complete⟩ := progress
      obtain ⟨rfl, styled⟩ := ends
      exact .pure (kept.element ancestors outer head children state styled)

theorem gives_styleNodes (kept : HoldsStyled sheets holds) (ancestors : List Element)
    (outer : Surroundings α) (nodes : List Html.Node) :
    (styleNodes sheets ancestors outer nodes).Gives fun progress =>
      progress.complete = true ∧ List.Forall₂ (holds ancestors outer) nodes progress.state := by
  cases nodes with
  | nil =>
      rw [styleNodes]
      exact .pure ⟨rfl, .nil⟩
  | cons node rest =>
      rw [styleNodes]
      refine (gives_styleNode kept ancestors outer node).bind fun first styled => ?_
      refine .unlessCancelled ?_
      refine (gives_styleNodes kept ancestors outer rest).bind fun others ends => ?_
      exact .pure ⟨ends.1, .cons styled ends.2⟩

end

/-- The root of a document is assembled from children for which it holds. -/
theorem gives_styleDocument {author : Stylesheet}
    (kept : HoldsStyled [some Stylesheet.userAgent, some author] holds) (document : Html.Document) :
    (styleDocument author document : Polling (Styled α)).Gives fun root =>
      let own := settle ⟨∅, defaultFontSize⟩ ∅
      ∃ state, List.Forall₂ (holds [] own) document.children state ∧
        root = assembleElement documentElement own ⟨state, true⟩ := by
  refine .unlessCancelled ?_
  refine (gives_styleNodes kept [] _ document.children).bind fun progress ends => ?_
  obtain ⟨state, complete⟩ := progress
  obtain ⟨rfl, styled⟩ := ends
  exact .pure ⟨state, styled, rfl⟩

end Holds

/-- A styled tree shows a node where it stands. -/
structure Shows (sheets : List (Option Stylesheet)) (ancestors : List Element) (outer : Surroundings α)
    (node : Html.Node) (styled : Styled α) : Prop where
  alone : styled.alone = styledAlone sheets ancestors outer node
  skeleton : styled.skeleton = nodeSkeleton sheets ancestors outer node
  settable : styled.Settable

variable {sheets : List (Option Stylesheet)} {ancestors : List Element} {own : Surroundings α}
  {nodes : List Html.Node} {state : List (Styled α)}

/-- Whether white space is dropped can be seen from the children before they are styled. -/
theorem any_flowBlock_eq (shows : List.Forall₂ (Shows sheets ancestors own) nodes state) :
    (state.any fun other => !other.isHidden && other.isFlowBlock) =
      nodes.any fun child =>
        let alone := styledAlone sheets ancestors own child
        !alone.isHidden && !alone.isInline && !alone.isAbsolute := by
  induction shows with
  | nil => rfl
  | cons first rest ih =>
      rw [List.any_cons, List.any_cons, ih, ← first.alone, Bool.and_assoc,
        Styled.isFlowBlock_alone, Styled.isHidden_alone]

/-- The children that are kept have the skeletons of the nodes that are not left out. -/
theorem map_skeleton_filter (blanks : Bool)
    (shows : List.Forall₂ (Shows sheets ancestors own) nodes state) :
    (state.filter fun child => !(child.isHidden || (blanks && child.isBlankText))).map
        Styled.skeleton = childSkeletons sheets ancestors own blanks nodes := by
  induction shows with
  | nil => rw [childSkeletons, List.filter_nil, List.map_nil]
  | cons first rest ih =>
      rw [childSkeletons, leavesOut, ← first.alone, Styled.isHidden_alone, Styled.isBlankText_alone,
        List.filter_cons]
      split
      · rename_i keeps
        rw [Bool.not_eq_true'] at keeps
        rw [if_neg (by rw [keeps]; exact Bool.false_ne_true), List.map_cons, ih, first.skeleton]
      · rename_i leaves
        rw [Bool.not_eq_true', Bool.not_eq_false] at leaves
        rw [if_pos leaves, ih]

omit [Scalar α] in
/-- The text of a node stands in the flow: a position is not inherited. -/
theorem settable_text (content : Text) (outer : Surroundings α) :
    (Styled.text content (outer.style.filterKeys Css.isInherited) outer.fontSize).Settable := by
  refine .text ?_
  have unplaced : Css.isInherited "position" = false := by decide
  rw [Styled.isAbsolute, Styled.value, Styled.style, styleValueOf, styleValue,
    Table.get?_filterKeys_of_not unplaced]
  rfl

theorem skeleton_assembleElement (head : Element)
    (shows : List.Forall₂ (Shows sheets ancestors own) nodes state) :
    (assembleElement head own ⟨state, true⟩).skeleton =
      ⟨head.tag, [], head.attributes, childSkeletons sheets ancestors own
        (dropsBlanks sheets ancestors head own nodes) nodes⟩ := by
  rw [assembleElement, Styled.skeleton_element, dropsBlanks, ← map_skeleton_filter _ shows,
    ← any_flowBlock_eq shows, ← shownChildren_eq_filter]
  rfl

omit [Scalar α] in
theorem settable_assembleElement {head : Element} {inside : Progress (List (Styled α))}
    (image : head.tag = "img" → inside.state = [])
    (settable : ∀ child ∈ inside.state, child.Settable) :
    (assembleElement head own inside).Settable := by
  refine .element (fun isImage => children_assembleElement_nil (image isImage)) fun child member => ?_
  exact settable child (mem_of_mem_assembleElement member)

theorem settable_of_shows {head : Element} (image : head.tag = "img" → nodes = [])
    (shows : List.Forall₂ (Shows sheets ancestors own) nodes state) :
    (assembleElement head own ⟨state, true⟩).Settable := by
  refine settable_assembleElement (fun isImage => ?_) ?_
  · rw [image isImage, List.forall₂_nil_left_iff] at shows
    exact shows
  · exact forall_mem_of_forall₂ shows fun _ _ _ shown => shown.settable

/-- Nodes whose images hold nothing are shown by what is styled for them. -/
theorem holdsStyled_shows (sheets : List (Option Stylesheet)) :
    HoldsStyled sheets fun ancestors (outer : Surroundings α) node styled =>
      BareImages node → Shows sheets ancestors outer node styled where
  text ancestors outer content _ := by
    refine ⟨rfl, ?_, settable_text content outer⟩
    rw [nodeSkeleton, Styled.skeleton]
    rfl
  element ancestors outer head children state styled bare := by
    cases bare with
    | element image inside =>
        have shows := ((List.forall₂_and_left children _).mpr ⟨inside, styled⟩).imp
          fun _ _ both => both.2 both.1
        refine ⟨rfl, ?_, settable_of_shows image shows⟩
        rw [nodeSkeleton]
        exact skeleton_assembleElement head shows

/-- The styled tree of a document has its skeleton. -/
theorem skeleton_styleDocument (author : Stylesheet) (document : Html.Document)
    (bare : ∀ node ∈ document.children, BareImages node) :
    (styleDocument author document : Polling (Styled α)).Gives fun root =>
      root.skeleton = documentSkeleton α author document ∧ root.Settable ∧
        root.isText = false := by
  refine (gives_styleDocument (holdsStyled_shows _) document).weaken fun root assembled => ?_
  obtain ⟨state, styled, rfl⟩ := assembled
  have shows := ((List.forall₂_and_left document.children _).mpr ⟨bare, styled⟩).imp
    fun _ _ both => both.2 both.1
  refine ⟨skeleton_assembleElement documentElement shows, ?_, rfl⟩
  exact settable_of_shows (fun isImage => absurd isImage (by decide)) shows

end Styling

end SlidePress.Layout
