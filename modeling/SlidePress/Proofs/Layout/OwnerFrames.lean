import SlidePress.Proofs.Html.Grown
import SlidePress.Proofs.Layout.OwnerNumbers

/-! The boxes of inline nodes. Breaks of a document that was read hold nothing, and in a run with such
breaks every node is numbered once: its items, its slot in the table of rectangles and its box go by the
same number. So its box is set around the items that it puts into the run itself, and around nothing
else. -/

namespace SlidePress.Layout

variable {α : Type} [Scalar α]

/-! ## Breaks of documents -/

section Documents

open Css (Stylesheet)
open Html (Element Grown)

omit [Scalar α] in
theorem Styled.BareBreaks.at? {root node : Styled α} (bare : root.BareBreaks) {path : List Nat}
    (isNode : root.at? path = some node) : node.BareBreaks := by
  induction path generalizing root with
  | nil => exact Option.some.inj isNode ▸ bare
  | cons index path ih =>
      obtain ⟨child, isChild, below⟩ := Option.bind_eq_some_iff.mp isNode
      exact ih (bare.children child (List.mem_of_getElem? isChild)) below

omit [Scalar α] in
theorem bareBreaks_assembleElement {head : Element} {own : Surroundings α}
    {inside : Progress (List (Styled α))} (lineBreak : head.tag = "br" → inside.state = [])
    (bare : ∀ child ∈ inside.state, child.BareBreaks) :
    (assembleElement head own inside).BareBreaks := by
  refine .element (fun isBreak => children_assembleElement_nil (lineBreak isBreak))
    fun child member => ?_
  exact bare child (mem_of_mem_assembleElement member)

/-- Breaks that were read hold nothing, and styling them adds nothing. -/
theorem holdsStyled_bareBreaks (sheets : List (Option Stylesheet)) :
    HoldsStyled sheets fun _ (_ : Surroundings α) node styled =>
      ∀ around, Grown around node → styled.BareBreaks where
  text _ _ _ _ _ := .text
  element _ _ head children state styled around grown := by
    refine bareBreaks_assembleElement (fun isBreak => ?_) ?_
    · rw [grown.eq_nil_of_void (by rw [isBreak]; decide), List.forall₂_nil_left_iff] at styled
      exact styled
    · refine forall_mem_of_forall₂ styled fun node member _ bare => ?_
      obtain ⟨inner, grownInside⟩ := grown.exists_inside node member
      exact bare inner grownInside

theorem bareBreaks_styledFreely_parse (author : Stylesheet) (markup : Text) :
    (styledFreely author (Html.Document.parse markup).1 : Styled α).BareBreaks := by
  obtain ⟨root, yields, state, styled, rfl⟩ :=
    gives_styleDocument (holdsStyled_bareBreaks (α := α) _) (Html.Document.parse markup).1
  rw [styledFreely, yields.freely]
  refine bareBreaks_assembleElement (fun isBreak => absurd isBreak (by decide)) ?_
  exact forall_mem_of_forall₂ styled fun node member _ bare =>
    bare [] ((Html.siblings_parse markup).grown node member)

end Documents

/-! ## Boxes of runs -/

/-- A frame is set around others. Around none it is a point at the origin of the content. Otherwise they
are joined to it, so that it begins where the first of them do; in exact arithmetic it is the least
rectangle around them. -/
structure SetAround (content : Rect α) (frames : List (Rect α)) (frame : Rect α) : Prop where
  origin : frames = [] → frame = ⟨content.x, content.y, 0.0, 0.0⟩
  joined : frames ≠ [] → joinAll? frames = some frame
  first : ∀ [IsStrictOrder α (· < ·)], frames ≠ [] →
    IsFirst (frames.map (·.x)) frame.x ∧ IsFirst (frames.map (·.y)) frame.y
  least : ∀ [Std.IsLinearOrder α] [Std.LawfulOrderLT α] [Exact α], frames ≠ [] →
    IsLeastAround frames frame

/-- Numbers come before one another in a strict order, as those that are no numbers come before none. -/
instance : IsStrictOrder Number (· < ·) where
  irrefl _ less := Int.lt_irrefl _ (Number.lt_iff.mp less).2.2
  trans _ _ _ less lessToo := Number.lt_trans less lessToo

theorem setAround_getD (content : Rect α) (frames : List (Rect α)) :
    SetAround content frames ((joinAll? frames).getD ⟨content.x, content.y, 0.0, 0.0⟩) := by
  cases joined : joinAll? frames with
  | none =>
      have empty := joinAll?_eq_none_iff.mp joined
      exact ⟨fun _ => rfl, fun some => absurd empty some, fun some => absurd empty some,
        fun some => absurd empty some⟩
  | some around =>
      refine ⟨fun empty => ?_, fun _ => joined, fun _ => isFirst_joinAll? joined,
        fun _ => isLeastAround_joinAll? joined⟩
      rw [joinAll?_eq_none_iff.mpr empty] at joined
      cases joined

section Runs

variable (parent : Styled α) (run : List (Styled α)) (content : Rect α)

def runTable : List (Option (Rect α)) :=
  ownerTable (ownerCount run) (runFrames parent run content)

def Visit.frames (visit : Visit α) : List (Rect α) :=
  (visit.own (runFrames parent run content)).map (·.2)

structure Visit.InStep (visit : Visit α) (index : Nat) (path : List Nat) : Prop where
  /-- The number is that of its box. -/
  number : boxNumber? content (runFrames parent run content) run 0 index path = some visit.number
  /-- Its own items follow those that were there before, and they are the ones that stand in it. -/
  items : visit.before.items.reverse ++ visit.own (flatten run) = visit.after.items.reverse ∧
    (flatten run).filter (·.owners.contains visit.number) = visit.own (flatten run)
  /-- Its slot in the table has the rectangle of its own items. -/
  slot : (runTable parent run content)[visit.number]? =
    some (joinAll? (visit.frames parent run content))
  /-- The box at its place is set with its number. -/
  box : (layoutInline parent run content).boxes[index]?.bind (Box.at? path) =
    some (inlineBox content (runFrames parent run content) visit.node visit.number).1
  /-- Its box is set around its own items. -/
  frame : SetAround content (visit.frames parent run content)
    (inlineBox content (runFrames parent run content) visit.node visit.number).1.frame

structure OwnersInStep : Prop where
  /-- Each item has a frame under its owners. -/
  frames : (runFrames parent run content).map (·.1) = (flatten run).map (·.owners)
  /-- Each owner of an item has a slot. -/
  owners : ∀ item ∈ flatten run, ∀ owner ∈ item.owners,
    owner < (runTable parent run content).length
  /-- Each node at any depth has one number. -/
  nodes : ∀ index path node, run[index]?.bind (Styled.at? path) = some node →
    ∃ visit, visit? [] run ⟨0, []⟩ index path = some visit ∧ visit.node = node ∧
      visit.InStep parent run content index path

theorem owners_runFrames :
    (runFrames parent run content).map (·.1) = (flatten run).map (·.owners) := by
  rw [runFrames, List.map_map]
  conv_rhs => rw [← items_breakLines (lineHeight parent.style parent.fontSize) content.width
    (flatten run), List.map_map]
  rfl

theorem extends_ownerCount :
    Flattening.Extends [] ⟨0, []⟩ (Flattening.addAll [] run ⟨0, []⟩) :=
  Flattening.extends_addAll [] run ⟨0, []⟩

/-- The owners of an item are different nodes. -/
theorem nodup_owners_flatten : ∀ item ∈ flatten run, item.owners.Nodup := by
  obtain ⟨-, added, items, stand⟩ := extends_ownerCount run
  intro item member
  rw [flatten, items, List.append_nil, List.mem_reverse] at member
  obtain ⟨own, same, once, -⟩ := stand item member
  rw [same, List.nil_append]
  exact once

theorem owner_lt_ownerCount : ∀ item ∈ flatten run, ∀ owner ∈ item.owners, owner < ownerCount run :=
  fun item member =>
    (extends_ownerCount run).counts (List.forall_mem_nil _) (List.forall_mem_nil _) item
      (List.mem_reverse.mp member)

variable {parent run content}

theorem inStep_of_visit (bare : ∀ node ∈ run, node.BareBreaks) {index : Nat} {path : List Nat}
    {visit : Visit α} (found : visit? [] run ⟨0, []⟩ index path = some visit)
    (isNode : run[index]?.bind (Styled.at? path) = some visit.node) :
    visit.InStep parent run content index path := by
  obtain ⟨-, leads⟩ := leadsTo_visit found (List.forall_mem_nil _) (List.forall_mem_nil _)
  have number := boxNumber?_of_visit content (runFrames parent run content) found bare
  have own := leads.filter_owners (owners_runFrames parent run content)
  have joined : ownerFrame? (runFrames parent run content) visit.number =
      joinAll? (visit.frames parent run content) := by
    rw [ownerFrame?_eq, own]
    rfl
  refine ⟨number, ⟨leads.append_own, leads.filter_owners rfl⟩, ?_, ?_, ?_⟩
  · have within : visit.number < ownerCount run :=
      Nat.lt_of_lt_of_le visit.number_lt_after leads.onward
    rw [runTable, getElem?_ownerTable within, joined]
    intro entry member
    have isOwners := owners_runFrames parent run content ▸ List.mem_map_of_mem member
    obtain ⟨item, isItem, same⟩ := List.mem_map.mp isOwners
    exact same ▸ nodup_owners_flatten run item isItem
  · rw [boxes_layoutInline]
    exact box_of_number content _ isNode number
  · rw [frame_inlineBox, joined]
    exact setAround_getD content _

/-- In a run whose breaks hold nothing the nodes have the same numbers when their boxes are set as when
their items are. The runs of a document that was read, which stand among the children of its nodes, are
of this kind. -/
theorem owners_inStep (parent : Styled α) {run : List (Styled α)} (content : Rect α)
    (bare : ∀ node ∈ run, node.BareBreaks) :
    OwnersInStep parent run content ∧
      ∀ (author : Css.Stylesheet) (markup : Text) (path : List Nat) (node : Styled α),
        (styledFreely author (Html.Document.parse markup).1).at? path = some node →
          ∀ child ∈ node.children, child.BareBreaks := by
  refine ⟨⟨owners_runFrames parent run content, fun item member owner isOwner => ?_,
    fun index path node isNode => ?_⟩, fun author markup path node isNode => ?_⟩
  · rw [runTable, length_ownerTable]
    exact owner_lt_ownerCount run item member owner isOwner
  · obtain ⟨visit, found, rfl⟩ := exists_visit [] ⟨0, []⟩ isNode bare
    exact ⟨visit, found, rfl, inStep_of_visit bare found isNode⟩
  · exact ((bareBreaks_styledFreely_parse author markup).at? isNode).children

end Runs

/-- A paragraph with blanks between elements, a break, and an element without items. -/
def brokenPage : Html.Document :=
  let markup : Text := "<p>to <b> get<br><i></i></b> her</p>"
  (Html.Document.parse markup).1

theorem owners_inStep_brokenPage : ∃ paragraph : Styled Number,
    (styledFreely ⟨[]⟩ brokenPage).at? [0] = some paragraph ∧
    (flatten paragraph.children).map (·.owners) = [[0], [0], [1, 2], [1, 3], [5], [5]] ∧
    (∀ child ∈ paragraph.children, child.BareBreaks) ∧
    OwnersInStep paragraph paragraph.children ⟨0, 0, 800, 0⟩ := by
  have reads : ((styledFreely ⟨[]⟩ brokenPage).at? [0]).map (fun paragraph : Styled Number =>
      (flatten paragraph.children).map (·.owners)) =
      some [[0], [0], [1, 2], [1, 3], [5], [5]] := by decide +kernel
  obtain ⟨paragraph, isParagraph, owners⟩ := Option.map_eq_some_iff.mp reads
  have bare := ((bareBreaks_styledFreely_parse _ _).at? isParagraph).children
  exact ⟨paragraph, isParagraph, owners, bare, (owners_inStep paragraph _ bare).1⟩

end SlidePress.Layout
