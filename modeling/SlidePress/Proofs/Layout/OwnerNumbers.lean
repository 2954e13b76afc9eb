import SlidePress.Proofs.Layout.Bounds
import SlidePress.Proofs.Layout.LineSizes
import SlidePress.Proofs.Layout.RelativeShift

/-! The numbers of inline nodes. A run is gone through twice, once for its items and once for its boxes,
and both times the nodes are counted. An item is known by the numbers of the nodes that it stands in, and a
box looks up its number among them; so a box is set around the items of its own node only if both counts
agree. They do as long as breaks hold nothing, since what is inside a break has boxes, but no items. -/

namespace SlidePress.Layout

variable {α : Type}

/-! ## Breaks that hold nothing -/

inductive Styled.BareBreaks : Styled α → Prop where
  | text {content : Text} {style : Properties} {fontSize : α} :
      BareBreaks (.text content style fontSize)
  | element {head : Html.Element} {style : Properties} {fontSize : α} {children : List (Styled α)}
      (lineBreak : head.tag = "br" → children = [])
      (inside : ∀ child ∈ children, BareBreaks child) :
      BareBreaks (.element head style fontSize children)

theorem Styled.BareBreaks.children {node : Styled α} (bare : node.BareBreaks) :
    ∀ child ∈ node.children, child.BareBreaks := by
  cases bare with
  | text => exact List.forall_mem_nil _
  | element _ inside => exact inside

theorem Styled.BareBreaks.of_break {node : Styled α} (bare : node.BareBreaks)
    (isBreak : node.tag = "br") : node.children = [] := by
  cases bare with
  | text => rfl
  | element lineBreak _ => exact lineBreak isBreak

def Styled.at? : List Nat → Styled α → Option (Styled α)
  | [], node => some node
  | index :: path, node => node.children[index]?.bind (Styled.at? path)

/-! ## Items of nodes -/

namespace Flattening

def counted (run : Flattening α) : Flattening α := { run with next := run.next + 1 }

/-- What nodes inside owners put into a run: each item stands in the owners, and in some of the nodes
that were counted since. -/
structure Extends (owners : List Nat) (before after : Flattening α) : Prop where
  onward : before.next ≤ after.next
  items : ∃ added, after.items = added ++ before.items ∧ ∀ item ∈ added, ∃ own : List Nat,
    item.owners = owners ++ own ∧ own.Nodup ∧
      ∀ number ∈ own, before.next ≤ number ∧ number < after.next

namespace Extends

variable {owners : List Nat} {before between after : Flattening α} {number : Nat}

theorem refl (owners : List Nat) (run : Flattening α) : Extends owners run run :=
  ⟨Nat.le_refl _, [], rfl, List.forall_mem_nil _⟩

theorem trans (first : Extends owners before between) (second : Extends owners between after) :
    Extends owners before after := by
  obtain ⟨onward, added, items, stand⟩ := first
  obtain ⟨onwardToo, addedToo, itemsToo, standToo⟩ := second
  refine ⟨Nat.le_trans onward onwardToo, addedToo ++ added, ?_, fun item member => ?_⟩
  · rw [itemsToo, items, List.append_assoc]
  · rcases List.mem_append.mp member with later | earlier
    · obtain ⟨own, same, once, range⟩ := standToo item later
      exact ⟨own, same, once, fun number isOwn =>
        ⟨Nat.le_trans onward (range number isOwn).1, (range number isOwn).2⟩⟩
    · obtain ⟨own, same, once, range⟩ := stand item earlier
      exact ⟨own, same, once, fun number isOwn =>
        ⟨(range number isOwn).1, Nat.lt_of_lt_of_le (range number isOwn).2 onwardToo⟩⟩

/-- An item of the owners themselves. -/
theorem push {item : Item α} (owned : item.owners = owners) (run : Flattening α) :
    Extends owners run (run.push item) := by
  rw [Flattening.push]
  split
  · exact refl owners run
  · refine ⟨Nat.le_refl _, [item], rfl, List.forall_mem_singleton.mpr ?_⟩
    exact ⟨[], owned.trans (List.append_nil _).symm, .nil, List.forall_mem_nil _⟩

theorem foldl {items : List (Item α)} (owned : ∀ item ∈ items, item.owners = owners)
    (run : Flattening α) : Extends owners run (items.foldl Flattening.push run) := by
  induction items generalizing run with
  | nil => exact refl owners run
  | cons item rest ih =>
      obtain ⟨first, others⟩ := List.forall_mem_cons.mp owned
      exact (push first run).trans (ih others _)

/-- What is put into the next node is put into its owners. -/
theorem within (inner : Extends (owners ++ [before.next]) before.counted after) :
    Extends owners before after := by
  obtain ⟨onward, added, items, stand⟩ := inner
  refine ⟨Nat.le_of_succ_le onward, added, items, fun item member => ?_⟩
  obtain ⟨own, same, once, range⟩ := stand item member
  refine ⟨before.next :: own, by rw [same, List.append_assoc, List.singleton_append],
    List.nodup_cons.mpr ⟨fun again => ?_, once⟩,
    List.forall_mem_cons.mpr ⟨⟨Nat.le_refl _, onward⟩, ?_⟩⟩
  · exact Nat.lt_irrefl _ (range _ again).1
  · exact fun number isOwn =>
      ⟨Nat.le_of_succ_le (range number isOwn).1, (range number isOwn).2⟩

end Extends

def Counts (run : Flattening α) : Prop := ∀ item ∈ run.items, ∀ owner ∈ item.owners, owner < run.next

theorem Extends.counts {owners : List Nat} {before after : Flattening α}
    (extended : Extends owners before after) (around : ∀ owner ∈ owners, owner < before.next)
    (counts : before.Counts) : after.Counts := by
  obtain ⟨onward, added, items, stand⟩ := extended
  intro item member owner isOwner
  rw [items] at member
  rcases List.mem_append.mp member with later | earlier
  · obtain ⟨own, same, -, range⟩ := stand item later
    rw [same] at isOwner
    rcases List.mem_append.mp isOwner with outer | inner
    · exact Nat.lt_of_lt_of_le (around owner outer) onward
    · exact (range owner inner).2
  · exact Nat.lt_of_lt_of_le (counts item earlier owner isOwner) onward

variable [Scalar α]

mutual

/-- A node puts its items into itself. -/
theorem extends_counted (owners : List Nat) (node : Styled α) (run : Flattening α) :
    Extends (owners ++ [run.next]) run.counted (add owners node run) := by
  cases node with
  | text content style fontSize =>
      rw [add]
      refine Extends.foldl (fun item member => ?_) run.counted
      obtain ⟨chunk, -, rfl⟩ := List.mem_map.mp member
      cases chunk <;> rfl
  | element head style fontSize children =>
      rw [add]
      split
      · refine Extends.push ?_ run.counted
        rfl
      · exact extends_addAll (owners ++ [run.next]) children run.counted

theorem extends_addAll (owners : List Nat) (nodes : List (Styled α)) (run : Flattening α) :
    Extends owners run (addAll owners nodes run) := by
  cases nodes with
  | nil =>
      rw [addAll]
      exact .refl owners run
  | cons node rest =>
      rw [addAll]
      exact (extends_counted owners node run).within.trans (extends_addAll owners rest _)

end

theorem addAll_append (owners : List Nat) (first second : List (Styled α)) (run : Flattening α) :
    addAll owners (first ++ second) run = addAll owners second (addAll owners first run) := by
  induction first generalizing run with
  | nil => rw [List.nil_append, addAll]
  | cons node rest ih => rw [List.cons_append, addAll, addAll, ih]

end Flattening

/-! ## The count of the items -/

/-- A run as it comes to a node, inside owners. -/
structure Visit (α : Type) where
  owners : List Nat
  node : Styled α
  before : Flattening α

variable [Scalar α]

namespace Visit

def number (visit : Visit α) : Nat := visit.before.next

def after (visit : Visit α) : Flattening α :=
  Flattening.add visit.owners visit.node visit.before

/-- Of a list with an entry for each item of the run: the entries for the items that the node puts in. -/
def own {β : Type} (visit : Visit α) (entries : List β) : List β :=
  (entries.take visit.after.items.length).drop visit.before.items.length

end Visit

/-- How a run to which nodes are added comes to the node at a place: at an index among them, and on a path
from there. Nothing is added of what is inside a break. -/
def visit? (owners : List Nat) (nodes : List (Styled α)) (run : Flattening α) (index : Nat) :
    List Nat → Option (Visit α)
  | [] => nodes[index]?.map fun node =>
      ⟨owners, node, Flattening.addAll owners (nodes.take index) run⟩
  | next :: path => nodes[index]?.bind fun node =>
      let before := Flattening.addAll owners (nodes.take index) run
      if node.tag == "br" then none
      else visit? (owners ++ [before.next]) node.children before.counted next path

def ownerCount (run : List (Styled α)) : Nat := (Flattening.addAll [] run ⟨0, []⟩).next

namespace Visit

/-- A visit on the way to a finished run: neither the items before it nor those behind it stand in the
node. -/
structure LeadsTo (final : Flattening α) (visit : Visit α) : Prop where
  earlier : visit.before.Counts
  onward : visit.after.next ≤ final.next
  later : ∃ later, final.items = later ++ visit.after.items ∧
    ∀ item ∈ later, visit.number ∉ item.owners

variable {visit : Visit α} {final : Flattening α}

theorem number_lt_after (visit : Visit α) : visit.number < visit.after.next :=
  (Flattening.extends_counted visit.owners visit.node visit.before).onward

theorem LeadsTo.extend (leads : visit.LeadsTo final) {owners : List Nat} {further : Flattening α}
    (extended : Flattening.Extends owners final further) (apart : visit.number ∉ owners) :
    visit.LeadsTo further := by
  obtain ⟨earlier, onward, later, items, others⟩ := leads
  obtain ⟨onwardToo, added, itemsToo, stand⟩ := extended
  refine ⟨earlier, Nat.le_trans onward onwardToo, added ++ later, ?_, fun item member => ?_⟩
  · rw [itemsToo, items, List.append_assoc]
  · rcases List.mem_append.mp member with isAdded | isLater
    · obtain ⟨own, same, -, range⟩ := stand item isAdded
      rw [same]
      refine fun among => (List.mem_append.mp among).elim apart fun inner => ?_
      have behind := Nat.lt_of_lt_of_le visit.number_lt_after onward
      exact Nat.lt_irrefl _ (Nat.lt_of_lt_of_le behind (range _ inner).1)
    · exact others item isLater

end Visit

/-- Where nodes are cut at one of them. -/
theorem addAll_eq_of_getElem? {nodes : List (Styled α)} {index : Nat} {node : Styled α}
    (isNode : nodes[index]? = some node) (owners : List Nat) (run : Flattening α) :
    Flattening.addAll owners nodes run =
      Flattening.addAll owners (nodes.drop (index + 1)) (Flattening.add owners node
        (Flattening.addAll owners (nodes.take index) run)) := by
  obtain ⟨within, rfl⟩ := List.getElem?_eq_some_iff.mp isNode
  conv_lhs => rw [← List.take_append_drop index nodes, List.drop_eq_getElem_cons within]
  rw [Flattening.addAll_append, Flattening.addAll]

/-- Every node that the run comes to is on the way to what the run is in the end. -/
theorem leadsTo_visit {owners : List Nat} {nodes : List (Styled α)} {run : Flattening α} {index : Nat}
    {path : List Nat} {visit : Visit α} (found : visit? owners nodes run index path = some visit)
    (around : ∀ owner ∈ owners, owner < run.next) (counts : run.Counts) :
    run.next ≤ visit.number ∧ visit.LeadsTo (Flattening.addAll owners nodes run) := by
  induction path generalizing owners nodes run index with
  | nil =>
      obtain ⟨node, isNode, rfl⟩ := Option.map_eq_some_iff.mp found
      have before := Flattening.extends_addAll owners (nodes.take index) run
      refine ⟨before.onward, ?_⟩
      rw [addAll_eq_of_getElem? isNode]
      have here : Visit.LeadsTo (Flattening.add owners node
          (Flattening.addAll owners (nodes.take index) run))
          ⟨owners, node, Flattening.addAll owners (nodes.take index) run⟩ :=
        ⟨before.counts around counts, Nat.le_refl _, [], rfl, List.forall_mem_nil _⟩
      refine here.extend (Flattening.extends_addAll owners _ _) fun inside => ?_
      exact Nat.lt_irrefl _ (Nat.lt_of_lt_of_le (around _ inside) before.onward)
  | cons next path ih =>
      obtain ⟨node, isNode, below⟩ := Option.bind_eq_some_iff.mp found
      have before := Flattening.extends_addAll owners (nodes.take index) run
      rw [addAll_eq_of_getElem? isNode]
      generalize Flattening.addAll owners (nodes.take index) run = between at before below ⊢
      dsimp only at below
      split at below
      · cases below
      · rename_i unbroken
        have aroundNode : ∀ owner ∈ owners, owner < between.next := fun owner member =>
          Nat.lt_of_lt_of_le (around owner member) before.onward
        obtain ⟨inside, leads⟩ := ih below
          (List.forall_mem_append.mpr ⟨fun owner member => Nat.lt_succ_of_lt (aroundNode owner member),
            List.forall_mem_singleton.mpr (Nat.lt_succ_self _)⟩)
          fun item member owner isOwner =>
            Nat.lt_succ_of_lt (before.counts around counts item member owner isOwner)
        have inside : between.next < visit.number := inside
        refine ⟨Nat.le_trans before.onward (Nat.le_of_lt inside), ?_⟩
        have entered : Flattening.add owners node between =
            Flattening.addAll (owners ++ [between.next]) node.children between.counted := by
          cases node with
          | text content style fontSize => cases path <;> cases below
          | element head style fontSize children =>
              rw [Flattening.add]
              exact if_neg unbroken
        rw [← entered] at leads
        refine leads.extend (Flattening.extends_addAll owners _ _) fun outer => ?_
        exact Nat.lt_irrefl _ (Nat.lt_trans inside (aroundNode _ outer))

omit [Scalar α] in
theorem filter_eq_nil_of_apart {β : Type} {owners : β → List Nat} {number : Nat} {entries : List β}
    {items : List (Item α)} (inStep : entries.map owners = items.map (·.owners))
    (apart : ∀ item ∈ items, number ∉ item.owners) :
    entries.filter (fun entry => (owners entry).contains number) = [] := by
  refine List.filter_eq_nil_iff.mpr fun entry member among => ?_
  have isOwners := inStep ▸ List.mem_map_of_mem member
  obtain ⟨item, isItem, same⟩ := List.mem_map.mp isOwners
  rw [← same, List.contains_iff_mem] at among
  exact apart item isItem among

/-- The entries with the number of the node among their owners are those for its own items. -/
theorem Visit.LeadsTo.filter_owners {β : Type} {owners : β → List Nat} {visit : Visit α}
    {final : Flattening α} (leads : visit.LeadsTo final) {entries : List β}
    (inStep : entries.map owners = final.items.reverse.map (·.owners)) :
    entries.filter (fun entry => (owners entry).contains visit.number) = visit.own entries := by
  obtain ⟨earlier, -, later, items, others⟩ := leads
  obtain ⟨-, added, own, stand⟩ :=
    Flattening.extends_counted visit.owners visit.node visit.before
  have own : visit.after.items = added ++ visit.before.items := own
  rw [items, own, List.reverse_append, List.reverse_append, List.append_assoc, List.map_append,
    List.map_append] at inStep
  obtain ⟨first, rest, rfl, isFirst, isRest⟩ := List.map_eq_append_iff.mp inStep
  obtain ⟨middle, last, rfl, isMiddle, isLast⟩ := List.map_eq_append_iff.mp isRest
  have none : first.filter (fun entry => (owners entry).contains visit.number) = [] :=
    filter_eq_nil_of_apart isFirst fun item member among =>
      Nat.lt_irrefl _ (earlier item (List.mem_reverse.mp member) _ among)
  have noneToo : last.filter (fun entry => (owners entry).contains visit.number) = [] :=
    filter_eq_nil_of_apart isLast fun item member => others item (List.mem_reverse.mp member)
  have all : middle.filter (fun entry => (owners entry).contains visit.number) = middle := by
    refine List.filter_eq_self.mpr fun entry member => ?_
    have isOwners := isMiddle ▸ List.mem_map_of_mem member
    obtain ⟨item, isItem, same⟩ := List.mem_map.mp isOwners
    obtain ⟨inner, stands, -⟩ := stand item (List.mem_reverse.mp isItem)
    rw [← same, stands, List.contains_iff_mem]
    exact List.mem_append_left _ (List.mem_append_right _ List.mem_cons_self)
  have start : first.length = visit.before.items.length := by
    rw [← List.length_map owners, isFirst, List.length_map, List.length_reverse]
  have many : middle.length = added.length := by
    rw [← List.length_map owners, isMiddle, List.length_map, List.length_reverse]
  have stop : (first ++ middle).length = visit.after.items.length := by
    rw [List.length_append, start, many, own, List.length_append, Nat.add_comm]
  have cut : visit.own (first ++ (middle ++ last)) = middle := by
    rw [Visit.own, ← List.append_assoc, List.take_left' stop, List.drop_left' start]
  rw [List.filter_append, List.filter_append, none, all, noneToo, cut, List.nil_append,
    List.append_nil]

/-- The items that a node puts in come right behind those before it. -/
theorem Visit.LeadsTo.append_own {visit : Visit α} {final : Flattening α}
    (leads : visit.LeadsTo final) :
    visit.before.items.reverse ++ visit.own final.items.reverse = visit.after.items.reverse := by
  obtain ⟨-, -, later, items, -⟩ := leads
  obtain ⟨-, added, own, -⟩ :=
    Flattening.extends_counted visit.owners visit.node visit.before
  have own : visit.after.items = added ++ visit.before.items := own
  rw [Visit.own, items, List.reverse_append, List.take_left' List.length_reverse, own,
    List.reverse_append, List.drop_left' List.length_reverse]

/-! ## The count of the boxes -/

section Boxes

variable (content : Rect α) (frames : List (List Nat × Rect α))

/-- The number with which the node at a place gets its box, when boxes are set from a number on. -/
def boxNumber? (nodes : List (Styled α)) (number index : Nat) : List Nat → Option Nat
  | [] => nodes[index]?.map fun _ => (inlineBoxes content frames (nodes.take index) number).2
  | next :: path => nodes[index]?.bind fun node =>
      boxNumber? node.children ((inlineBoxes content frames (nodes.take index) number).2 + 1) next path

theorem frame_inlineBox (node : Styled α) (number : Nat) :
    (inlineBox content frames node number).1.frame =
      (ownerFrame? frames number).getD ⟨content.x, content.y, 0.0, 0.0⟩ := by
  cases node with
  | text => rw [inlineBox]
  | element => rw [inlineBox]

theorem children_inlineBox (node : Styled α) (number : Nat) :
    (inlineBox content frames node number).1.children =
      (inlineBoxes content frames node.children (number + 1)).1 := by
  cases node with
  | text => rw [inlineBox, Styled.children, inlineBoxes]
  | element => rw [inlineBox]; rfl

theorem getElem?_inlineBoxes (nodes : List (Styled α)) (number index : Nat) :
    (inlineBoxes content frames nodes number).1[index]? = nodes[index]?.map fun node =>
      (inlineBox content frames node (inlineBoxes content frames (nodes.take index) number).2).1 := by
  induction nodes generalizing number index with
  | nil => rw [inlineBoxes]; rfl
  | cons node rest ih =>
      rw [inlineBoxes]
      cases index with
      | zero => rw [List.take_zero, inlineBoxes]; rfl
      | succ index =>
          rw [List.take_succ_cons, inlineBoxes]
          exact ih _ index

/-- The box at a place is set for the node there, with its number. -/
theorem box_of_number {nodes : List (Styled α)} {number index own : Nat} {path : List Nat}
    {node : Styled α} (isNode : nodes[index]?.bind (Styled.at? path) = some node)
    (numbered : boxNumber? content frames nodes number index path = some own) :
    (inlineBoxes content frames nodes number).1[index]?.bind (Box.at? path) =
      some (inlineBox content frames node own).1 := by
  induction path generalizing nodes number index with
  | nil =>
      obtain ⟨here, isHere, rfl⟩ := Option.map_eq_some_iff.mp numbered
      rw [isHere] at isNode
      obtain rfl : here = node := Option.some.inj isNode
      rw [getElem?_inlineBoxes, isHere]
      rfl
  | cons next path ih =>
      obtain ⟨outer, isOuter, below⟩ := Option.bind_eq_some_iff.mp numbered
      rw [isOuter] at isNode
      rw [getElem?_inlineBoxes, isOuter, Option.map_some, Option.bind_some, Box.at?,
        children_inlineBox]
      exact ih isNode below

end Boxes

/-! ## Both counts -/

section Counts

omit [Scalar α] in
theorem Flattening.next_foldl_push (items : List (Item α)) (run : Flattening α) :
    (items.foldl Flattening.push run).next = run.next := by
  induction items generalizing run with
  | nil => rfl
  | cons item rest ih =>
      rw [List.foldl_cons, ih, Flattening.push]
      split
      · rfl
      · rfl

variable (content : Rect α) (frames : List (List Nat × Rect α))

mutual

/-- Both counts go on alike behind a node. -/
theorem next_add_eq (owners : List Nat) (node : Styled α) (bare : node.BareBreaks)
    (run : Flattening α) :
    (Flattening.add owners node run).next = (inlineBox content frames node run.next).2 := by
  cases bare with
  | text => rw [Flattening.add, Flattening.next_foldl_push, inlineBox]
  | @element head style fontSize children lineBreak inside =>
      rw [Flattening.add, inlineBox]
      split
      · rename_i isBreak
        have isEmpty := lineBreak (beq_iff_eq.mp isBreak)
        subst isEmpty
        rw [inlineBoxes, Flattening.push, if_neg (by exact Bool.false_ne_true)]
      · exact next_addAll_eq (owners ++ [run.next]) children inside run.counted

theorem next_addAll_eq (owners : List Nat) (nodes : List (Styled α))
    (bare : ∀ node ∈ nodes, node.BareBreaks) (run : Flattening α) :
    (Flattening.addAll owners nodes run).next = (inlineBoxes content frames nodes run.next).2 := by
  cases nodes with
  | nil => rw [Flattening.addAll, inlineBoxes]
  | cons node rest =>
      obtain ⟨first, others⟩ := List.forall_mem_cons.mp bare
      rw [Flattening.addAll, inlineBoxes, next_addAll_eq owners rest others,
        next_add_eq owners node first run]

end

/-- A node has the number that it is visited with. -/
theorem boxNumber?_of_visit {owners : List Nat} {nodes : List (Styled α)} {run : Flattening α}
    {index : Nat} {path : List Nat} {visit : Visit α}
    (found : visit? owners nodes run index path = some visit)
    (bare : ∀ node ∈ nodes, node.BareBreaks) :
    boxNumber? content frames nodes run.next index path = some visit.number := by
  have before := next_addAll_eq content frames owners (nodes.take index)
    (fun node member => bare node (List.mem_of_mem_take member)) run
  induction path generalizing owners nodes run index with
  | nil =>
      obtain ⟨node, isNode, rfl⟩ := Option.map_eq_some_iff.mp found
      rw [boxNumber?, isNode, ← before]
      rfl
  | cons next path ih =>
      obtain ⟨node, isNode, below⟩ := Option.bind_eq_some_iff.mp found
      dsimp only at below
      split at below
      · cases below
      · have inside := (bare node (List.mem_of_getElem? isNode)).children
        rw [boxNumber?, isNode, ← before]
        exact ih below inside (next_addAll_eq content frames _ _
          (fun child member => inside child (List.mem_of_mem_take member)) _)

omit content frames in
/-- The run comes to every node. -/
theorem exists_visit (owners : List Nat) {nodes : List (Styled α)} (run : Flattening α) {index : Nat}
    {path : List Nat} {node : Styled α}
    (isNode : nodes[index]?.bind (Styled.at? path) = some node)
    (bare : ∀ node ∈ nodes, node.BareBreaks) :
    ∃ visit, visit? owners nodes run index path = some visit ∧ visit.node = node := by
  induction path generalizing owners nodes run index with
  | nil =>
      obtain ⟨own, isOwn, same⟩ := Option.bind_eq_some_iff.mp isNode
      rw [visit?, isOwn]
      exact ⟨_, rfl, Option.some.inj same⟩
  | cons next path ih =>
      obtain ⟨outer, isOuter, below⟩ := Option.bind_eq_some_iff.mp isNode
      have isBare := bare outer (List.mem_of_getElem? isOuter)
      have unbroken : ¬ (outer.tag == "br") = true := by
        intro isBreak
        rw [Styled.at?, isBare.of_break (beq_iff_eq.mp isBreak)] at below
        cases below
      rw [visit?, isOuter, Option.bind_some]
      dsimp only
      rw [if_neg unbroken]
      exact ih _ _ below isBare.children

end Counts

end SlidePress.Layout
