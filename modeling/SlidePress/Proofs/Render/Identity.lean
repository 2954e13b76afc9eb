import SlidePress.Proofs.Layout.BoxPerNode
import SlidePress.Proofs.Source.Paths
import SlidePress.Render.Extraction

/-! What tells a node from all others. Every node of a tree has a number of its own, its place in
document order; and it has a path of its own unless a tag could be taken for more than one step of a
path. No tag of a page that was read can, so every node of its source tree goes by its path as well as
by its number. -/

namespace SlidePress.Source

/-! ## Tags -/

structure Unmarked (tag : Text) : Prop where
  noSlash : slash ∉ tag
  noBracket : '['.toUInt8 ∉ tag

instance (tag : Text) : Decidable (Unmarked tag) :=
  decidable_of_iff (slash ∉ tag ∧ '['.toUInt8 ∉ tag)
    ⟨fun ⟨noSlash, noBracket⟩ => ⟨noSlash, noBracket⟩,
      fun unmarked => ⟨unmarked.noSlash, unmarked.noBracket⟩⟩

theorem unmarked_of_tagName {tag : Text} (isTag : Html.TagName tag) : Unmarked tag where
  noSlash member := absurd (isTag.bytes _ member) (by decide)
  noBracket member := absurd (isTag.bytes _ member) (by decide)

/-- The nodes that are numbered are as many as before, with the tags they had. -/
def KeepsTags (node : Node) : Prop :=
  ∀ (order : Nat) (path : Text),
    (node.numberFrom order path).1.subtree.map (·.tag) = node.subtree.map (·.tag)

theorem keepsTags (node : Node) : KeepsTags node := by
  induction node using Node.byChildren with
  | step node ih =>
      intro order path
      have inside : ∀ (nodes : List Node), (∀ node ∈ nodes, KeepsTags node) →
          ∀ (elder : List Text) (order : Nat),
            (subtrees (numberAll path elder order nodes).1).map (·.tag) =
              (subtrees nodes).map (·.tag) := by
        intro nodes each
        induction nodes with
        | nil => exact fun _ _ => rfl
        | cons first rest ih =>
            obtain ⟨own, others⟩ := List.forall_mem_cons.mp each
            intro elder order
            simp only [numberAll, subtrees, List.map_append, own _ _, ih others]
      rw [Node.numberFrom_eq, Node.subtree_eq, Node.subtree_eq, List.map_cons, List.map_cons,
        Node.inside, inside node.children ih, Node.inside]

theorem tags_numbered (root : Node) :
    root.numbered.subtree.map (·.tag) = root.subtree.map (·.tag) :=
  keepsTags root 0 root.tag

/-- What holds of the tags of a tree holds of them when it is numbered. -/
theorem forall_tags_numbered {root : Node} (holds : Text → Prop)
    (each : ∀ node ∈ root.subtree, holds node.tag) : ∀ node ∈ root.numbered.subtree, holds node.tag := by
  intro node member
  have listed : node.tag ∈ root.subtree.map (·.tag) :=
    tags_numbered root ▸ List.mem_map_of_mem member
  obtain ⟨before, isBefore, same⟩ := List.mem_map.mp listed
  exact same ▸ each before isBefore

/-! ## Numbers and paths -/

section Numbered

variable (root : Node)

theorem orders_eq_range : root.numbered.subtree.map (·.order) = List.range root.subtree.length := by
  have size := congrArg List.length (tags_numbered root)
  rw [List.length_map, List.length_map] at size
  rw [orders_numbered, size]

theorem paths_distinct (noSlash : ∀ node ∈ root.subtree, slash ∉ node.tag) :
    (root.numbered.subtree.map (·.path)).Nodup := by
  have numbered := forall_tags_numbered (slash ∉ ·) noSlash
  rw [Node.subtree_eq] at numbered
  exact (distinctPaths (fun _ absent => absent) root 0 root.tag fun inner member =>
    numbered inner (List.mem_cons_of_mem _ member)).1

end Numbered

end SlidePress.Source

namespace SlidePress.Layout

open Html (Grown)
open Source (Unmarked)

variable {α : Type}

/-! ## Tags of a page -/

inductive Skeleton.Tagged (allowed : Text → Prop) : Skeleton → Prop where
  | mk {tag text : Text} {attributes : Properties} {children : List Skeleton} (own : allowed tag)
      (inside : ∀ child ∈ children, Tagged allowed child) :
      Tagged allowed ⟨tag, text, attributes, children⟩

section Document

variable [Scalar α] {sheets : List (Option Css.Stylesheet)} {ancestors : List Html.Element}
  {own : Surroundings α}

theorem mem_childSkeletons {blanks : Bool} {children : List Html.Node} {skeleton : Skeleton}
    (member : skeleton ∈ childSkeletons sheets ancestors own blanks children) :
    ∃ child ∈ children, skeleton = nodeSkeleton sheets ancestors own child := by
  induction children with
  | nil => rw [childSkeletons] at member; cases member
  | cons child rest ih =>
      rw [childSkeletons] at member
      split at member
      · obtain ⟨found, isChild, same⟩ := ih member
        exact ⟨found, List.mem_cons_of_mem _ isChild, same⟩
      · rcases List.mem_cons.mp member with same | later
        · exact ⟨child, List.mem_cons_self, same⟩
        · obtain ⟨found, isChild, same⟩ := ih later
          exact ⟨found, List.mem_cons_of_mem _ isChild, same⟩

theorem tagged_text (content : Text) :
    (nodeSkeleton sheets ancestors own (.text content)).Tagged Unmarked := by
  rw [nodeSkeleton]
  exact .mk (by decide) (List.forall_mem_nil _)

theorem tagged_element {head : Html.Element} {children : List Html.Node} (readable : head.Readable)
    (inside : ∀ child ∈ children, ∀ (ancestors : List Html.Element) (own : Surroundings α),
      (nodeSkeleton sheets ancestors own child).Tagged Unmarked) :
    (nodeSkeleton sheets ancestors own (.element head children)).Tagged Unmarked := by
  rw [nodeSkeleton]
  refine .mk (Source.unmarked_of_tagName readable.tag) fun skeleton member => ?_
  obtain ⟨child, isChild, rfl⟩ := mem_childSkeletons member
  exact inside child isChild _ _

theorem tagged_of_grown {outer : List Text} {node : Html.Node} (grown : Grown outer node) :
    ∀ (ancestors : List Html.Element) (own : Surroundings α),
      (nodeSkeleton sheets ancestors own node).Tagged Unmarked := by
  induction grown with
  | text => exact fun _ _ => tagged_text _
  | void readable => exact fun _ _ => tagged_element readable (List.forall_mem_nil _)
  | raw readable opens isRaw kept =>
      refine fun _ _ => tagged_element readable fun child member => ?_
      rw [Html.eq_text_of_mem_textNodes member]
      exact fun _ _ => tagged_text _
  | nodes readable opens holds apart inner ih => exact fun _ _ => tagged_element readable ih

theorem tagged_layoutFreely (html : Text) (author : Css.Stylesheet) (viewport : Viewport α) :
    (layoutFreely author viewport (Html.Document.parse html).1).skeleton.Tagged Unmarked := by
  have grown := (Html.siblings_parse html).grown
  obtain ⟨box?, yields, same⟩ := skeleton_layoutDocument author viewport
    fun node member => bareImages_of_grown (grown node member)
  obtain ⟨box, isBox, shows⟩ := Option.map_eq_some_iff.mp same
  have result : Polled.under? none (layoutDocument author viewport (Html.Document.parse html).1) =
      some box := (congrArg Prod.fst (yields 0)).trans isBox
  rw [layoutFreely, Polled.into, result]
  dsimp only
  rw [shows, documentSkeleton]
  refine .mk (by decide) fun skeleton member => ?_
  obtain ⟨child, isChild, rfl⟩ := mem_childSkeletons member
  exact tagged_of_grown (grown child isChild) _ _

end Document

section Boxes

variable {allowed : Text → Prop}

theorem Box.tagged_iff (box : Box α) :
    box.skeleton.Tagged allowed ↔
      allowed box.tag ∧ ∀ child ∈ box.children, child.skeleton.Tagged allowed := by
  rw [Box.skeleton_eq]
  constructor
  · rintro ⟨own, inside⟩
    exact ⟨own, List.forall_mem_map.mp inside⟩
  · exact fun ⟨own, inside⟩ => .mk own (List.forall_mem_map.mpr inside)

mutual

theorem tagged_listing (box : Box α) (tagged : box.skeleton.Tagged allowed) (depth : Nat) :
    ∀ found ∈ box.listing depth, found.box.skeleton.Tagged allowed := by
  obtain ⟨frame, tag, text, attributes, style, children⟩ := box
  rw [Box.listing]
  refine List.forall_mem_cons.mpr ⟨tagged, ?_⟩
  exact tagged_listingAll children ((Box.tagged_iff _).mp tagged).2 (depth + 1)

theorem tagged_listingAll (boxes : List (Box α))
    (tagged : ∀ box ∈ boxes, box.skeleton.Tagged allowed) (depth : Nat) :
    ∀ found ∈ listingAll depth boxes, found.box.skeleton.Tagged allowed := by
  cases boxes with
  | nil => exact List.forall_mem_nil _
  | cons box rest =>
      obtain ⟨first, others⟩ := List.forall_mem_cons.mp tagged
      rw [listingAll]
      exact List.forall_mem_append.mpr
        ⟨tagged_listing box first depth, tagged_listingAll rest others depth⟩

end

theorem tagged_firstWithTag? {box found : Box α} [Scalar α] {tag : Text}
    (tagged : box.skeleton.Tagged allowed) (isFirst : box.firstWithTag? tag = some found) :
    found.skeleton.Tagged allowed := by
  obtain ⟨depicted, isFound, rfl⟩ := Option.map_eq_some_iff.mp isFirst
  exact tagged_listing box tagged 0 depicted (List.mem_of_find?_eq_some isFound)

end Boxes

end SlidePress.Layout

namespace SlidePress.Render

open Source (Node Size Tree Unmarked)

mutual

/-- A source node has the tags of its box. -/
theorem tags_sourceNode {allowed : Text → Prop} (x y : Number) (box : PageBox)
    (tagged : box.skeleton.Tagged allowed) :
    ∀ node ∈ (sourceNode x y box).subtree, allowed node.tag := by
  have parts := (Layout.Box.tagged_iff box).mp tagged
  obtain ⟨frame, tag, text, attributes, style, children⟩ := box
  rw [sourceNode, Node.subtree_eq]
  exact List.forall_mem_cons.mpr ⟨parts.1, tags_sourceNodes x y children parts.2⟩

theorem tags_sourceNodes {allowed : Text → Prop} (x y : Number) (boxes : List PageBox)
    (tagged : ∀ box ∈ boxes, box.skeleton.Tagged allowed) :
    ∀ node ∈ Source.subtrees (sourceNodes x y boxes), allowed node.tag := by
  cases boxes with
  | nil => exact List.forall_mem_nil _
  | cons box rest =>
      obtain ⟨first, others⟩ := List.forall_mem_cons.mp tagged
      rw [sourceNodes, Source.subtrees]
      exact List.forall_mem_append.mpr
        ⟨tags_sourceNode x y box first, tags_sourceNodes x y rest others⟩

end

/-- The source tree of a document comes from a numbered node whose tags are those of boxes. -/
theorem exists_root_extractTree {options : ExtractOptions} {document : PageBox} {tree : Tree}
    {allowed : Text → Prop} (tagged : document.skeleton.Tagged allowed)
    (extracted : extractTree options document = .ok tree) :
    ∃ root : Node, tree.root = some root.numbered ∧ ∀ node ∈ root.subtree, allowed node.tag := by
  unfold extractTree at extracted
  split at extracted
  · cases extracted
  · rename_i body isBody
    dsimp only at extracted
    split at extracted
    · cases extracted
    · obtain rfl := Except.ok.inj extracted
      exact ⟨_, rfl, tags_sourceNode _ _ body (Layout.tagged_firstWithTag? tagged isBody)⟩

/-- Numbering a tree gives its nodes the numbers from 0 in document order and tells how many there are.
Where no tag holds a slash, no two nodes have the same path. In a page that was read no tag holds a
slash or an opening bracket, so its nodes go by their paths. -/
theorem nodes_identified :
    (∀ (root : Node) (declared : Size),
      root.numbered.subtree.map (·.tag) = root.subtree.map (·.tag) ∧
      root.numbered.subtree.map (·.order) = List.range (Tree.size ⟨some root, declared⟩) ∧
      (root.numberFrom 0 root.tag).2 = Tree.size ⟨some root, declared⟩ ∧
      ((∀ node ∈ root.subtree, Source.slash ∉ node.tag) →
        (root.numbered.subtree.map (·.path)).Nodup)) ∧
    ∀ (html : Text) (author : Css.Stylesheet) (viewport : Layout.Viewport Number)
      (options : ExtractOptions) (tree : Tree),
      extractTree options (Layout.layoutFreely author viewport (Html.Document.parse html).1) =
          .ok tree →
        ∀ root ∈ tree.root, (∀ node ∈ root.subtree, Unmarked node.tag) ∧
          (root.subtree.map (·.path)).Nodup := by
  constructor
  · intro root declared
    refine ⟨Source.tags_numbered root, Source.orders_eq_range root, ?_, Source.paths_distinct root⟩
    exact (Source.numbersInOrder root 0 root.tag).2.trans (Nat.zero_add _)
  · intro html author viewport options tree extracted root isRoot
    obtain ⟨page, same, unmarked⟩ :=
      exists_root_extractTree (Layout.tagged_layoutFreely html author viewport) extracted
    obtain rfl : page.numbered = root := Option.some.inj (same.symm.trans isRoot)
    exact ⟨Source.forall_tags_numbered _ unmarked,
      Source.paths_distinct page fun node member => (unmarked node member).noSlash⟩

def twinsPage : Text :=
  "<body style='width: 960px; height: 540px; margin: 0'><p>to</p><p>to</p></body>"

theorem nodes_identified_twins :
    ∃ tree root, extractTree ⟨⟨720, 405⟩, 7.2, 5000⟩
        (Layout.layoutFreely ⟨[]⟩ ⟨960, 540⟩ (Html.Document.parse twinsPage).1) = .ok tree ∧
      tree.root = some root ∧ root.subtree.length = 5 ∧
      (∀ node ∈ root.subtree, Source.slash ∉ node.tag) ∧
      (root.numbered.subtree.map (·.path)).Nodup ∧ (root.subtree.map (·.path)).Nodup := by
  have size : ((extractTree ⟨⟨720, 405⟩, 7.2, 5000⟩ (Layout.layoutFreely ⟨[]⟩ ⟨960, 540⟩
      (Html.Document.parse twinsPage).1)).toOption.bind (·.root)).map (·.subtree.length) = some 5 := by
    decide +kernel
  obtain ⟨root, found, size⟩ := Option.map_eq_some_iff.mp size
  obtain ⟨tree, accepted, isRoot⟩ := Option.bind_eq_some_iff.mp found
  have extracted : extractTree ⟨⟨720, 405⟩, 7.2, 5000⟩ (Layout.layoutFreely ⟨[]⟩ ⟨960, 540⟩
      (Html.Document.parse twinsPage).1) = .ok tree := by
    revert accepted
    cases extractTree _ _ with
    | error => exact fun accepted => nomatch accepted
    | ok read => exact fun accepted => congrArg Except.ok (Option.some.inj accepted)
  obtain ⟨unmarked, distinct⟩ :=
    nodes_identified.2 twinsPage ⟨[]⟩ ⟨960, 540⟩ _ tree extracted root isRoot
  have noSlash : ∀ node ∈ root.subtree, Source.slash ∉ node.tag := fun node member =>
    (unmarked node member).noSlash
  exact ⟨tree, root, extracted, isRoot, size, noSlash,
    (nodes_identified.1 root ⟨720, 405⟩).2.2.2 noSlash, distinct⟩

end SlidePress.Render
