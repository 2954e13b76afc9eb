import SlidePress.Proofs.Html.Links

/-! How the elements of a document nest, whatever it was read from. A paragraph holds nothing that
would have closed it, at any depth: a boundary, past which an open paragraph is not found any more,
closes paragraphs itself, so that none is ever left open outside of one. Between two list items there
is a list or a table. What an element holds is told for each place in the document, and every node is
linked to the one that holds it. -/

namespace SlidePress.Html

/-! ## Open tags -/

/-- Tags, innermost first, each of which closes nothing of what stands around it. -/
inductive OpenTags : List Text → Prop where
  | nil : OpenTags []
  | cons {tag : Text} {outer : List Text} (rest : OpenTags outer) (opens : Opens tag outer) :
      OpenTags (tag :: outer)

theorem closer_of_boundary {tag : Text} (boundary : closingBoundaries.contains tag = true) :
    paragraphClosers.contains tag = true := by
  simp only [closingBoundaries, List.contains_cons, List.contains_nil, Bool.or_false, Bool.or_eq_true,
    beq_iff_eq] at boundary
  rcases boundary with rfl | rfl | rfl <;> decide

/-- A paragraph that is open anywhere is reached: a boundary inside it would have closed it. -/
theorem OpenTags.reaches_paragraph {outer : List Text} (opened : OpenTags outer)
    (member : ("p" : Text) ∈ outer) : reaches "p" outer = true := by
  induction opened with
  | nil => cases member
  | cons rest opens ih =>
      rename_i tag outer
      rw [reaches, Bool.or_eq_true, Bool.and_eq_true]
      rcases List.mem_cons.mp member with same | further
      · exact .inl (beq_iff_eq.mpr same.symm)
      · refine .inr ⟨?_, ih further⟩
        cases boundary : closingBoundaries.contains tag with
        | false => rfl
        | true =>
            have unreached := opens.paragraph (closer_of_boundary boundary)
            rw [ih further] at unreached
            cases unreached

/-- An element that stands around others and is not reached has a boundary inside it. -/
theorem boundary_of_not_reaches {tag : Text} {inner outer : List Text}
    (unreached : reaches tag (inner ++ tag :: outer) = false) :
    ∃ between ∈ inner, closingBoundaries.contains between = true := by
  induction inner with
  | nil => simp [reaches] at unreached
  | cons first rest ih =>
      rw [List.cons_append, reaches, Bool.or_eq_false_iff, Bool.and_eq_false_iff] at unreached
      rcases unreached.2 with boundary | further
      · exact ⟨first, List.mem_cons_self, by simpa using boundary⟩
      · obtain ⟨between, member, boundary⟩ := ih further
        exact ⟨between, List.mem_cons_of_mem _ member, boundary⟩

/-! ## What elements hold -/

structure TextsApart (children : List Node) : Prop where
  some : ∀ content, Node.text content ∈ children → content ≠ []
  apart : Apart children

theorem Siblings.textsApart {outer : List Text} {children : List Node}
    (siblings : Siblings outer children) : TextsApart children := by
  refine ⟨fun content member => ?_, siblings.apart⟩
  cases siblings.grown _ member with
  | text some => exact some

/-- An element as it can stand in a document that was read. -/
structure Standing (found : Located) : Prop where
  readable : found.head.Readable
  opened : OpenTags (found.head.tag :: found.ancestors.map (·.tag))
  texts : TextsApart found.children
  void : voidTags.contains found.head.tag = true → found.children = []
  raw : rawTextTags.contains found.head.tag = true →
    found.children = [] ∨ ∃ content, found.children = [.text content]

namespace Standing

variable {found : Located}

theorem not_closer (standing : Standing found)
    (inParagraph : ∃ outer ∈ found.ancestors, outer.tag = "p") :
    found.head.tag ∉ paragraphClosers := by
  intro closer
  obtain ⟨outer, around, isParagraph⟩ := inParagraph
  cases standing.opened with
  | cons rest opens =>
      have reached := rest.reaches_paragraph (List.mem_map.mpr ⟨outer, around, isParagraph⟩)
      have unreached := opens.paragraph (List.contains_iff_mem.mpr closer)
      rw [reached] at unreached
      cases unreached

theorem boundary_between (standing : Standing found) (isItem : found.head.tag = "li")
    {inner outer : List Element} {item : Element}
    (around : found.ancestors = inner ++ item :: outer) (isItemToo : item.tag = "li") :
    ∃ between ∈ inner, between.tag ∈ closingBoundaries := by
  cases standing.opened with
  | cons rest opens =>
      have unreached := opens.item isItem
      rw [around, List.map_append, List.map_cons, isItemToo] at unreached
      obtain ⟨tag, inside, boundary⟩ := boundary_of_not_reaches unreached
      obtain ⟨between, isBetween, rfl⟩ := List.mem_map.mp inside
      exact ⟨between, isBetween, List.contains_iff_mem.mp boundary⟩

end Standing

theorem locatedAll_eq_flatMap (ancestors : List Element) (nodes : List Node) :
    locatedAll ancestors nodes = nodes.flatMap (Node.located ancestors) := by
  induction nodes with
  | nil => rfl
  | cons node rest ih => rw [locatedAll, List.flatMap_cons, ih]

theorem textNodes_cases (content : Text) :
    textNodes content = [] ∨ textNodes content = [.text content] := by
  cases content with
  | nil => exact .inl rfl
  | cons byte rest => exact .inr rfl

theorem locatedAll_textNodes (ancestors : List Element) (content : Text) :
    locatedAll ancestors (textNodes content) = [] := by
  rcases textNodes_cases content with empty | single
  · rw [empty]
    rfl
  · rw [single]
    rfl

/-- What has grown inside open elements can stand there. -/
theorem Grown.standing {outer : List Text} {node : Node} (grown : Grown outer node) :
    ∀ ancestors : List Element, ancestors.map (·.tag) = outer → OpenTags outer →
      ∀ found ∈ node.located ancestors, Standing found := by
  induction grown with
  | text some =>
      intro ancestors _ _ found member
      cases member
  | void readable opens isVoid =>
      rename_i outer head
      intro ancestors tags opened found member
      rw [Node.located, locatedAll] at member
      rw [List.mem_singleton.mp member]
      have nothing : Siblings outer [] := .nil
      exact ⟨readable, tags.symm ▸ opened.cons opens, nothing.textsApart, fun _ => rfl,
        fun _ => .inl rfl⟩
  | raw readable opens isRaw kept =>
      rename_i outer head content
      intro ancestors tags opened found member
      rw [Node.located, locatedAll_textNodes] at member
      rw [List.mem_singleton.mp member]
      have inside : Siblings outer (textNodes content) := .textNodes content
      refine ⟨readable, tags.symm ▸ opened.cons opens, inside.textsApart, fun isVoid => ?_,
        fun _ => (textNodes_cases content).imp id fun single => ⟨content, single⟩⟩
      rw [not_void_of_raw isRaw] at isVoid
      cases isVoid
  | nodes readable opens holds apart inner ih =>
      rename_i outer head children
      intro ancestors tags opened found member
      have within : OpenTags (head.tag :: outer) := opened.cons opens
      rw [Node.located] at member
      rcases List.mem_cons.mp member with same | below
      · rw [same]
        refine ⟨readable, tags.symm ▸ within, (Siblings.mk apart inner).textsApart, fun isVoid => ?_,
          fun isRaw => ?_⟩
        · rw [holds.notVoid] at isVoid
          cases isVoid
        · rw [holds.notRaw] at isRaw
          cases isRaw
      · rw [locatedAll_eq_flatMap] at below
        obtain ⟨child, isChild, inside⟩ := List.mem_flatMap.mp below
        exact ih child isChild (head :: ancestors) (by rw [List.map_cons, tags]) within found inside

theorem standing_of_mem_parse {html : Text} {found : Located}
    (member : found ∈ (Document.parse html).1.located) : Standing found := by
  rw [Document.located, locatedAll_eq_flatMap] at member
  obtain ⟨child, isChild, inside⟩ := List.mem_flatMap.mp member
  exact ((siblings_parse html).grown child isChild).standing [] rfl .nil found inside

/-! ## Who holds a node -/

def Node.children : Node → List Node
  | .text _ => []
  | .element _ children => children

structure Placed where
  holders : List Node
  node : Node

mutual

/-- The nodes of a tree in document order, texts and elements, each with the nodes around it. -/
def Node.placed (holders : List Node) : Node → List Placed
  | .text content => [⟨holders, .text content⟩]
  | .element head children =>
      ⟨holders, .element head children⟩ :: placedAll (.element head children :: holders) children

def placedAll (holders : List Node) : List Node → List Placed
  | [] => []
  | node :: rest => node.placed holders ++ placedAll holders rest

end

def Document.placed (document : Document) : List Placed := placedAll [] document.children

theorem placedAll_eq_flatMap (holders nodes : List Node) :
    placedAll holders nodes = nodes.flatMap (Node.placed holders) := by
  induction nodes with
  | nil => rfl
  | cons node rest ih => rw [placedAll, List.flatMap_cons, ih]

theorem Node.byChildren {motive : Node → Prop} (text : ∀ content, motive (.text content))
    (element : ∀ head children, (∀ child ∈ children, motive child) →
      motive (.element head children)) : ∀ node, motive node
  | .text content => text content
  | .element head children =>
      element head children fun child _ => Node.byChildren text element child

/-- The innermost node around a node, if there is one, holds it and has a place of its own. -/
def Placed.Held (places : List Placed) (roots : List Node) (place : Placed) : Prop :=
  match place.holders with
  | [] => place.node ∈ roots
  | holder :: outer => place.node ∈ holder.children ∧ ⟨outer, holder⟩ ∈ places

/-- Every place in a tree is that of the tree itself, or is held inside it. -/
theorem held_of_mem_placed (node : Node) :
    ∀ holders, ∀ place ∈ node.placed holders, place = ⟨holders, node⟩ ∨
      ∃ holder outer, place.holders = holder :: outer ∧ place.node ∈ holder.children ∧
        ⟨outer, holder⟩ ∈ node.placed holders := by
  induction node using Node.byChildren with
  | text content =>
      intro holders place member
      rw [Node.placed] at member
      exact .inl (List.mem_singleton.mp member)
  | element head children ih =>
      intro holders place member
      rw [Node.placed] at member ⊢
      rcases List.mem_cons.mp member with same | below
      · exact .inl same
      · rw [placedAll_eq_flatMap] at below
        obtain ⟨child, isChild, inside⟩ := List.mem_flatMap.mp below
        right
        rcases ih child isChild (.element head children :: holders) place inside with
          rfl | ⟨holder, outer, around, holds, placed⟩
        · exact ⟨.element head children, holders, rfl, isChild, List.mem_cons_self⟩
        · refine ⟨holder, outer, around, holds, List.mem_cons_of_mem _ ?_⟩
          rw [placedAll_eq_flatMap]
          exact List.mem_flatMap.mpr ⟨child, isChild, placed⟩

theorem Document.held (document : Document) :
    ∀ place ∈ document.placed, place.Held document.placed document.children := by
  intro place member
  rw [Document.placed, placedAll_eq_flatMap] at member
  obtain ⟨child, isChild, inside⟩ := List.mem_flatMap.mp member
  rcases held_of_mem_placed child [] place inside with rfl | ⟨holder, outer, around, holds, placed⟩
  · exact isChild
  · rw [Placed.Held, around, Document.placed, placedAll_eq_flatMap]
    exact ⟨holds, List.mem_flatMap.mpr ⟨child, isChild, placed⟩⟩

def Node.head? : Node → Option Element
  | .text _ => none
  | .element head _ => some head

def Placed.located? (place : Placed) : Option Located :=
  place.node.head?.map fun head => ⟨place.holders.filterMap Node.head?, head, place.node.children⟩

/-! ## Documents -/

/-- How a document nests whose nodes are stored with their links. -/
structure WellNested (document : Document) (nodes : List Linked) : Prop where
  /-- Nothing inside a paragraph, at any depth, is an element that closes paragraphs. -/
  paragraphs : ∀ found ∈ document.located, (∃ outer ∈ found.ancestors, outer.tag = "p") →
    found.head.tag ∉ paragraphClosers
  /-- Between a list item and one around it there is a list or a table. -/
  items : ∀ found ∈ document.located, found.head.tag = "li" →
    ∀ (inner : List Element) (item : Element) (outer : List Element),
      found.ancestors = inner ++ item :: outer → item.tag = "li" →
        ∃ between ∈ inner, between.tag ∈ closingBoundaries
  texts : TextsApart document.children ∧ ∀ found ∈ document.located, TextsApart found.children
  void : ∀ found ∈ document.located, found.head.tag ∈ voidTags → found.children = []
  raw : ∀ found ∈ document.located, found.head.tag ∈ rawTextTags →
    found.children = [] ∨ ∃ content, found.children = [.text content]
  tags : ∀ found ∈ document.located, TagName found.head.tag
  attributes : ∀ found ∈ document.located, ∀ entry ∈ found.head.attributes.entries,
    AttributeName entry.1
  shown : document.children = nodesOf nodes
  /-- The children of the document and of every node are linked to the one that holds them. -/
  parents : ∀ link children, childrenAt? nodes link = some children →
    ∀ child ∈ children, child.parent = link

/-- Every document nests well, whatever it is read from. -/
theorem wellNested_parse (html : Text) :
    WellNested (Document.parse html).1 (Linked.parse html).1 where
  paragraphs _ member := (standing_of_mem_parse member).not_closer
  items _ member isItem _ _ _ around isItemToo :=
    (standing_of_mem_parse member).boundary_between isItem around isItemToo
  texts := ⟨(siblings_parse html).textsApart,
    fun _ member => (standing_of_mem_parse member).texts⟩
  void _ member isVoid := (standing_of_mem_parse member).void (List.contains_iff_mem.mpr isVoid)
  raw _ member isRaw := (standing_of_mem_parse member).raw (List.contains_iff_mem.mpr isRaw)
  tags _ member := (standing_of_mem_parse member).readable.tag
  attributes _ member := (standing_of_mem_parse member).readable.attributes
  shown := rfl
  parents := linksFrom_parse html

end SlidePress.Html
