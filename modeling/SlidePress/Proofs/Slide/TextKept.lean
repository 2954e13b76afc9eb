import SlidePress.Proofs.Slide.Emission
import SlidePress.Proofs.Slide.VisibleText
import SlidePress.Proofs.Source.Paths

/-! What becomes of texts. A text below the root of a numbered tree is in one block of text, and the
block shows it together with the other texts inside it; or it stands outside of every block, and the
mapping notes it with its path. Only what is inside an image or a placeholder is passed over in
silence. No block shows anything but the texts inside it. -/

namespace SlidePress.Slide

open Source (Node NodeRef Kind Size Placed writtenText PlainTag)
open Text (visible)

section Notes

variable {roles : List Role} {limit : Nat} {path : Text}

def notesAt (path : Text) (mapped : MappedDocument) : List Text :=
  mapped.degradations.filter fun note => (strayHead path).isPrefixOf note

/-- The node is a text that shows, and nothing around it speaks for it. -/
def isStray (roles : List Role) (placed : Placed) : Bool :=
  !placed.isShut roles && !placed.inText roles && roleOf roles placed.node == .ignorable &&
    showsText placed.node

theorem not_strayHead {note : Text} (other : note.head? ≠ some 't'.toUInt8) :
    (strayHead path).isPrefixOf note = false := by
  cases isHead : (strayHead path).isPrefixOf note with
  | false => rfl
  | true =>
      obtain ⟨tail, rfl⟩ := List.isPrefixOf_iff_prefix.mp isHead
      exact (other rfl).elim

/-- What a shape loses is not taken for a text. -/
theorem not_strayHead_dropped {node : Node} {what : Text} (member : what ∈ droppedStyle node)
    (place : Text) : (strayHead path).isPrefixOf (what ++ place) = false := by
  apply not_strayHead
  rw [droppedStyle] at member
  rcases List.mem_append.mp member with image | shadow
  · split at image
    · rw [List.mem_singleton.mp image]
      intro same
      cases same
    · cases image
  · obtain ⟨_, _, rfl⟩ := List.mem_map.mp shadow
    intro same
    cases same

theorem filter_pickAt (placed : Placed) :
    (pickAt roles (pickNote roles limit) placed).filter (fun note => (strayHead path).isPrefixOf note) =
      if isStray roles placed && (strayHead path).isPrefixOf (strayNote limit placed.node) then
        [strayNote limit placed.node]
      else [] := by
  rw [pickAt, isStray]
  cases placed.isShut roles with
  | true => rfl
  | false =>
      cases placed.inText roles with
      | true => rfl
      | false =>
          rw [pickNote, if_neg Bool.false_ne_true]
          cases roleOf roles placed.node with
          | textBlock =>
              apply List.filter_eq_nil_iff.mpr
              intro note member
              dsimp only at member
              split at member
              · rw [List.mem_singleton.mp member, not_strayHead (by intro same; cases same)]
                exact Bool.false_ne_true
              · cases member
          | shapeContainer =>
              apply List.filter_eq_nil_iff.mpr
              intro note member
              obtain ⟨what, isDropped, rfl⟩ := List.mem_map.mp member
              rw [List.append_assoc, List.append_assoc, List.append_assoc,
                not_strayHead_dropped isDropped]
              exact Bool.false_ne_true
          | image => rfl
          | placeholder => rfl
          | inline => rfl
          | ignorable =>
              cases showsText placed.node with
              | false => rfl
              | true => exact List.filter_cons

/-- The notes that name a path are those about stray texts. -/
theorem notesAt_mapDocument (placeholderClass : Text) (limit : Nat) (root : Node) (declared : Size)
    (path : Text) :
    notesAt path (mapNumbered placeholderClass limit root declared) =
      (root.numbered.descendants.filter fun placed =>
        isStray (numberedRoles placeholderClass root declared) placed &&
          (strayHead path).isPrefixOf (strayNote limit placed.node)).map
        fun placed => strayNote limit placed.node := by
  rw [notesAt, (yields_mapDocument placeholderClass limit root declared).2.2, List.filter_flatMap,
    ← flatMap_ite_singleton]
  exact List.flatMap_congr fun placed _ => filter_pickAt placed

/-- The blank after a path shows where it ends. -/
theorem way_eq_of_strayHead {stem way other rest : Text} (unbroken : Source.blank ∉ way)
    (unbrokenToo : Source.blank ∉ other)
    (isHead : (strayHead (stem ++ way)).isPrefixOf (strayHead (stem ++ other) ++ rest) = true) :
    way = other := by
  have shape : ∀ way rest : Text, strayHead (stem ++ way) ++ rest =
      "text outside a text element at " ++ (stem ++ ((way ++ [':'.toUInt8]) ++
        Source.blank :: (Byte.doubleQuote :: rest))) := by
    intro way rest
    rw [strayHead]
    simp only [List.append_assoc]
    rfl
  have noBlank : ∀ {way : Text}, Source.blank ∉ way → Source.blank ∉ way ++ [':'.toUInt8] := by
    intro way unbroken member
    rcases List.mem_append.mp member with inWay | colon
    · exact unbroken inWay
    · exact absurd (List.mem_singleton.mp colon) (by decide)
  obtain ⟨tail, same⟩ := List.isPrefixOf_iff_prefix.mp isHead
  rw [shape, shape] at same
  have ends := congrArg (Text.before Source.blank)
    (List.append_cancel_left (List.append_cancel_left same))
  rw [Text.before_append (noBlank unbroken), Text.before_append (noBlank unbrokenToo)] at ends
  exact List.append_cancel_right ends

end Notes

theorem filter_eq_singleton {α β : Type} {key : α → β} {keep : α → Bool} {items : List α} {item : α}
    (distinct : (items.map key).Nodup) (member : item ∈ items) (kept : keep item = true)
    (only : ∀ other ∈ items, keep other = true → key other = key item) :
    items.filter keep = [item] := by
  induction items with
  | nil => cases member
  | cons first rest ih =>
      rw [List.map_cons, List.nodup_cons] at distinct
      obtain ⟨fresh, distinctRest⟩ := distinct
      rcases List.mem_cons.mp member with rfl | later
      · rw [List.filter_cons, if_pos kept]
        congr 1
        apply List.filter_eq_nil_iff.mpr
        intro other inRest keptToo
        apply fresh
        rw [← only other (List.mem_cons_of_mem _ inRest) keptToo]
        exact List.mem_map_of_mem inRest
      · have dropped : ¬ keep first = true := by
          intro keptToo
          apply fresh
          rw [only first List.mem_cons_self keptToo]
          exact List.mem_map_of_mem later
        rw [List.filter_cons, if_neg dropped]
        exact ih distinctRest later fun other inRest => only other (List.mem_cons_of_mem _ inRest)

/-- A text that shows and that is not inside an image or a placeholder. -/
structure IsExposedText (roles : List Role) (placed : Placed) : Prop where
  isText : placed.node.kind = .text
  shows : visible placed.node.text ≠ []
  notShut : placed.isShut roles = false

/-- One block of text is around the node. It becomes one primitive, and what shows of its runs is
what shows of the texts inside the block. -/
def KeptInBlock (roles : List Role) (mapped : MappedDocument) (placed : Placed) : Prop :=
  ∃ block header content,
    placed.ancestors.filter (roleOf roles · == .textBlock) = [block] ∧
      mapped.primitives.filter (·.header.source == block.ref) = [⟨header, .text content⟩] ∧
      visible (content.runs.flatMap (·.text)) = visible (writtenText block.inside)

theorem not_keptInBlock {roles : List Role} {mapped : MappedDocument} {placed : Placed}
    (outside : placed.inText roles = false) : ¬ KeptInBlock roles mapped placed := by
  rintro ⟨block, _, _, blocks, _⟩
  have isBlock : block ∈ placed.ancestors.filter (roleOf roles · == .textBlock) := by
    rw [blocks]
    exact List.mem_singleton.mpr rfl
  obtain ⟨isAround, isTextBlock⟩ := List.mem_filter.mp isBlock
  exact List.any_eq_false.mp outside block isAround isTextBlock

/-- The node is ignorable and noted under its path; where tags are plain it is noted just once. -/
structure NotedOutside (root : Node) (roles : List Role) (mapped : MappedDocument) (node : Node) :
    Prop where
  role : roleOf roles node = .ignorable
  noted : notesAt node.path mapped ≠ []
  once : (∀ inner ∈ root.inside, PlainTag inner.tag) → (notesAt node.path mapped).length = 1

section Numbered

variable (placeholderClass : Text) (limit : Nat) (root : Node) (declared : Size)

/-- A node that is to be shown is the source of one primitive. -/
theorem primitives_of_source {placed : Placed} (member : placed ∈ root.numbered.descendants)
    (shown : isShown (numberedRoles placeholderClass root declared) placed = true) :
    ∃ primitive,
      (mapNumbered placeholderClass limit root declared).primitives.filter
          (·.header.source == placed.node.ref) = [primitive] ∧
        Depicts (numberedRoles placeholderClass root declared) primitive placed.node := by
  have same := congrArg (List.filter (·.source == placed.node.ref))
    (sketches_eq_shown placeholderClass limit root declared)
  rw [List.filter_map, List.filter_map, List.filter_filter] at same
  have only : (root.numbered.descendants.filter fun other =>
      (other.node.ref == placed.node.ref) &&
        isShown (numberedRoles placeholderClass root declared) other) = [placed] := by
    apply filter_eq_singleton (Source.distinct_descendants (Source.distinct_orders root)) member
    · simp [shown]
    · intro other _ kept
      have sameRef := eq_of_beq (Bool.and_eq_true_iff.mp kept).1
      exact congrArg NodeRef.order sameRef
  have sketched := same.trans (congrArg (List.map _) only)
  obtain ⟨primitive, single, sketch⟩ := List.map_eq_singleton_iff.mp sketched
  exact ⟨primitive, single, depicts_of_sketch sketch⟩

/-- Only blocks of text are shown as texts. -/
theorem textContent_of_bodyOf {roles : List Role} {node : Node} {content : TextContent}
    (isText : bodyOf roles node = .text content) :
    roleOf roles node = .textBlock ∧ textContent node = content := by
  rw [bodyOf] at isText
  split at isText
  · rename_i role
    cases isText
    exact ⟨role, rfl⟩
  · cases isText
  · cases isText
  · cases isText

/-- A text inside a block shows in the text of the block. -/
theorem visible_writtenText {nodes : List Node} {node : Node} (member : node ∈ nodes)
    (isText : node.kind = .text) (shows : visible node.text ≠ []) :
    visible (writtenText nodes) ≠ [] := by
  obtain ⟨byte, isByte⟩ := List.exists_mem_of_ne_nil _ shows
  obtain ⟨inText, isVisible⟩ := List.mem_filter.mp isByte
  apply List.ne_nil_of_mem (a := byte)
  refine List.mem_filter.mpr ⟨?_, isVisible⟩
  refine List.mem_flatMap.mpr ⟨node, List.mem_filter.mpr ⟨member, ?_⟩, inText⟩
  rw [isText]
  rfl

theorem visible_block (proper : ∀ inner ∈ root.numbered.subtree, inner.IsProper) {block : Node}
    (member : block ∈ root.numbered.subtree) :
    visible ((textContent block).runs.flatMap (·.text)) = visible (writtenText block.inside) := by
  apply visible_textContent
  intro inner within
  apply proper inner
  apply Source.mem_subtree_trans _ root.numbered member
  rw [Node.subtree_eq]
  exact List.mem_cons_of_mem _ within

theorem filter_ancestors {roles : List Role} {inner outer : List Node} {block : Node}
    (isBlock : roleOf roles block = .textBlock)
    (between : ∀ other ∈ inner, roleOf roles other = .inline)
    (around : ∀ other ∈ outer, IsOpen roles other) :
    (inner ++ block :: outer).filter (roleOf roles · == .textBlock) = [block] := by
  have noneBetween : inner.filter (roleOf roles · == .textBlock) = [] := by
    apply List.filter_eq_nil_iff.mpr
    intro other member
    rw [between other member]
    decide
  have noneAround : outer.filter (roleOf roles · == .textBlock) = [] := by
    apply List.filter_eq_nil_iff.mpr
    intro other member
    rw [not_block_of_open (around other member)]
    exact Bool.false_ne_true
  rw [List.filter_append, List.filter_cons, isBlock, noneBetween, noneAround]
  rfl

/-- A text in a block is kept by the block. -/
theorem keptInBlock (proper : ∀ inner ∈ root.numbered.subtree, inner.IsProper) {placed : Placed}
    (member : placed ∈ root.numbered.descendants)
    (exposed : IsExposedText (numberedRoles placeholderClass root declared) placed)
    {inner outer : List Node} {block : Node} (path : placed.ancestors = inner ++ block :: outer)
    (isBlock : roleOf (numberedRoles placeholderClass root declared) block = .textBlock)
    (between : ∀ other ∈ inner,
      roleOf (numberedRoles placeholderClass root declared) other = .inline)
    (around : ∀ other ∈ outer, IsOpen (numberedRoles placeholderClass root declared) other) :
    KeptInBlock (numberedRoles placeholderClass root declared)
      (mapNumbered placeholderClass limit root declared) placed := by
  have notRoot : block ≠ root.numbered := by
    rintro rfl
    rw [(classified_children placeholderClass root declared).1] at isBlock
    cases isBlock
  -- The block is placed in the tree itself, so that it is among the nodes that can be shown.
  obtain isRoot | ⟨blockMember, inside⟩ := Source.ancestor_descendants member path
  · exact (notRoot isRoot).elim
  · have kept := visible_block root proper (Source.mem_subtree_of_descendants blockMember)
    -- Without runs nothing of the block would show, but the text inside it does.
    have runs : (textContent block).runs.isEmpty = false := by
      cases content : (textContent block).runs with
      | cons run rest => rfl
      | nil =>
          rw [content] at kept
          exact (visible_writtenText inside exposed.isText exposed.shows kept.symm).elim
    have shown : isShown (numberedRoles placeholderClass root declared) ⟨outer, block⟩ = true := by
      simp [isShown, isBlock, runs]
    obtain ⟨⟨header, body⟩, single, depicts⟩ :=
      primitives_of_source placeholderClass limit root declared blockMember shown
    have isContent : body = .text (textContent block) := by
      refine depicts.body.trans ?_
      rw [bodyOf, isBlock]
    refine ⟨block, header, textContent block, ?_, ?_, kept⟩
    · rw [path]
      exact filter_ancestors isBlock between around
    · rw [← isContent]
      exact single

theorem isPrefixOf_strayNote (node : Node) :
    (strayHead node.path).isPrefixOf (strayNote limit node) = true := by
  rw [List.isPrefixOf_iff_prefix, strayNote, List.append_assoc]
  exact List.prefix_append _ _

/-- A text outside of every block is noted under its path. -/
theorem notedOutside (proper : ∀ inner ∈ root.numbered.subtree, inner.IsProper) {placed : Placed}
    (member : placed ∈ root.numbered.descendants)
    (exposed : IsExposedText (numberedRoles placeholderClass root declared) placed)
    (notInText : placed.inText (numberedRoles placeholderClass root declared) = false)
    (role : roleOf (numberedRoles placeholderClass root declared) placed.node = .ignorable) :
    NotedOutside root.numbered (numberedRoles placeholderClass root declared)
      (mapNumbered placeholderClass limit root declared) placed.node := by
  have leaf := proper placed.node (Source.mem_subtree_of_descendants member) (.inl exposed.isText)
  have shows : showsText placed.node = true := by
    have same := Source.visible_collapsedText exposed.isText leaf
    rw [showsText, exposed.isText]
    cases collapsed : placed.node.collapsedText with
    | cons byte rest => rfl
    | nil =>
        rw [collapsed] at same
        exact (exposed.shows same.symm).elim
  have stray : isStray (numberedRoles placeholderClass root declared) placed = true := by
    rw [isStray, exposed.notShut, notInText, role, shows]
    rfl
  refine ⟨role, ?_, ?_⟩
  · rw [notesAt_mapDocument]
    refine List.ne_nil_of_mem (List.mem_map_of_mem (List.mem_filter.mpr ⟨member, ?_⟩))
    rw [stray, isPrefixOf_strayNote]
    rfl
  · intro plain
    obtain ⟨distinct, ways⟩ := Source.paths_numbered plain
    rw [notesAt_mapDocument, List.length_map, filter_eq_singleton
      (Source.distinct_descendants distinct) member]
    · rfl
    · rw [stray, isPrefixOf_strayNote]
      rfl
    · intro other otherMember kept
      obtain ⟨way, isWay, leads⟩ := ways _ (Source.mem_subtree_of_descendants member)
      obtain ⟨otherWay, isOther, otherLeads⟩ := ways _ (Source.mem_subtree_of_descendants otherMember)
      have isHead := (Bool.and_eq_true_iff.mp kept).2
      rw [strayNote, leads, otherLeads, List.append_assoc] at isHead
      rw [leads, otherLeads, way_eq_of_strayHead isWay.unbroken isOther.unbroken isHead]

/-- Every text that shows below the root, unless an image or a placeholder is around it, is either
kept by the one block around it or noted as outside of every block; and a text primitive shows
nothing but the texts inside its block. -/
theorem texts_kept_or_noted (proper : ∀ inner ∈ root.numbered.subtree, inner.IsProper) :
    let roles := numberedRoles placeholderClass root declared
    let mapped := mapNumbered placeholderClass limit root declared
    (∀ placed ∈ root.numbered.descendants, IsExposedText roles placed →
        Xor (KeptInBlock roles mapped placed) (NotedOutside root.numbered roles mapped placed.node)) ∧
      ∀ primitive ∈ mapped.primitives, ∀ content, primitive.body = .text content →
        ∃ block ∈ root.numbered.descendants, roleOf roles block.node = .textBlock ∧
          primitive.header.source = block.node.ref ∧
          visible (content.runs.flatMap (·.text)) = visible (writtenText block.node.inside) := by
  intro roles mapped
  constructor
  · intro placed member exposed
    cases standing_descendants placeholderClass root declared placed member with
    | free around ignorable =>
        obtain ⟨notInText, _⟩ := free_flags around
        exact .inr ⟨notedOutside placeholderClass limit root declared proper member exposed notInText
          (ignorable exposed.isText), not_keptInBlock notInText⟩
    | inBlock role inner block outer path isBlock between around =>
        refine .inl ⟨keptInBlock placeholderClass limit root declared proper member exposed path isBlock
          between around, ?_⟩
        intro noted
        cases role.symm.trans noted.role
    | inClosed role inner closed outer path isClosed between around =>
        have shut := (closed_flags path isClosed between around).2
        cases shut.symm.trans exposed.notShut
  · intro primitive member content isText
    have sketched := List.mem_map_of_mem (f := Primitive.sketch) member
    rw [sketches_eq_shown] at sketched
    obtain ⟨block, isListed, sketch⟩ := List.mem_map.mp sketched
    have depicts := depicts_of_sketch sketch.symm
    have inTree := (List.mem_filter.mp isListed).1
    obtain ⟨isBlock, rfl⟩ := textContent_of_bodyOf (depicts.body.symm.trans isText)
    exact ⟨block, inTree, isBlock, depicts.source,
      visible_block root proper (Source.mem_subtree_of_descendants inTree)⟩

end Numbered

section Samples

def bareNode (tag text : Text) (children : List Node) : Node :=
  { tag, attributes := ∅, text, style := ⟨∅⟩, box := ⟨0, 0, 0, 0⟩, children }

def bareText (text : Text) : Node := bareNode "#text" text []

instance (node : Node) : Decidable node.IsProper := inferInstanceAs (Decidable (_ → _))

instance (roles : List Role) (placed : Placed) : Decidable (IsExposedText roles placed) :=
  decidable_of_iff
    (placed.node.kind = .text ∧ visible placed.node.text ≠ [] ∧ placed.isShut roles = false)
    ⟨fun ⟨isText, shows, notShut⟩ => ⟨isText, shows, notShut⟩,
      fun exposed => ⟨exposed.isText, exposed.shows, exposed.notShut⟩⟩

def mixedPage : Node :=
  bareNode "body" []
    [bareNode "p" [] [bareText " to ", bareNode "b" [] [bareText "be"]],
      bareNode "div" [] [bareText "or not"]]

theorem texts_kept_or_noted_mixedPage :
    (∀ inner ∈ mixedPage.numbered.subtree, inner.IsProper) ∧
      (∃ placed ∈ mixedPage.numbered.descendants,
        IsExposedText (numberedRoles "placeholder" mixedPage ⟨720, 405⟩) placed ∧
          KeptInBlock (numberedRoles "placeholder" mixedPage ⟨720, 405⟩)
            (mapNumbered "placeholder" 50 mixedPage ⟨720, 405⟩) placed) ∧
      ∃ placed ∈ mixedPage.numbered.descendants,
        IsExposedText (numberedRoles "placeholder" mixedPage ⟨720, 405⟩) placed ∧
          NotedOutside mixedPage.numbered (numberedRoles "placeholder" mixedPage ⟨720, 405⟩)
            (mapNumbered "placeholder" 50 mixedPage ⟨720, 405⟩) placed.node ∧
          (notesAt placed.node.path
            (mapNumbered "placeholder" 50 mixedPage ⟨720, 405⟩)).length = 1 := by
  have proper : ∀ inner ∈ mixedPage.numbered.subtree, inner.IsProper := by decide +kernel
  have kept := (texts_kept_or_noted "placeholder" 50 mixedPage ⟨720, 405⟩ proper).1
  refine ⟨proper, ⟨mixedPage.numbered.descendants.get ⟨3, by decide +kernel⟩, List.get_mem .., ?_⟩,
    ⟨mixedPage.numbered.descendants.get ⟨5, by decide +kernel⟩, List.get_mem .., ?_⟩⟩
  · have exposed : IsExposedText (numberedRoles "placeholder" mixedPage ⟨720, 405⟩)
        (mixedPage.numbered.descendants.get ⟨3, by decide +kernel⟩) := by decide +kernel
    refine ⟨exposed, (kept _ (List.get_mem ..) exposed).or.resolve_right fun noted => ?_⟩
    exact absurd noted.role (by decide +kernel)
  · have exposed : IsExposedText (numberedRoles "placeholder" mixedPage ⟨720, 405⟩)
        (mixedPage.numbered.descendants.get ⟨5, by decide +kernel⟩) := by decide +kernel
    have noted := (kept _ (List.get_mem ..) exposed).or.resolve_left
      (not_keptInBlock (by decide +kernel))
    exact ⟨exposed, noted, noted.once (by decide +kernel)⟩

/-- Every text that shows in the tree, the root included and whatever the tags, is kept by one block
or noted once. -/
def AllKeptOrNotedOnce (root : Node) : Prop :=
  let roles := numberedRoles "placeholder" root ⟨720, 405⟩
  let mapped := mapNumbered "placeholder" 50 root ⟨720, 405⟩
  (∀ inner ∈ root.numbered.subtree, inner.IsProper) →
    ∀ placed ∈ root.numbered.placed [], IsExposedText roles placed →
      Xor (KeptInBlock roles mapped placed)
        (roleOf roles placed.node = .ignorable ∧ (notesAt placed.node.path mapped).length = 1)

/-- Two texts under one path, since a tag looks like two steps. -/
def sharedPathPage : Node :=
  bareNode "body" []
    [bareNode "div" [] [bareNode "section" [] [bareText "first"]],
      bareNode "div[0]/section" [] [bareText "second"]]

/-- Two texts under one note, since a tag looks like the beginning of a quotation. -/
def sharedNotePage : Node :=
  bareNode "body" []
    [bareText "x[0]/#text[0]: \"same", bareNode "#text[0]: \"x" [] [bareText "same"]]

theorem not_allKeptOrNotedOnce_of {root : Node}
    (proper : ∀ inner ∈ root.numbered.subtree, inner.IsProper)
    (index : Fin (root.numbered.placed []).length)
    (exposed : IsExposedText (numberedRoles "placeholder" root ⟨720, 405⟩)
      ((root.numbered.placed []).get index))
    (outside : ((root.numbered.placed []).get index).inText
      (numberedRoles "placeholder" root ⟨720, 405⟩) = false)
    (count : (notesAt ((root.numbered.placed []).get index).node.path
      (mapNumbered "placeholder" 50 root ⟨720, 405⟩)).length ≠ 1) :
    ¬ AllKeptOrNotedOnce root := by
  intro all
  rcases all proper _ (List.get_mem ..) exposed with ⟨kept, _⟩ | ⟨noted, _⟩
  · exact not_keptInBlock outside kept
  · exact count noted.2

/-- A text that is the root itself is lost without a note, and tags that hold a slash or a blank can
make two notes name one path. -/
theorem not_allKeptOrNotedOnce :
    ¬ AllKeptOrNotedOnce (bareText "alone") ∧ ¬ AllKeptOrNotedOnce sharedPathPage ∧
      ¬ AllKeptOrNotedOnce sharedNotePage := by
  refine ⟨?_, ?_, ?_⟩
  · exact not_allKeptOrNotedOnce_of (by decide +kernel) ⟨0, by decide +kernel⟩ (by decide +kernel)
      (by decide +kernel) (by decide +kernel)
  · exact not_allKeptOrNotedOnce_of (by decide +kernel) ⟨3, by decide +kernel⟩ (by decide +kernel)
      (by decide +kernel) (by decide +kernel)
  · exact not_allKeptOrNotedOnce_of (by decide +kernel) ⟨1, by decide +kernel⟩ (by decide +kernel)
      (by decide +kernel) (by decide +kernel)

end Samples

end SlidePress.Slide
