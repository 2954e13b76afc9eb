import SlidePress.Proofs.Source.DocumentOrder
import SlidePress.Slide.TextBlock
import SlidePress.Source.CollapsedText

/-! Visible bytes. Collecting the texts of a block, collapsing their white space and joining them to
runs moves white space around and nothing else: the bytes of the runs that show are those of the
texts inside the block, in document order. -/

namespace SlidePress.Text

def visible (text : Text) : Text := text.filter (! Byte.isSpace ·)

theorem visible_append (first second : Text) :
    visible (first ++ second) = visible first ++ visible second :=
  List.filter_append ..

/-- Blanks at the beginning of a text do not show. -/
theorem visible_dropWhile (text : Text) :
    visible (text.dropWhile (· == ' '.toUInt8)) = visible text := by
  induction text with
  | nil => rfl
  | cons byte rest ih =>
      rw [List.dropWhile_cons]
      split
      · rename_i isBlank
        rw [ih, eq_of_beq isBlank]
        rfl
      · rfl

theorem visible_reverse (text : Text) : visible text.reverse = (visible text).reverse :=
  List.filter_reverse ..

theorem visible_trimmed (text : Text) :
    visible (text.reverse.dropWhile (· == ' '.toUInt8)).reverse = visible text := by
  rw [visible_reverse, visible_dropWhile, visible_reverse, List.reverse_reverse]

/-- What shows of texts that are kept latest first. -/
def visibleAll (latest : List Text) : Text := visible latest.reverse.flatten

theorem visibleAll_cons (last : Text) (earlier : List Text) :
    visibleAll (last :: earlier) = visibleAll earlier ++ visible last := by
  rw [visibleAll, List.reverse_cons, List.flatten_append, visible_append, List.flatten_singleton]
  rfl

end SlidePress.Text

namespace SlidePress.Source

def Node.IsProper (node : Node) : Prop :=
  node.kind = .text ∨ node.kind = .lineBreak → node.children = []

def writtenText (nodes : List Node) : Text :=
  (nodes.filter (·.kind == .text)).flatMap (·.text)

theorem writtenText_append (first second : List Node) :
    writtenText (first ++ second) = writtenText first ++ writtenText second := by
  rw [writtenText, List.filter_append, List.flatMap_append]
  rfl

theorem writtenText_subtree {node : Node} (notText : node.kind ≠ .text) :
    writtenText node.subtree = writtenText (subtrees node.children) := by
  rw [Node.subtree_eq, writtenText, List.filter_cons, if_neg]
  · rfl
  · intro isText
    exact notText (eq_of_beq isText)

end SlidePress.Source

namespace SlidePress.Slide

open Source (Node Kind subtrees writtenText)
open Text (visible visibleAll)

namespace Collector

def text (collector : Collector) : Text := collector.segments.reverse.flatMap (·.text)

theorem text_addText (collector : Collector) (text : Text) (style : Style.Snapshot) :
    (collector.addText text style).text = collector.text ++ text := by
  rw [Collector.text, addText, List.reverse_cons, List.flatMap_append, List.flatMap_singleton]
  rfl

theorem text_addBreak (collector : Collector) : collector.addBreak.text = collector.text := by
  unfold addBreak
  split <;> rfl

theorem add_eq (marker : ListMarker) (node : Node) (collector : Collector) :
    add marker node collector =
      match node.kind with
      | .text => collector.addText node.text node.style
      | .lineBreak => collector.addBreak
      | .listItem => addAll marker node.children (collector.startParagraph marker (alignOf node.style))
      | .list => addAll (markerOf node.tag) node.children collector
      | _ => addAll marker node.children collector := by
  cases node
  rw [add]
  rfl

def AddsText (node : Node) : Prop :=
  ∀ marker collector, (add marker node collector).text = collector.text ++ writtenText node.subtree

theorem text_addAll {nodes : List Node} (each : ∀ node ∈ nodes, AddsText node)
    (marker : ListMarker) (collector : Collector) :
    (addAll marker nodes collector).text = collector.text ++ writtenText (subtrees nodes) := by
  induction nodes generalizing collector with
  | nil => exact (List.append_nil _).symm
  | cons node rest ih =>
      rw [addAll, ih fun other member => each other (List.mem_cons_of_mem _ member),
        each node List.mem_cons_self, subtrees, Source.writtenText_append, List.append_assoc]

theorem addsText (node : Node) : (∀ inner ∈ node.subtree, inner.IsProper) → AddsText node := by
  induction node using Node.byChildren with
  | step node ih =>
      intro proper marker collector
      have below : ∀ marker collector,
          (addAll marker node.children collector).text =
            collector.text ++ writtenText (subtrees node.children) := by
        apply text_addAll
        intro child member
        apply ih child member
        intro inner within
        apply proper inner
        rw [Node.subtree_eq, Node.inside, Source.subtrees_eq_flatMap]
        exact List.mem_cons_of_mem _ (List.mem_flatMap.mpr ⟨child, member, within⟩)
      have own : node.IsProper := proper node (by rw [Node.subtree_eq]; exact List.mem_cons_self)
      have inner : node.kind ≠ .text → ∀ marker collector,
          (addAll marker node.children collector).text = collector.text ++ writtenText node.subtree := by
        intro notText
        rw [Source.writtenText_subtree notText]
        exact below
      rw [add_eq]
      cases kind : node.kind with
      | text =>
          rw [text_addText, Node.subtree_eq, Node.inside, own (.inl kind)]
          simp [writtenText, subtrees, kind]
      | lineBreak =>
          rw [text_addBreak, Node.subtree_eq, Node.inside, own (.inr kind)]
          simp [writtenText, subtrees, kind]
      | listItem => exact inner (by rw [kind]; decide) marker (collector.startParagraph marker _)
      | list => exact inner (by rw [kind]; decide) (markerOf node.tag) collector
      | paragraph => exact inner (by rw [kind]; decide) marker collector
      | heading => exact inner (by rw [kind]; decide) marker collector
      | inline => exact inner (by rw [kind]; decide) marker collector
      | image => exact inner (by rw [kind]; decide) marker collector
      | container => exact inner (by rw [kind]; decide) marker collector

end Collector

/-- The segments of a block are the texts inside it. -/
theorem text_segmentsOf {block : Node} (proper : ∀ inner ∈ block.inside, inner.IsProper) :
    (segmentsOf block).flatMap (·.text) = writtenText block.inside := by
  have collected : ∀ marker collector,
      (Collector.addAll marker block.children collector).text =
        collector.text ++ writtenText (subtrees block.children) := by
    apply Collector.text_addAll
    intro child member
    apply Collector.addsText
    intro inner within
    apply proper inner
    rw [Node.inside, Source.subtrees_eq_flatMap]
    exact List.mem_flatMap.mpr ⟨child, member, within⟩
  unfold segmentsOf
  cases block.kind with
  | list => exact collected _ _
  | listItem => exact collected _ _
  | text => exact collected _ _
  | paragraph => exact collected _ _
  | heading => exact collected _ _
  | inline => exact collected _ _
  | lineBreak => exact collected _ _
  | image => exact collected _ _
  | container => exact collected _ _

theorem visible_collapse (afterBlank : Bool) (text : Text) :
    visible (collapse afterBlank text) = visible text := by
  induction text generalizing afterBlank with
  | nil => rfl
  | cons byte rest ih =>
      cases isSpace : Byte.isSpace byte with
      | true =>
          have hidden : visible (byte :: rest) = visible rest := by
            rw [visible, List.filter_cons, isSpace]
            rfl
          cases afterBlank with
          | true => rw [collapse, isSpace, hidden, if_pos rfl, if_pos rfl, ih]
          | false => 
              rw [collapse, isSpace, hidden, if_pos rfl, if_neg Bool.false_ne_true, ← ih true]
              rfl
      | false =>
          rw [collapse, isSpace, if_neg Bool.false_ne_true, visible, visible, List.filter_cons,
            List.filter_cons, isSpace]
          exact congrArg (byte :: ·) (ih false)

/-- What shows of segments that are kept latest first. -/
def visibleSegments (segments : List Segment) : Text := visibleAll (segments.map (·.text))

theorem visibleSegments_cons (last : Segment) (earlier : List Segment) :
    visibleSegments (last :: earlier) = visibleSegments earlier ++ visible last.text :=
  Text.visibleAll_cons ..

theorem visibleSegments_trimEnd (segments : List Segment) :
    visibleSegments (trimEnd segments) = visibleSegments segments := by
  induction segments with
  | nil => rfl
  | cons last earlier ih =>
      have kept := Text.visible_trimmed last.text
      rw [trimEnd, visibleSegments_cons]
      split
      · rename_i nothing
        rw [List.isEmpty_iff.mp nothing] at kept
        rw [ih, ← kept]
        exact (List.append_nil _).symm
      · rw [visibleSegments_cons, kept]

namespace Collapsing

/-- The step: a segment adds what shows of it. -/
theorem visibleSegments_add (state : Collapsing) (segment : Segment) :
    visibleSegments (state.add segment).done =
      visibleSegments state.done ++ visible segment.text := by
  unfold add
  dsimp only
  have trimmed : visibleSegments (if segment.breakBefore then trimEnd state.done else state.done) =
      visibleSegments state.done := by
    split
    · exact visibleSegments_trimEnd state.done
    · rfl
  generalize (if segment.breakBefore then trimEnd state.done else state.done) = done at trimmed ⊢
  generalize afterBlank : (segment.breakBefore || state.paragraphStart || endsBlank done) = blank
  have kept := visible_collapse blank segment.text
  split
  · rename_i nothing
    rw [List.isEmpty_iff.mp nothing] at kept
    rw [← kept, trimmed]
    exact (List.append_nil _).symm
  · rw [visibleSegments_cons, trimmed, kept]

theorem visibleSegments_foldl (segments : List Segment) (state : Collapsing) :
    visibleSegments (segments.foldl add state).done =
      visibleSegments state.done ++ visible (segments.flatMap (·.text)) := by
  induction segments generalizing state with
  | nil => exact (List.append_nil _).symm
  | cons segment rest ih =>
      rw [List.foldl_cons, ih, visibleSegments_add, List.flatMap_cons, Text.visible_append,
        List.append_assoc]

end Collapsing

theorem visible_collapseSegments (segments : List Segment) :
    visible ((collapseSegments segments).flatMap (·.text)) = visible (segments.flatMap (·.text)) := by
  have kept := Collapsing.visibleSegments_foldl segments {}
  rw [← visibleSegments_trimEnd] at kept
  rw [collapseSegments, List.flatMap_def, List.map_reverse]
  exact kept

def visibleRuns (runs : List TextRun) : Text := visibleAll (runs.map (·.text))

theorem visibleRuns_addSegment (base : Style.Color) (runs : List TextRun) (segment : Segment) :
    visibleRuns (addSegment base runs segment) = visibleRuns runs ++ visible segment.text := by
  cases runs with
  | nil => exact Text.visibleAll_cons ..
  | cons last earlier =>
      rw [addSegment]
      split
      · rw [visibleRuns, visibleRuns, List.map_cons, List.map_cons, Text.visibleAll_cons,
          Text.visibleAll_cons, Text.visible_append, List.append_assoc]
      · exact Text.visibleAll_cons ..

theorem visibleRuns_foldl (base : Style.Color) (segments : List Segment) (runs : List TextRun) :
    visibleRuns (segments.foldl (addSegment base) runs) =
      visibleRuns runs ++ visible (segments.flatMap (·.text)) := by
  induction segments generalizing runs with
  | nil => exact (List.append_nil _).symm
  | cons segment rest ih =>
      rw [List.foldl_cons, ih, visibleRuns_addSegment, List.flatMap_cons, Text.visible_append,
        List.append_assoc]

/-- The runs of a block show what the texts inside it show. -/
theorem visible_textContent {block : Node} (proper : ∀ inner ∈ block.inside, inner.IsProper) :
    visible ((textContent block).runs.flatMap (·.text)) = visible (writtenText block.inside) := by
  have joined := visibleRuns_foldl block.style.textColor (collapseSegments (segmentsOf block)) []
  rw [visible_collapseSegments, text_segmentsOf proper] at joined
  rw [textContent, List.flatMap_def, List.map_reverse]
  exact joined

end SlidePress.Slide

namespace SlidePress.Source

open Text (visible)

theorem visible_addBlank (gathered : Text) : visible (addBlank gathered) = visible gathered := by
  unfold addBlank
  split
  · rfl
  · split <;> rfl

theorem visible_addByte (gathered : Text) (byte : UInt8) :
    visible (addByte gathered byte) = visible [byte] ++ visible gathered := by
  unfold addByte
  split
  · rename_i isSpace
    rw [visible_addBlank, visible, visible, List.filter_singleton, isSpace]
    rfl
  · exact Text.visible_append [byte] gathered

theorem visible_foldl_addByte (text gathered : Text) :
    visible (text.foldl addByte gathered) = (visible text).reverse ++ visible gathered := by
  induction text generalizing gathered with
  | nil => rfl
  | cons byte rest ih =>
      have first : visible (byte :: rest) = visible [byte] ++ visible rest :=
        Text.visible_append [byte] rest
      have same : (visible [byte]).reverse = visible [byte] := (Text.visible_reverse [byte]).symm
      rw [List.foldl_cons, ih, visible_addByte, first, List.reverse_append, same, List.append_assoc]

theorem visible_eraseBlank (text : Text) : visible (eraseBlank text) = visible text := by
  cases text with
  | nil => rfl
  | cons first rest =>
      rw [eraseBlank]
      split
      · rename_i isBlank
        rw [beq_iff_eq.mp isBlank]
        rfl
      · rfl

/-- The collapsed form of a text shows what the text shows. -/
theorem visible_collapsedText {node : Node} (isText : node.kind = .text) (leaf : node.children = []) :
    visible node.collapsedText = visible node.text := by
  have gathered : node.gather [] = node.text.foldl addByte [] := by
    obtain ⟨tag, attributes, text, style, box, children, order, path⟩ := node
    cases leaf
    simp only [Node.gather, gatherAll]
    rw [show Kind.ofTag tag = .text from isText]
  rw [Node.collapsedText, gathered, visible_eraseBlank, Text.visible_reverse,
    Text.visible_dropWhile, visible_foldl_addByte]
  change ((visible node.text).reverse ++ []).reverse = visible node.text
  rw [List.append_nil, List.reverse_reverse]

end SlidePress.Source
