import SlidePress.Proofs.Slide.Spots
import SlidePress.Proofs.Slide.Stretches

/-! The paragraphs of a block. A line break and the begin of a list item end a paragraph, and
paragraphs without words are passed over, with the marker that was to stand there carried on. A
reading goes through the spots of a block and keeps the paragraphs that have ended and the current
one; the collecting and the collapsing of segments follow it from spot to spot. -/

namespace SlidePress.Slide

open Source (Node)
open Text (visible settled)

/-! ## Reading a block -/

def textOf (spots : List Spot) : Text := spots.flatMap (·.node.text)

structure Paragraph where
  marker : ListMarker
  texts : List Spot

namespace Paragraph

def written (paragraph : Paragraph) : Text := textOf paragraph.texts

/-- The text of a paragraph as it shows: its words with single blanks between them. -/
def shown (paragraph : Paragraph) : Text := settled paragraph.written

end Paragraph

/-- The paragraphs that have ended, and the current one. -/
structure Draft where
  closed : List Paragraph := []
  current : Paragraph := ⟨.none, []⟩

namespace Draft

/-- The current paragraph ends here. One without words leaves its marker to the next. -/
def cut (draft : Draft) : Draft :=
  if visible draft.current.written = [] then ⟨draft.closed, ⟨draft.current.marker, []⟩⟩
  else ⟨draft.closed ++ [draft.current], ⟨.none, []⟩⟩

/-- All paragraphs that have words. -/
def ended (draft : Draft) : List Paragraph := draft.cut.closed

/-- A text goes on in the current paragraph, with a marker that may begin there. -/
def write (draft : Draft) (marker : ListMarker) (spot : Spot) : Draft :=
  { draft with
    current :=
      ⟨if marker == .none then draft.current.marker else marker, draft.current.texts ++ [spot]⟩ }

theorem written_write (draft : Draft) (marker : ListMarker) (spot : Spot) :
    (draft.write marker spot).current.written = draft.current.written ++ spot.node.text := by
  rw [Paragraph.written, write, textOf, List.flatMap_append, List.flatMap_singleton]
  rfl

variable {draft : Draft}

theorem cut_of_blank (blank : visible draft.current.written = []) :
    draft.cut = ⟨draft.closed, ⟨draft.current.marker, []⟩⟩ :=
  if_pos blank

theorem cut_of_shows (shows : visible draft.current.written ≠ []) :
    draft.cut = ⟨draft.closed ++ [draft.current], ⟨.none, []⟩⟩ :=
  if_neg shows

theorem texts_cut (draft : Draft) : draft.cut.current.texts = [] := by
  rw [cut]
  split <;> rfl

theorem blank_cut (draft : Draft) : visible draft.cut.current.written = [] := by
  rw [Paragraph.written, texts_cut]
  rfl

theorem cut_cut (draft : Draft) : draft.cut.cut = draft.cut := by
  rw [cut_of_blank draft.blank_cut, ← texts_cut draft]

end Draft

/-- A draft with the marker that waits for the next text. -/
structure Reading where
  draft : Draft := {}
  pending : ListMarker

def Reading.read (reading : Reading) (spot : Spot) : Reading :=
  match spot.node.kind with
  | .text => ⟨reading.draft.write reading.pending spot, .none⟩
  | .lineBreak => { reading with draft := reading.draft.cut }
  | .listItem => ⟨reading.draft.cut, spot.place.marker⟩
  | _ => reading

/-- The paragraphs of a block that have words. -/
def paragraphsOf (block : Node) : List Paragraph :=
  ((blockSpots block).foldl Reading.read ⟨{}, (opening block).pendingMarker⟩).draft.ended

/-! ## Paragraphs made up of stretches -/

/-- Segments or runs, grouped by the paragraphs they make up. All groups but the first begin with a
break. -/
inductive Composes {α : Type} (stretch : α → Stretch) : List Paragraph → List (List α) → Prop where
  | nil : Composes stretch [] []
  | snoc {paragraphs : List Paragraph} {groups : List (List α)} {paragraph : Paragraph}
      {group : List α} (earlier : Composes stretch paragraphs groups)
      (shows : visible paragraph.written ≠ [])
      (renders : Renders paragraph.shown (!paragraphs.isEmpty) paragraph.marker
        (group.map stretch)) :
      Composes stretch (paragraphs ++ [paragraph]) (groups ++ [group])

namespace Composes

variable {α : Type} {stretch : α → Stretch} {paragraphs : List Paragraph} {groups : List (List α)}

theorem isEmpty_flatten (composes : Composes stretch paragraphs groups) :
    groups.flatten.isEmpty = paragraphs.isEmpty := by
  rw [Bool.eq_iff_iff, List.isEmpty_iff, List.isEmpty_iff]
  cases composes with
  | nil => exact iff_of_true rfl rfl
  | snoc earlier shows renders =>
      have some := List.map_eq_nil_iff.not.mp renders.ne_nil
      simp [some]

theorem texts (composes : Composes stretch paragraphs groups) :
    groups.map (fun group => (group.map stretch).flatMap (·.text)) =
      paragraphs.map Paragraph.shown := by
  induction composes with
  | nil => rfl
  | snoc earlier shows renders ih =>
      rw [List.map_append, List.map_append, ih, List.map_singleton, renders.whole]
      rfl

theorem length_eq (composes : Composes stretch paragraphs groups) :
    paragraphs.length = groups.length := by
  induction composes with
  | nil => rfl
  | snoc earlier shows renders ih =>
      rw [List.length_append, List.length_append, ih]
      rfl

/-- The group of a paragraph begins with its marker. -/
theorem exists_group (composes : Composes stretch paragraphs groups) {paragraph : Paragraph}
    (member : paragraph ∈ paragraphs) :
    ∃ group, (paragraph, group) ∈ paragraphs.zip groups ∧
      group.head?.map (fun item => (stretch item).marker) = some paragraph.marker := by
  induction composes with
  | nil => cases member
  | @snoc paragraphs groups last group earlier shows renders ih =>
      rw [List.zip_append earlier.length_eq]
      rcases List.mem_append.mp member with before | isLast
      · obtain ⟨found, paired, marker⟩ := ih before
        exact ⟨found, List.mem_append_left _ paired, marker⟩
      · rw [List.mem_singleton.mp isLast]
        have first := congrArg (Option.map Prod.snd) renders.first
        rw [List.head?_map, Option.map_map, Option.map_map] at first
        exact ⟨group, List.mem_append_right _ List.mem_cons_self, first⟩

/-- Segments that make up paragraphs still do when blanks are trimmed at their end. -/
theorem trimEnd {groups : List (List Segment)}
    (composes : Composes Segment.stretch paragraphs groups) :
    ∃ trimmed : List (List Segment),
      Slide.trimEnd groups.flatten.reverse = trimmed.flatten.reverse ∧
        Composes Segment.stretch paragraphs trimmed := by
  cases composes with
  | nil => exact ⟨[], rfl, .nil⟩
  | @snoc paragraphs groups paragraph group earlier shows renders =>
      have visibly : visible paragraph.shown ≠ [] := by rwa [Paragraph.shown, visible_settled]
      obtain ⟨trimmed, same, still⟩ := renders.trimEnd visibly groups.flatten.reverse
      rw [Paragraph.shown, dropBlanks_settled] at still
      refine ⟨groups ++ [trimmed], ?_, .snoc earlier shows still⟩
      rw [List.flatten_append, List.flatten_singleton, List.flatten_append, List.flatten_singleton,
        List.reverse_append, List.reverse_append, same]

end Composes

/-! ## Segments follow the reading -/

/-- Collapsed segments stand as in a draft: the paragraphs that have ended are made up, and the
current one is blank or made up so far but for the blank at its end. -/
inductive Stands (draft : Draft) : Collapsing → Prop where
  | blank {groups : List (List Segment)} (closed : Composes Segment.stretch draft.closed groups)
      (hidden : visible draft.current.written = []) :
      Stands draft ⟨groups.flatten.reverse, true, !draft.closed.isEmpty, draft.current.marker⟩
  | inside {groups : List (List Segment)} {group : List Segment}
      (closed : Composes Segment.stretch draft.closed groups)
      (shows : visible draft.current.written ≠ [])
      (renders : Renders (collapse true draft.current.written) (!draft.closed.isEmpty)
        draft.current.marker (group.map Segment.stretch)) :
      Stands draft ⟨group.reverse ++ groups.flatten.reverse, false, false, .none⟩

namespace Collapsing

/-- The state when a paragraph ends. -/
def ended (state : Collapsing) : Collapsing :=
  ⟨trimEnd state.done, true, !(trimEnd state.done).isEmpty, state.carriedMarker⟩

/-- What remains of the text of a segment that goes on. -/
def remains (state : Collapsing) (segment : Segment) : Text :=
  collapse (state.paragraphStart || endsBlank state.done) segment.text

def continued (state : Collapsing) (segment : Segment) : Segment :=
  { segment with
    text := state.remains segment
    marker :=
      if segment.marker == .none && state.paragraphStart then state.carriedMarker
      else segment.marker
    breakBefore := state.carriedBreak && !state.done.isEmpty }

variable {state : Collapsing} {segment : Segment}

theorem add_of_vanishes (goesOn : segment.breakBefore = false)
    (vanishes : state.remains segment = []) :
    state.add segment =
      { state with
        carriedMarker :=
          if segment.marker == .none then state.carriedMarker else segment.marker } := by
  rw [remains] at vanishes
  simp [add, goesOn, vanishes]

theorem add_of_remains (goesOn : segment.breakBefore = false) (some : state.remains segment ≠ []) :
    state.add segment = ⟨state.continued segment :: state.done, false, false, .none⟩ := by
  rw [remains] at some
  simp [add, goesOn, some, continued, remains]

end Collapsing

/-- The end of a text shows on its last stretch. -/
theorem Renders.endsBlank {text : Text} {broken : Bool} {marker : ListMarker} {group : List Segment}
    (renders : Renders text broken marker (group.map Segment.stretch)) (earlier : List Segment) :
    Collapsing.endsBlank (group.reverse ++ earlier) =
      (text.getLast? == Option.some ' '.toUInt8) := by
  induction group using List.reverseRecOn with
  | nil => exact absurd rfl renders.ne_nil
  | append_singleton init last ih =>
      have whole := renders.whole
      have some := renders.some last.stretch (List.mem_map_of_mem List.mem_concat_self)
      rw [List.map_append, List.flatMap_append, List.map_singleton, List.flatMap_singleton] at whole
      rw [List.reverse_append, List.reverse_singleton, ← whole,
        List.getLast?_append_of_ne_nil _ some]
      rfl

namespace Stands

variable {draft : Draft} {state : Collapsing}

/-- Trimmed segments make up all paragraphs that have words. -/
theorem ended (stands : Stands draft state) :
    ∃ groups : List (List Segment), trimEnd state.done = groups.flatten.reverse ∧
      Composes Segment.stretch draft.ended groups := by
  cases stands with
  | blank closed hidden =>
      rw [Draft.ended, Draft.cut_of_blank hidden]
      exact closed.trimEnd
  | @inside groups group closed shows renders =>
      have visibly : visible (collapse true draft.current.written) ≠ [] := by
        rwa [visible_collapse]
      obtain ⟨trimmed, same, still⟩ := renders.trimEnd visibly groups.flatten.reverse
      rw [← settled_eq] at still
      rw [Draft.ended, Draft.cut_of_shows shows]
      refine ⟨groups ++ [trimmed], ?_, .snoc closed shows still⟩
      rw [List.flatten_append, List.flatten_singleton, List.reverse_append]
      exact same

theorem carriedMarker (stands : Stands draft state) :
    state.carriedMarker = draft.cut.current.marker := by
  cases stands with
  | blank closed hidden => rw [Draft.cut_of_blank hidden]
  | inside closed shows renders => rw [Draft.cut_of_shows shows]

theorem cut (stands : Stands draft state) : Stands draft.cut state.ended := by
  obtain ⟨groups, same, closed⟩ := stands.ended
  rw [Collapsing.ended, same, List.isEmpty_reverse, closed.isEmpty_flatten, stands.carriedMarker]
  exact Stands.blank closed draft.blank_cut

/-- A blank paragraph is the same when it ends. -/
theorem cut_of_paragraphStart (stands : Stands draft state) (start : state.paragraphStart = true) :
    Stands draft.cut state := by
  cases stands with
  | blank closed hidden =>
      rw [Draft.cut_of_blank hidden]
      exact Stands.blank closed rfl
  | inside closed shows renders => cases start

/-- A segment with a break comes after the end of the paragraph before. -/
theorem add_of_breakBefore (stands : Stands draft state) {segment : Segment}
    (breaks : segment.breakBefore = true) :
    state.add segment = state.ended.add { segment with breakBefore := false } := by
  -- A break is carried only when some paragraph has ended, and then it is there without being
  -- carried.
  have carried : (state.carriedBreak || !(trimEnd state.done).isEmpty) =
      !(trimEnd state.done).isEmpty := by
    obtain ⟨groups, same, composes⟩ := stands.ended
    rw [same, List.isEmpty_reverse, composes.isEmpty_flatten]
    cases stands with
    | blank closed hidden =>
        rw [Draft.ended, Draft.cut_of_blank hidden]
        exact Bool.or_self _
    | inside closed shows renders => rfl
  simp only [Collapsing.add, Collapsing.ended, breaks, if_true, Bool.true_or, Bool.true_and,
    Bool.false_eq_true, if_false, Bool.false_or, Bool.false_and, Bool.or_false, Bool.and_self,
    carried]

/-- Where a marker begins, nothing is written yet. -/
theorem marker_eq_none {marker : ListMarker} (shows : visible draft.current.written ≠ [])
    (fresh : marker ≠ .none → draft.current.texts = []) : marker = .none := by
  by_contra marked
  rw [Paragraph.written, fresh marked] at shows
  exact shows rfl

/-- What remains of a segment is what its text adds to the collapsed paragraph. -/
theorem remains (stands : Stands draft state) (segment : Segment) :
    collapse true (draft.current.written ++ segment.text) =
      collapse true draft.current.written ++ state.remains segment := by
  rw [collapse_append]
  cases stands with
  | blank closed hidden =>
      rw [(collapse_eq_nil_iff _).mpr hidden, if_pos rfl]
      rfl
  | @inside groups group closed shows renders =>
      rw [if_neg ((collapse_eq_nil_iff _).not.mpr shows),
        ← renders.endsBlank groups.flatten.reverse]
      rfl

/-- A segment comes last in the current paragraph. -/
theorem inside_concat {groups : List (List Segment)} {group : List Segment} {last : Segment}
    (closed : Composes Segment.stretch draft.closed groups)
    (shows : visible draft.current.written ≠ [])
    (renders : Renders (collapse true draft.current.written) (!draft.closed.isEmpty)
      draft.current.marker (group.map Segment.stretch ++ [last.stretch])) :
    Stands draft ⟨last :: (group.reverse ++ groups.flatten.reverse), false, false, .none⟩ := by
  have stands : Stands draft ⟨(group ++ [last]).reverse ++ groups.flatten.reverse, false, false,
      .none⟩ := by
    apply Stands.inside closed shows
    rwa [List.map_append]
  rwa [List.reverse_append] at stands

/-- The first segment that remains of a paragraph begins it. -/
theorem begins_continued (stands : Stands draft state) {segment : Segment} (spot : Spot)
    (fresh : segment.marker ≠ .none → draft.current.texts = []) :
    (state.continued segment).stretch.begins =
      if visible draft.current.written = [] then
        (!draft.closed.isEmpty, (draft.write segment.marker spot).current.marker)
      else (false, .none) := by
  cases stands with
  | blank closed hidden =>
      simp [Collapsing.continued, Segment.stretch, Stretch.begins, hidden, Draft.write,
        ← closed.isEmpty_flatten]
  | inside closed shows renders =>
      simp [Collapsing.continued, Segment.stretch, Stretch.begins, shows,
        marker_eq_none shows fresh]

/-- A segment that goes on stands where its text is written. -/
theorem write (stands : Stands draft state) {segment : Segment} {spot : Spot} {marker : ListMarker}
    (carries : segment.stretch = ⟨spot.node.text, false, marker⟩)
    (fresh : marker ≠ .none → draft.current.texts = []) :
    Stands (draft.write marker spot) (state.add segment) := by
  have same : segment.text = spot.node.text := congrArg Stretch.text carries
  have goesOn : segment.breakBefore = false := congrArg Stretch.breakBefore carries
  obtain rfl : segment.marker = marker := congrArg Stretch.marker carries
  have added := stands.remains segment
  have closing : (draft.write segment.marker spot).closed = draft.closed := rfl
  rw [same, ← draft.written_write segment.marker] at added
  -- A blank segment leaves the collapsed text as it was; any other is done and comes last.
  by_cases vanishes : state.remains segment = []
  · rw [Collapsing.add_of_vanishes goesOn vanishes]
    rw [vanishes, List.append_nil] at added
    cases stands with
    | blank closed hidden =>
        rw [← collapse_eq_nil_iff, ← added, collapse_eq_nil_iff] at hidden
        rw [← closing] at closed
        exact .blank closed hidden
    | inside closed shows renders =>
        have plain := marker_eq_none shows fresh
        rw [Ne, ← collapse_eq_nil_iff, ← added, collapse_eq_nil_iff] at shows
        rw [← added] at renders
        rw [← closing] at closed
        rw [plain] at closed shows renders ⊢
        exact .inside closed shows renders
  · rw [Collapsing.add_of_remains goesOn vanishes]
    have shows : visible (draft.write segment.marker spot).current.written ≠ [] := by
      rw [Ne, ← collapse_eq_nil_iff, added]
      exact List.append_ne_nil_of_right_ne_nil _ vanishes
    have begins := stands.begins_continued spot fresh
    cases stands with
    | @blank groups closed hidden =>
        rw [if_pos hidden] at begins
        have renders := Renders.single begins vanishes
        rw [(collapse_eq_nil_iff _).mpr hidden] at added
        rw [← closing] at closed
        apply @inside_concat _ groups [] _ closed shows
        rw [added]
        exact renders
    | @inside groups group closed before renders =>
        rw [if_neg before] at begins
        have renders := renders.snoc vanishes begins
        rw [← closing] at closed
        apply inside_concat closed shows
        rw [added, marker_eq_none before fresh]
        exact renders

end Stands

/-- The segments collected so far with their white space collapsed, but for the last blanks. -/
def Collector.collapsed (collector : Collector) : Collapsing :=
  collector.segments.reverse.foldl Collapsing.add {}

theorem Collector.collapsed_addText (collector : Collector) (text : Text)
    (style : Style.Snapshot) :
    (collector.addText text style).collapsed =
      collector.collapsed.add ⟨text, formatOf style, collector.align, collector.pendingBreak,
        collector.pendingMarker⟩ := by
  rw [collapsed, addText, List.reverse_cons, List.foldl_append]
  rfl

/-- A collector keeps track of a reading. A break that waits has ended the current paragraph
already. -/
structure Tracks (reading : Reading) (collector : Collector) : Prop where
  pending : collector.pendingMarker = reading.pending
  fresh : reading.pending ≠ .none → reading.draft.current.texts = []
  stands : ∃ draft, Stands draft collector.collapsed ∧
    reading.draft = if collector.pendingBreak then draft.cut else draft

namespace Tracks

variable {reading : Reading} {collector : Collector}

theorem addText (tracks : Tracks reading collector) (spot : Spot) :
    Tracks ⟨reading.draft.write reading.pending spot, .none⟩
      (collector.addText spot.node.text spot.node.style) where
  pending := rfl
  fresh unmarked := absurd rfl unmarked
  stands := by
    obtain ⟨draft, stands, same⟩ := tracks.stands
    refine ⟨_, ?_, rfl⟩
    have fresh := tracks.fresh
    rw [collector.collapsed_addText, tracks.pending]
    cases breaks : collector.pendingBreak with
    | false =>
        rw [breaks, if_neg Bool.false_ne_true] at same
        rw [same] at fresh ⊢
        exact stands.write rfl fresh
    | true =>
        rw [breaks, if_pos rfl] at same
        rw [same] at fresh ⊢
        rw [stands.add_of_breakBefore rfl]
        exact stands.cut.write rfl fresh

/-- The current paragraph may end with a break that waits, and also without before all segments. -/
theorem cut (tracks : Tracks reading collector) {waits : Bool}
    (starts : waits = false → collector.segments = []) :
    ∃ draft, Stands draft collector.collapsed ∧
      reading.draft.cut = if waits then draft.cut else draft := by
  obtain ⟨draft, stands, same⟩ := tracks.stands
  have ended : reading.draft.cut = draft.cut := by
    rw [same]
    split
    · exact draft.cut_cut
    · rfl
  cases waits with
  | true => exact ⟨draft, stands, ended⟩
  | false =>
      refine ⟨draft.cut, ?_, ended⟩
      apply stands.cut_of_paragraphStart
      rw [Collector.collapsed, starts rfl]
      rfl

theorem addBreak (tracks : Tracks reading collector) :
    Tracks { reading with draft := reading.draft.cut } collector.addBreak := by
  rw [Collector.addBreak]
  split
  · rename_i empty
    exact
      { pending := tracks.pending
        fresh := fun _ => reading.draft.texts_cut
        stands := tracks.cut fun _ => List.isEmpty_iff.mp empty }
  · exact
      { pending := tracks.pending
        fresh := fun _ => reading.draft.texts_cut
        stands := @cut _ _ tracks true nofun }

theorem startParagraph (tracks : Tracks reading collector) (marker : ListMarker)
    (align : TextAlign) :
    Tracks ⟨reading.draft.cut, marker⟩ (collector.startParagraph marker align) where
  pending := rfl
  fresh _ := reading.draft.texts_cut
  stands := by
    apply tracks.cut
    intro empty
    exact List.isEmpty_iff.mp (Bool.not_eq_eq_eq_not.mp empty)

/-- A step: a collector keeps track at each spot. -/
theorem visit (tracks : Tracks reading collector) (spot : Spot) :
    Tracks (reading.read spot) (collector.visit spot) := by
  rw [Reading.read, Collector.visit]
  cases spot.node.kind with
  | text => exact tracks.addText spot
  | lineBreak => exact tracks.addBreak
  | listItem => exact tracks.startParagraph spot.place.marker (alignOf spot.node.style)
  | _ => exact tracks

theorem foldl (tracks : Tracks reading collector) (spots : List Spot) :
    Tracks (spots.foldl Reading.read reading) (spots.foldl Collector.visit collector) := by
  induction spots generalizing reading collector with
  | nil => exact tracks
  | cons spot rest ih => exact ih (tracks.visit spot)

end Tracks

/-- Collapsed segments make up the paragraphs of a block. -/
theorem composes_collapseSegments {block : Node} (proper : ∀ inner ∈ block.inside, inner.IsProper) :
    ∃ groups : List (List Segment), collapseSegments (segmentsOf block) = groups.flatten ∧
      Composes Segment.stretch (paragraphsOf block) groups := by
  have start : Tracks ⟨{}, (opening block).pendingMarker⟩ (opening block) :=
    { pending := rfl
      fresh := fun _ => rfl
      stands := ⟨{}, @Stands.blank {} [] .nil rfl, rfl⟩ }
  obtain ⟨draft, stands, same⟩ := @Tracks.cut _ _ (start.foldl (blockSpots block)) true nofun
  obtain ⟨groups, trimmed, composes⟩ := stands.ended
  have ended : draft.ended = paragraphsOf block := (congrArg Draft.closed same).symm
  refine ⟨groups, ?_, ended ▸ composes⟩
  rw [collapseSegments, segmentsOf_eq proper]
  exact (congrArg List.reverse trimmed).trans (List.reverse_reverse _)

end SlidePress.Slide
