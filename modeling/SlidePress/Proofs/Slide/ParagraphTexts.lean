import Mathlib.Data.List.SplitBy
import SlidePress.Proofs.Slide.Paragraphs
import SlidePress.Proofs.Slide.Report
import SlidePress.Proofs.Slide.TextKept

/-! The texts of paragraphs. Joining segments to runs stays inside a paragraph, so that the runs of
a block are grouped by their breaks as its paragraphs; and these are the pieces that line breaks
and list items cut the texts inside the block into. -/

namespace SlidePress.Slide

open Source (Node writtenText)
open Text (visible settled words join)

/-! ## Runs make up paragraphs -/

section Runs

variable (base : Style.Color)

theorem stretch_runOf (segment : Segment) : (runOf base segment).stretch = segment.stretch := rfl

/-- A segment with a break begins a run, and so does the first segment. -/
theorem addSegment_of_begins {runs : List TextRun} {segment : Segment}
    (begins : segment.breakBefore = !runs.isEmpty) :
    addSegment base runs segment = runOf base segment :: runs := by
  cases runs with
  | nil => rfl
  | cons last earlier => rw [addSegment, begins]; rfl

/-- A segment that goes on in a paragraph joins its last run or follows as a run. -/
theorem Renders.addSegment {text : Text} {broken : Bool} {marker : ListMarker} {runs : List TextRun}
    (renders : Renders text broken marker (runs.map TextRun.stretch)) {segment : Segment}
    (some : segment.stretch.text ≠ []) (goesOn : segment.stretch.begins = (false, .none))
    (earlier : List TextRun) :
    ∃ added : List TextRun,
      Slide.addSegment base (runs.reverse ++ earlier) segment = added.reverse ++ earlier ∧
        Renders (text ++ segment.text) broken marker (added.map TextRun.stretch) := by
  cases runs using List.reverseRecOn with
  | nil => exact absurd rfl renders.ne_nil
  | append_singleton before run =>
      rw [List.map_append, List.map_singleton] at renders
      rw [List.reverse_append, List.reverse_singleton, List.singleton_append, List.cons_append,
        Slide.addSegment]
      split
      · let longer : TextRun := { run with text := run.text ++ segment.text }
        have sameBegin : longer.stretch.begins = run.stretch.begins := rfl
        have someText : longer.stretch.text ≠ [] := List.append_ne_nil_of_right_ne_nil _ some
        refine ⟨before ++ [longer], ?_, ?_⟩
        · rw [List.reverse_append]
          rfl
        · have replaced := renders.replace sameBegin someText
          rw [List.map_append, ← renders.whole, List.flatMap_append, List.flatMap_singleton,
            List.append_assoc]
          exact replaced
      · refine ⟨before ++ [run, runOf base segment], ?_, ?_⟩
        · rw [List.reverse_append]
          rfl
        · have added := renders.snoc some goesOn
          rw [List.append_assoc] at added
          rw [List.map_append, List.map_cons, List.map_singleton, stretch_runOf]
          exact added

/-- The segments of a paragraph are joined to runs that make it up, on top of earlier runs. -/
theorem Renders.addSegments {text : Text} {marker : ListMarker} {group : List Segment}
    (earlier : List TextRun)
    (renders : Renders text (!earlier.isEmpty) marker (group.map Segment.stretch)) :
    ∃ runs : List TextRun, group.foldl (Slide.addSegment base) earlier = runs.reverse ++ earlier ∧
      Renders text (!earlier.isEmpty) marker (runs.map TextRun.stretch) := by
  induction group using List.reverseRecOn generalizing text with
  | nil => exact absurd rfl renders.ne_nil
  | append_singleton init last ih =>
      rw [List.map_append, List.map_singleton] at renders
      rw [List.foldl_append, List.foldl_cons, List.foldl_nil]
      cases init with
      | nil =>
          have begins : last.breakBefore = !earlier.isEmpty :=
            congrArg Prod.fst (Option.some.inj renders.first)
          refine ⟨[runOf base last], addSegment_of_begins base begins, ?_⟩
          rwa [List.map_singleton, stretch_runOf]
      | cons first others =>
          have some : last.stretch.text ≠ [] := renders.some _ List.mem_concat_self
          have goesOn : last.stretch.begins = (false, .none) := renders.rest _ List.mem_concat_self
          obtain ⟨runs, same, still⟩ := ih (renders.init (List.cons_ne_nil _ _))
          rw [same, ← renders.whole, List.flatMap_append, List.flatMap_singleton]
          exact still.addSegment base some goesOn earlier

theorem Composes.addSegments {paragraphs : List Paragraph} {groups : List (List Segment)}
    (composes : Composes Segment.stretch paragraphs groups) :
    ∃ runs : List (List TextRun),
      groups.flatten.foldl (addSegment base) [] = runs.flatten.reverse ∧
        Composes TextRun.stretch paragraphs runs := by
  induction composes with
  | nil => exact ⟨[], rfl, .nil⟩
  | @snoc paragraphs groups paragraph group earlier shows renders ih =>
      obtain ⟨runs, same, composes⟩ := ih
      have begun : paragraphs.isEmpty = runs.flatten.reverse.isEmpty := by
        rw [List.isEmpty_reverse, composes.isEmpty_flatten]
      rw [begun] at renders
      obtain ⟨added, joined, still⟩ := renders.addSegments base
      rw [← begun] at still
      refine ⟨runs ++ [added], ?_, .snoc composes shows still⟩
      rw [List.flatten_append, List.flatten_singleton, List.foldl_append, same, joined,
        List.flatten_append, List.flatten_singleton, List.reverse_append]

end Runs

/-- The runs of a block make up its paragraphs. -/
theorem composes_runs {block : Node} (proper : ∀ inner ∈ block.inside, inner.IsProper) :
    ∃ groups : List (List TextRun), (textContent block).runs = groups.flatten ∧
      Composes TextRun.stretch (paragraphsOf block) groups := by
  obtain ⟨groups, collapsed, composes⟩ := composes_collapseSegments proper
  obtain ⟨runs, same, composed⟩ := composes.addSegments block.style.textColor
  refine ⟨runs, ?_, composed⟩
  rw [textContent, collapsed, same]
  exact List.reverse_reverse _

/-! ## Runs between breaks -/

theorem isChain_of_tail {α : Type} {holds : α → Prop} {items : List α}
    (all : ∀ item ∈ items.tail, holds item) : items.IsChain fun _ next => holds next := by
  cases items with
  | nil => exact .nil
  | cons first rest =>
      induction rest generalizing first with
      | nil => exact .singleton _
      | cons next others ih =>
          refine List.isChain_cons_cons.mpr ⟨all next List.mem_cons_self, ih next ?_⟩
          exact fun item member => all item (List.mem_cons_of_mem _ member)

namespace Composes

variable {paragraphs : List Paragraph} {groups : List (List TextRun)}

theorem nil_notMem (composes : Composes TextRun.stretch paragraphs groups) : [] ∉ groups := by
  induction composes with
  | nil => nofun
  | snoc earlier shows renders ih =>
      intro member
      rcases List.mem_append.mp member with before | last
      · exact ih before
      · rw [← List.mem_singleton.mp last] at renders
        exact renders.ne_nil rfl

/-- The groups are the runs between breaks. -/
theorem splitBy_flatten (composes : Composes TextRun.stretch paragraphs groups) :
    (groups.flatten.splitBy fun _ next => !next.breakBefore) = groups := by
  rw [List.splitBy_eq_iff]
  refine ⟨rfl, composes.nil_notMem, ?_⟩
  induction composes with
  | nil => exact ⟨nofun, .nil⟩
  | @snoc paragraphs groups paragraph group earlier shows renders ih =>
      obtain ⟨chains, breaks⟩ := ih
      constructor
      · intro runs member
        rcases List.mem_append.mp member with before | last
        · exact chains runs before
        · rw [List.mem_singleton.mp last]
          apply isChain_of_tail
          intro run later
          have begins := renders.rest run.stretch (List.map_tail ▸ List.mem_map_of_mem later)
          exact Bool.not_eq_eq_eq_not.mpr (congrArg Prod.fst begins)
      · rw [List.isChain_append]
        refine ⟨breaks, .singleton _, ?_⟩
        intro before isLast after isFirst
        cases isFirst
        have notEmpty : before ≠ [] := by
          rintro rfl
          exact earlier.nil_notMem (List.mem_of_getLast? isLast)
        have begun : paragraphs.isEmpty = false := by
          rw [← earlier.isEmpty_flatten, List.isEmpty_eq_false_iff]
          exact List.flatten_ne_nil_iff.mpr ⟨before, List.mem_of_getLast? isLast, notEmpty⟩
        cases group with
        | nil => exact absurd rfl renders.ne_nil
        | cons first rest =>
            have begins := Option.some.inj renders.first
            refine ⟨notEmpty, List.cons_ne_nil _ _, ?_⟩
            rw [begun] at begins
            exact congrArg (! ·) (congrArg Prod.fst begins)

theorem brokenTexts (composes : Composes TextRun.stretch paragraphs groups) :
    brokenTexts groups.flatten = paragraphs.map Paragraph.shown := by
  rw [Slide.brokenTexts, composes.splitBy_flatten, ← composes.texts]
  apply List.map_congr_left
  intro group _
  rw [List.flatMap_map]
  rfl

theorem text_ne_nil (composes : Composes TextRun.stretch paragraphs groups) :
    ∀ run ∈ groups.flatten, run.text ≠ [] := by
  induction composes with
  | nil =>
      intro run member
      cases member
  | snoc earlier shows renders ih =>
      intro run member
      rw [List.flatten_append, List.flatten_singleton] at member
      rcases List.mem_append.mp member with before | last
      · exact ih run before
      · exact renders.some _ (List.mem_map_of_mem last)

theorem breakBefore_head? (composes : Composes TextRun.stretch paragraphs groups) :
    ∀ run ∈ groups.flatten.head?, run.breakBefore = false := by
  induction composes with
  | nil =>
      intro run member
      cases member
  | @snoc paragraphs groups paragraph group earlier shows renders ih =>
      intro run isFirst
      rw [List.flatten_append, List.flatten_singleton] at isFirst
      cases before : groups.flatten with
      | cons first rest =>
          rw [before] at ih isFirst
          exact ih run isFirst
      | nil =>
          have none : paragraphs.isEmpty = true := by rw [← earlier.isEmpty_flatten, before]; rfl
          have begins := renders.first
          rw [none, List.head?_map, Option.map_map] at begins
          rw [before, List.nil_append] at isFirst
          rw [isFirst] at begins
          exact congrArg Prod.fst (Option.some.inj begins)

end Composes

/-! ## Pieces of the texts inside a block -/

def endsParagraph (node : Node) : Bool := node.kind == .lineBreak || node.kind == .listItem

theorem map_splitOnP {α β : Type} (change : α → β) (ends : β → Bool) (items : List α) :
    (items.map change).splitOnP ends =
      (items.splitOnP fun item => ends (change item)).map (List.map change) := by
  induction items with
  | nil => rfl
  | cons item rest ih =>
      rw [List.map_cons, List.splitOnP_cons_eq_if_modifyHead, ih,
        List.splitOnP_cons_eq_if_modifyHead]
      split
      · rfl
      · cases rest.splitOnP fun item => ends (change item) <;> rfl

def pieces (spots : List Spot) : List (List Spot) :=
  (spots.splitOnP (endsParagraph ·.node)).map (·.filter (·.node.kind == .text))

theorem pieces_cons_of_ends {spot : Spot} (ends : endsParagraph spot.node = true)
    (rest : List Spot) : pieces (spot :: rest) = [] :: pieces rest := by
  rw [pieces, List.splitOnP_cons_eq_if_modifyHead, if_pos ends]
  rfl

theorem pieces_cons_of_goesOn {spot : Spot} (goesOn : endsParagraph spot.node = false)
    (rest : List Spot) :
    pieces (spot :: rest) =
      (pieces rest).modifyHead ([spot].filter (·.node.kind == .text) ++ ·) := by
  rw [pieces, List.splitOnP_cons_eq_if_modifyHead, if_neg (Bool.eq_false_iff.mp goesOn), pieces]
  cases rest.splitOnP (endsParagraph ·.node) with
  | nil => rfl
  | cons first others =>
      rw [List.modifyHead_cons, List.map_cons, List.map_cons, List.modifyHead_cons,
        ← List.filter_append]
      rfl

def hasWords (texts : List Spot) : Bool := visible (textOf texts) ≠ []

/-- Ending a paragraph keeps its texts when they have words. -/
theorem Draft.texts_closed_cut (draft : Draft) (later : List (List Spot)) :
    draft.cut.closed.map (·.texts) ++ later.filter hasWords =
      draft.closed.map (·.texts) ++ (draft.current.texts :: later).filter hasWords := by
  rw [List.filter_cons]
  by_cases blank : visible draft.current.written = []
  · have wordless : hasWords draft.current.texts = false := decide_eq_false (not_not_intro blank)
    rw [cut_of_blank blank, wordless]
    rfl
  · have worded : hasWords draft.current.texts = true := decide_eq_true blank
    rw [cut_of_shows blank, if_pos worded, List.map_append, List.append_assoc]
    rfl

namespace Reading

variable (reading : Reading) {spot : Spot}

theorem read_of_ends (ends : endsParagraph spot.node = true) :
    (reading.read spot).draft = reading.draft.cut := by
  rw [endsParagraph] at ends
  rw [read]
  cases kind : spot.node.kind with
  | lineBreak => rfl
  | listItem => rfl
  | _ => simp [kind] at ends

theorem read_of_goesOn (goesOn : endsParagraph spot.node = false) :
    (reading.read spot).draft.closed = reading.draft.closed ∧
      (reading.read spot).draft.current.texts =
        reading.draft.current.texts ++ [spot].filter (·.node.kind == .text) := by
  rw [endsParagraph] at goesOn
  rw [read]
  cases kind : spot.node.kind with
  | text => simp [kind, Draft.write]
  | lineBreak => simp [kind] at goesOn
  | listItem => simp [kind] at goesOn
  | _ => simp [kind]

/-- A reading ends with the pieces of the spots it reads, the first of them going on with the
current paragraph. -/
theorem texts_ended_foldl (spots : List Spot) :
    (spots.foldl read reading).draft.ended.map (·.texts) =
      reading.draft.closed.map (·.texts) ++
        ((pieces spots).modifyHead (reading.draft.current.texts ++ ·)).filter hasWords := by
  induction spots generalizing reading with
  | nil =>
      have ended := reading.draft.texts_closed_cut []
      change _ = _ ++ [reading.draft.current.texts ++ []].filter hasWords
      rw [List.append_nil, ← ended]
      exact (List.append_nil _).symm
  | cons spot rest ih =>
      rw [List.foldl_cons, ih]
      cases ends : endsParagraph spot.node with
      | true =>
          rw [pieces_cons_of_ends ends, reading.read_of_ends ends, List.modifyHead_cons,
            List.append_nil, ← Draft.texts_closed_cut, Draft.texts_cut]
          exact congrArg (_ ++ List.filter hasWords ·) (congrFun List.modifyHead_id _)
      | false =>
          obtain ⟨closed, texts⟩ := reading.read_of_goesOn ends
          rw [pieces_cons_of_goesOn ends, closed, texts, List.modifyHead_modifyHead]
          congr 3
          funext piece
          exact List.append_assoc _ _ _

end Reading

/-- Paragraphs are the pieces that have words. -/
theorem texts_paragraphsOf (block : Node) :
    (paragraphsOf block).map (·.texts) = (pieces (blockSpots block)).filter hasWords := by
  rw [paragraphsOf, Reading.texts_ended_foldl]
  exact congrArg (List.filter hasWords) (congrFun List.modifyHead_id _)

/-- The texts among nodes are those at their spots. -/
theorem textOf_filter_text (spots : List Spot) :
    textOf (spots.filter (·.node.kind == .text)) = writtenText (spots.map (·.node)) := by
  rw [writtenText, List.filter_map, List.flatMap_map]
  rfl

theorem shown_paragraphsOf (block : Node) :
    (paragraphsOf block).map Paragraph.shown =
      (((block.inside.splitOnP endsParagraph).map writtenText).map settled).filter (· ≠ []) := by
  have written : (block.inside.splitOnP endsParagraph).map writtenText =
      (pieces (blockSpots block)).map textOf := by
    rw [← map_node_blockSpots, map_splitOnP, pieces, List.map_map, List.map_map]
    exact List.map_congr_left fun piece _ => (textOf_filter_text piece).symm
  have shown : (paragraphsOf block).map Paragraph.shown =
      ((paragraphsOf block).map (·.texts)).map fun texts => settled (textOf texts) := by
    rw [List.map_map]
    rfl
  rw [shown, texts_paragraphsOf, written, List.map_map, List.filter_map]
  congr 1
  apply List.filter_congr
  intro texts _
  simp [hasWords, settled_eq_nil_iff]

/-- The runs between breaks are the pieces that line breaks and list items cut the texts inside a
block into, with single blanks between their words, and without the pieces that have no words. No
run is empty, and the first begins with no break. -/
theorem brokenTexts_textContent {block : Node} (proper : ∀ inner ∈ block.inside, inner.IsProper) :
    brokenTexts (textContent block).runs =
        (((block.inside.splitOnP fun node => node.kind == .lineBreak || node.kind == .listItem).map
          writtenText).map fun piece => join " " (words piece)).filter (· ≠ []) ∧
      (∀ run ∈ (textContent block).runs, run.text ≠ []) ∧
      ∀ run ∈ (textContent block).runs.head?, run.breakBefore = false := by
  obtain ⟨groups, same, composes⟩ := composes_runs proper
  rw [same]
  refine ⟨?_, composes.text_ne_nil, composes.breakBefore_head?⟩
  rw [composes.brokenTexts, shown_paragraphsOf]
  rfl

/-- A list with blanks to collapse, an item without words and a line break. -/
def spacedList : Node :=
  bareNode "ul" []
    [bareNode "li" [] [bareText " to\n", bareNode "b" [] [bareText " be "]],
      bareNode "li" [] [bareText "  "],
      bareNode "li" [] [bareText "or", bareNode "br" [] [], bareText "not "]]

theorem brokenTexts_spacedList :
    (∀ inner ∈ spacedList.inside, inner.IsProper) ∧
      brokenTexts (textContent spacedList).runs = ["to be", "or", "not"] := by
  have proper : ∀ inner ∈ spacedList.inside, inner.IsProper := by decide +kernel
  refine ⟨proper, ?_⟩
  rw [(brokenTexts_textContent proper).1]
  decide +kernel

end SlidePress.Slide
