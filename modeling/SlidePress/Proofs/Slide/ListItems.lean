import SlidePress.Proofs.Slide.ParagraphTexts
import SlidePress.Proofs.Slide.Places

/-! List items and paragraphs. The begin of an item ends a paragraph, but nothing happens where an
item ends: text behind it goes on in its paragraph. So the texts of a paragraph are of one item
unless text stands behind an item that has ended, with neither a line break nor an item between. The
paragraph that an item begins has the marker of its list. -/

namespace SlidePress.Slide

open Source (Node)
open Text (visible)

def Spot.shows (spot : Spot) : Bool := spot.node.kind == .text && visible spot.node.text ≠ []

def brokenRuns (runs : List TextRun) : List (List TextRun) :=
  runs.splitBy fun _ next => !next.breakBefore

/-- The texts inside a block that show, divided by the paragraphs of its runs that show them. -/
structure Divides (block : Node) (groups : List (List Spot)) : Prop where
  whole : groups.flatten = (blockSpots block).filter Spot.shows
  bytes : groups.map (fun group => visible (textOf group)) =
    (brokenRuns (textContent block).runs).map fun runs => visible (runs.flatMap (·.text))

/-! ## Texts that show -/

section Showing

theorem visible_textOf_cons (spot : Spot) (rest : List Spot) :
    visible (textOf (spot :: rest)) = visible spot.node.text ++ visible (textOf rest) := by
  rw [textOf, List.flatMap_cons, Text.visible_append]
  rfl

/-- The bytes of texts are those of the texts that show. -/
theorem visible_textOf_filter (spots : List Spot) :
    visible (textOf (spots.filter Spot.shows)) =
      visible (textOf (spots.filter (·.node.kind == .text))) := by
  induction spots with
  | nil => rfl
  | cons spot rest ih =>
      rw [List.filter_cons, List.filter_cons, Spot.shows]
      cases kind : spot.node.kind == .text with
      | false => exact ih
      | true =>
          by_cases hidden : visible spot.node.text = []
          · rw [if_neg (by simp [hidden]), if_pos rfl, visible_textOf_cons, hidden, ih]
            rfl
          · rw [if_pos (by simp [hidden]), if_pos rfl, visible_textOf_cons, visible_textOf_cons, ih]

/-- Texts without visible bytes have none that shows. -/
theorem filter_shows_eq_nil {spots : List Spot} (hidden : visible (textOf spots) = []) :
    spots.filter Spot.shows = [] := by
  induction spots with
  | nil => rfl
  | cons spot rest ih =>
      rw [visible_textOf_cons] at hidden
      obtain ⟨here, behind⟩ := List.append_eq_nil_iff.mp hidden
      rw [List.filter_cons, if_neg, ih behind]
      simp [Spot.shows, here]

theorem shows_iff (spot : Spot) :
    spot.shows = true ↔ spot.node.kind = .text ∧ visible spot.node.text ≠ [] := by
  rw [Spot.shows, Bool.and_eq_true, beq_iff_eq, decide_eq_true_iff]

/-- Texts that show and together have no bytes are none. -/
theorem eq_nil_of_visible {spots : List Spot} (all : ∀ spot ∈ spots, spot.shows = true)
    (hidden : visible (textOf spots) = []) : spots = [] := by
  have none := filter_shows_eq_nil hidden
  rwa [List.filter_eq_self.mpr all] at none

/-- More texts that show have more bytes. -/
theorem eq_nil_of_same_bytes {first more : List Spot} (all : ∀ spot ∈ more, spot.shows = true)
    (same : visible (textOf first) = visible (textOf (first ++ more))) : more = [] := by
  rw [textOf, textOf, List.flatMap_append, Text.visible_append] at same
  exact eq_nil_of_visible all (List.self_eq_append_right.mp same)

/-- Texts that show are divided in one way only. -/
theorem eq_of_flatten_eq {first second : List (List Spot)}
    (all : ∀ spot ∈ first.flatten, spot.shows = true) (whole : first.flatten = second.flatten)
    (bytes : first.map (fun group => visible (textOf group)) =
      second.map fun group => visible (textOf group)) : first = second := by
  induction first generalizing second with
  | nil => exact (List.map_eq_nil_iff.mp bytes.symm).symm
  | cons group rest ih =>
      cases second with
      | nil => cases bytes
      | cons other others =>
          rw [List.map_cons, List.map_cons, List.cons.injEq] at bytes
          rw [List.flatten_cons, List.flatten_cons] at whole
          rw [List.flatten_cons] at all
          have same : group = other := by
            rcases List.append_eq_append_iff.mp whole with ⟨more, rfl, behind⟩ | ⟨more, rfl, behind⟩
            · have none := eq_nil_of_same_bytes (fun spot member => all spot ?_) bytes.1
              · rw [none, List.append_nil]
              · rw [behind]
                exact List.mem_append_right _ (List.mem_append_left _ member)
            · have none := eq_nil_of_same_bytes (fun spot member => all spot ?_) bytes.1.symm
              · rw [none, List.append_nil]
              · exact List.mem_append_left _ (List.mem_append_right _ member)
          subst same
          rw [ih (fun spot member => all spot (List.mem_append_right _ member))
            (List.append_cancel_left whole) bytes.2]

end Showing

/-! ## Pieces between the ends of paragraphs -/

section Pieces

variable {α : Type} {ends : α → Bool}

theorem flatten_splitOnP (ends : α → Bool) (items : List α) :
    (items.splitOnP ends).flatten = items.filter (! ends ·) := by
  induction items with
  | nil => rfl
  | cons item rest ih =>
      rw [List.splitOnP_cons_eq_if_modifyHead, List.filter_cons, ← ih]
      cases ends item with
      | true => rfl
      | false =>
          obtain ⟨first, others, split⟩ :=
            List.exists_cons_of_ne_nil (List.splitOnP_ne_nil ends rest)
          rw [split]
          rfl

/-- Pieces are parts of the whole that have no end inside. The first piece begins the whole. -/
theorem exists_splitOnP (ends : α → Bool) (items : List α) :
    ∃ first others, items.splitOnP ends = first :: others ∧ first <+: items ∧
      (∀ piece ∈ others, piece <:+: items) ∧
      ∀ piece ∈ first :: others, ∀ item ∈ piece, ends item = false := by
  induction items with
  | nil => exact ⟨[], [], rfl, List.prefix_refl _, nofun, by simp⟩
  | cons item rest ih =>
      obtain ⟨first, others, split, starts, within, clean⟩ := ih
      rw [List.splitOnP_cons_eq_if_modifyHead, split]
      cases kind : ends item with
      | true =>
          refine ⟨[], first :: others, rfl, List.nil_prefix, ?_, ?_⟩
          · intro piece member
            rcases List.mem_cons.mp member with rfl | later
            · exact List.infix_cons starts.isInfix
            · exact List.infix_cons (within piece later)
          · intro piece member
            rcases List.mem_cons.mp member with rfl | later
            · nofun
            · exact clean piece later
      | false =>
          refine ⟨item :: first, others, rfl, List.cons_prefix_cons.mpr ⟨rfl, starts⟩, ?_, ?_⟩
          · intro piece member
            exact List.infix_cons (within piece member)
          · intro piece member
            rcases List.mem_cons.mp member with rfl | later
            · intro other inside
              rcases List.mem_cons.mp inside with rfl | behind
              · exact kind
              · exact clean first List.mem_cons_self other behind
            · exact clean piece (List.mem_cons_of_mem _ later)

theorem isInfix_of_mem_splitOnP {items piece : List α} (member : piece ∈ items.splitOnP ends) :
    piece <:+: items ∧ ∀ item ∈ piece, ends item = false := by
  obtain ⟨first, others, split, starts, within, clean⟩ := exists_splitOnP ends items
  rw [split] at member
  refine ⟨?_, clean piece member⟩
  rcases List.mem_cons.mp member with rfl | later
  · exact starts.isInfix
  · exact within piece later

end Pieces

/-- The spots of a block between the ends of paragraphs. -/
def spotPieces (block : Node) : List (List Spot) :=
  (blockSpots block).splitOnP (endsParagraph ·.node)

def showing (block : Node) : List (List Spot) :=
  (paragraphsOf block).map fun paragraph => paragraph.texts.filter Spot.shows

theorem filter_shows_filter_text (spots : List Spot) :
    (spots.filter (·.node.kind == .text)).filter Spot.shows = spots.filter Spot.shows := by
  rw [List.filter_filter]
  apply List.filter_congr
  intro spot _
  rw [Spot.shows]
  cases spot.node.kind == .text <;> simp

theorem hasWords_filter_text (spots : List Spot) :
    hasWords (spots.filter (·.node.kind == .text)) = decide (spots.filter Spot.shows ≠ []) := by
  rw [hasWords, ← visible_textOf_filter]
  apply decide_eq_decide.mpr (not_congr ⟨?_, ?_⟩)
  · exact eq_nil_of_visible fun spot member => List.of_mem_filter member
  · intro empty
    rw [empty]
    rfl

/-- Paragraphs show what shows in the pieces. -/
theorem showing_eq (block : Node) :
    showing block = ((spotPieces block).map (·.filter Spot.shows)).filter (· ≠ []) := by
  have texts : showing block = ((paragraphsOf block).map (·.texts)).map (·.filter Spot.shows) := by
    rw [List.map_map]
    rfl
  have words : (hasWords ∘ fun piece : List Spot => piece.filter (·.node.kind == .text)) =
      ((fun group => decide (group ≠ [])) ∘ fun piece : List Spot => piece.filter Spot.shows) :=
    funext hasWords_filter_text
  rw [texts, texts_paragraphsOf, pieces, List.filter_map, List.map_map, List.filter_map, words]
  exact List.map_congr_left fun piece _ => filter_shows_filter_text piece

/-- What shows of a paragraph is all that is visible in it. -/
theorem visible_showing {block : Node} {paragraph : Paragraph}
    (member : paragraph ∈ paragraphsOf block) :
    visible (textOf (paragraph.texts.filter Spot.shows)) = visible paragraph.written := by
  have isPiece : paragraph.texts ∈ (pieces (blockSpots block)).filter hasWords := by
    rw [← texts_paragraphsOf]
    exact List.mem_map_of_mem member
  obtain ⟨piece, _, texts⟩ := List.mem_map.mp (List.mem_of_mem_filter isPiece)
  rw [Paragraph.written, ← texts, filter_shows_filter_text, visible_textOf_filter]

/-- The texts that show in the paragraphs divide those of the block. -/
theorem divides_showing {block : Node} (proper : ∀ inner ∈ block.inside, inner.IsProper) :
    Divides block (showing block) where
  whole := by
    have keep : ∀ spot : Spot, (spot.shows && !endsParagraph spot.node) = spot.shows := by
      intro spot
      rw [Spot.shows, endsParagraph]
      cases spot.node.kind <;> simp
    rw [showing_eq, List.flatten_filter_ne_nil, ← List.filter_flatten, spotPieces, flatten_splitOnP,
      List.filter_filter]
    exact List.filter_congr fun spot _ => keep spot
  bytes := by
    obtain ⟨groups, same, composes⟩ := composes_runs proper
    have shown := congrArg (List.map visible) composes.texts
    rw [same, brokenRuns, composes.splitBy_flatten, showing, List.map_map]
    rw [List.map_map, List.map_map] at shown
    calc (paragraphsOf block).map (visible ∘ textOf ∘ fun paragraph =>
          paragraph.texts.filter Spot.shows)
      _ = (paragraphsOf block).map (visible ∘ Paragraph.shown) :=
          List.map_congr_left fun paragraph member =>
            (visible_showing member).trans (visible_settled _).symm
      _ = groups.map fun runs => visible (runs.flatMap (·.text)) := by
          rw [← shown]
          exact List.map_congr_left fun runs _ => by
            rw [Function.comp, List.flatMap_map]
            rfl

theorem Divides.unique {block : Node} {first second : List (List Spot)}
    (divides : Divides block first) (other : Divides block second) : first = second := by
  apply eq_of_flatten_eq
  · intro spot member
    rw [divides.whole] at member
    exact List.of_mem_filter member
  · exact divides.whole.trans other.whole.symm
  · exact divides.bytes.trans other.bytes.symm

/-! ## One item in a paragraph -/

/-- All texts of a group have the same item around them. -/
def OneItem (group : List Spot) : Prop :=
  ∀ first ∈ group, ∀ second ∈ group, first.place.item = second.place.item

/-- No text shows behind an item that has ended, unless a paragraph ends between it and the texts of
the item. -/
def Orderly (block : Node) : Prop :=
  ∀ piece ∈ spotPieces block, (piece.filter Spot.shows).Pairwise fun first second =>
    ∀ item ∈ first.place.item, item <:+ second.place.way

/-- An item around a spot of a block is on the way to it. -/
theorem item_isSuffix_of_mem {block : Node} {spot : Spot} (member : spot ∈ blockSpots block) :
    ∀ item ∈ spot.place.item, item <:+ spot.place.way := by
  apply item_isSuffix ?_ member
  intro item around
  cases around

theorem mem_showing_iff {block : Node} {group : List Spot} :
    group ∈ showing block ↔
      group ≠ [] ∧ ∃ piece ∈ spotPieces block, piece.filter Spot.shows = group := by
  rw [showing_eq, List.mem_filter, List.mem_map, decide_eq_true_iff, and_comm]

/-- Paragraphs are of one item exactly when no text shows behind an item that has ended. -/
theorem oneItem_iff_orderly (block : Node) :
    (∀ group ∈ showing block, OneItem group) ↔ Orderly block := by
  constructor
  · intro oneItem piece isPiece
    obtain ⟨between, _⟩ := isInfix_of_mem_splitOnP isPiece
    apply List.pairwise_of_forall_mem_list
    intro first inFirst second inSecond item around
    have shown : piece.filter Spot.shows ∈ showing block :=
      mem_showing_iff.mpr ⟨List.ne_nil_of_mem inFirst, piece, isPiece, rfl⟩
    rw [oneItem _ shown first inFirst second inSecond] at around
    exact item_isSuffix_of_mem (between.mem (List.mem_of_mem_filter inSecond)) item around
  · intro orderly group member
    obtain ⟨_, piece, isPiece, rfl⟩ := mem_showing_iff.mp member
    obtain ⟨between, clean⟩ := isInfix_of_mem_splitOnP isPiece
    have noItem : ∀ spot ∈ piece, spot.node.kind ≠ .listItem := by
      intro spot inside isItem
      have ends := clean spot inside
      rw [endsParagraph, isItem] at ends
      cases ends
    have stays := (pairwise_item between noItem).filter Spot.shows
    have same : (piece.filter Spot.shows).Pairwise fun first second =>
        first.place.item = second.place.item :=
      (stays.and (orderly piece isPiece)).imp fun both => both.1 both.2
    have symm : Std.Symm fun first second : Spot => first.place.item = second.place.item :=
      ⟨fun _ _ equal => equal.symm⟩
    exact same.forall_of_forall fun _ _ => rfl

/-! ## The marker of an item -/

namespace Reading

variable {reading : Reading} {spot : Spot} {marker : ListMarker}

def nextMarker (reading : Reading) : ListMarker :=
  if reading.pending == .none then reading.draft.current.marker else reading.pending

/-- The current paragraph is blank, and the text that comes next has the marker. -/
structure Awaits (reading : Reading) (marker : ListMarker) : Prop where
  blank : visible reading.draft.current.written = []
  next : reading.nextMarker = marker

theorem awaits_item (isItem : spot.node.kind = .listItem) (marked : spot.place.marker ≠ .none)
    (reading : Reading) : Awaits (reading.read spot) spot.place.marker := by
  rw [read, isItem]
  refine ⟨reading.draft.blank_cut, ?_⟩
  exact if_neg (by simpa using marked)

/-- A step: the marker waits as long as nothing shows. -/
theorem Awaits.read (awaits : Awaits reading marker) (hidden : spot.shows = false)
    (marked : marker ≠ .none) (same : spot.node.kind = .listItem → spot.place.marker = marker) :
    Awaits (reading.read spot) marker := by
  cases kind : spot.node.kind with
  | text =>
      have empty : visible spot.node.text = [] := by simpa [Spot.shows, kind] using hidden
      rw [Reading.read, kind]
      refine ⟨?_, awaits.next⟩
      rw [Draft.written_write, Text.visible_append, awaits.blank, empty]
      rfl
  | lineBreak =>
      rw [Reading.read, kind]
      refine ⟨reading.draft.blank_cut, ?_⟩
      rw [← awaits.next, nextMarker, nextMarker, Draft.cut_of_blank awaits.blank]
  | listItem =>
      have item := awaits_item kind (by rwa [same kind]) reading
      rwa [same kind] at item
  | _ =>
      rw [Reading.read, kind]
      exact awaits

theorem Awaits.foldl {spots : List Spot} (awaits : Awaits reading marker) (marked : marker ≠ .none)
    (hidden : ∀ spot ∈ spots, spot.shows = false)
    (same : ∀ spot ∈ spots, spot.node.kind = .listItem → spot.place.marker = marker) :
    Awaits (spots.foldl Reading.read reading) marker := by
  induction spots generalizing reading with
  | nil => exact awaits
  | cons spot rest ih =>
      apply ih (awaits.read (hidden spot List.mem_cons_self) marked (same spot List.mem_cons_self))
      · exact fun other member => hidden other (List.mem_cons_of_mem _ member)
      · exact fun other member => same other (List.mem_cons_of_mem _ member)

theorem closed_subset_cut (draft : Draft) : draft.closed ⊆ draft.cut.closed := by
  rw [Draft.cut]
  split
  · exact List.Subset.refl _
  · exact List.subset_append_left _ _

theorem mem_cut_of_shows {draft : Draft} {paragraph : Paragraph}
    (current : draft.current = paragraph) (shows : visible paragraph.written ≠ []) :
    paragraph ∈ draft.cut.closed := by
  rw [← current] at shows ⊢
  rw [Draft.cut_of_shows shows]
  exact List.mem_concat_self

/-- Paragraphs that have ended stay. -/
theorem mem_ended_of_closed {paragraph : Paragraph} (closed : paragraph ∈ reading.draft.closed)
    (spots : List Spot) : paragraph ∈ (spots.foldl Reading.read reading).draft.ended := by
  induction spots generalizing reading with
  | nil => exact closed_subset_cut _ closed
  | cons spot rest ih =>
      apply ih
      cases ends : endsParagraph spot.node with
      | true =>
          rw [reading.read_of_ends ends]
          exact closed_subset_cut _ closed
      | false => rwa [(reading.read_of_goesOn ends).1]

/-- A paragraph that shows ends at some time, with its marker and all of its texts. -/
theorem exists_ended {texts : List Spot} (spots : List Spot)
    (unmarked : reading.pending = .none) (current : reading.draft.current = ⟨marker, texts⟩)
    (shows : visible (textOf texts) ≠ []) :
    ∃ more, ⟨marker, texts ++ more⟩ ∈ (spots.foldl Reading.read reading).draft.ended := by
  induction spots generalizing reading texts with
  | nil =>
      refine ⟨[], ?_⟩
      rw [List.append_nil]
      exact mem_cut_of_shows current shows
  | cons spot rest ih =>
      rw [List.foldl_cons]
      cases ends : endsParagraph spot.node with
      | true =>
          refine ⟨[], ?_⟩
          rw [List.append_nil]
          apply mem_ended_of_closed
          rw [reading.read_of_ends ends]
          exact mem_cut_of_shows current shows
      | false =>
          cases kind : spot.node.kind with
          | text =>
              have longer : (reading.read spot).draft.current = ⟨marker, texts ++ [spot]⟩ := by
                rw [Reading.read, kind]
                simp [Draft.write, unmarked, current]
              have still : visible (textOf (texts ++ [spot])) ≠ [] := by
                rw [textOf, List.flatMap_append, Text.visible_append]
                exact List.append_ne_nil_of_left_ne_nil shows _
              have taken : (reading.read spot).pending = .none := by rw [Reading.read, kind]
              obtain ⟨more, ended⟩ := ih taken longer still
              rw [List.append_assoc] at ended
              exact ⟨_, ended⟩
          | lineBreak => simp [endsParagraph, kind] at ends
          | listItem => simp [endsParagraph, kind] at ends
          | _ =>
              rw [Reading.read, kind]
              exact ih unmarked current shows

/-- The first text that shows begins a paragraph that has the marker. -/
theorem Awaits.exists_paragraph (awaits : Awaits reading marker) (shows : spot.shows = true)
    (spots : List Spot) :
    ∃ texts, ⟨marker, texts⟩ ∈ ((spot :: spots).foldl Reading.read reading).draft.ended ∧
      (texts.filter Spot.shows).head? = some spot := by
  obtain ⟨isText, visibly⟩ := (shows_iff spot).mp shows
  have taken : (reading.read spot).pending = .none := by rw [Reading.read, isText]
  have current : (reading.read spot).draft.current =
      ⟨marker, reading.draft.current.texts ++ [spot]⟩ := by
    rw [Reading.read, isText, ← awaits.next]
    rfl
  have some : visible (textOf (reading.draft.current.texts ++ [spot])) ≠ [] := by
    rw [textOf, List.flatMap_append, List.flatMap_singleton, Text.visible_append]
    exact List.append_ne_nil_of_right_ne_nil _ visibly
  obtain ⟨more, ended⟩ := exists_ended spots taken current some
  refine ⟨_, ended, ?_⟩
  rw [List.filter_append, List.filter_append, filter_shows_eq_nil awaits.blank,
    List.filter_singleton, shows]
  rfl

end Reading

/-- A text shows inside the item, with no list before it. Texts of the item itself are among
these. -/
def Spot.HasText (item : Spot) : Prop :=
  ∃ before text after, item.inside = before ++ text :: after ∧
    (∀ spot ∈ before, spot.node.kind ≠ .list) ∧ text.shows = true

/-- The first text that shows inside an item, if no list comes before. -/
theorem Spot.HasText.first {item : Spot} (hasText : item.HasText) :
    ∃ blanks text rest, item.inside = blanks ++ text :: rest ∧
      item.inside.find? Spot.shows = some text ∧ text.shows = true ∧
      ∀ spot ∈ blanks, spot.shows = false ∧ spot.node.kind ≠ .list := by
  obtain ⟨before, later, after, inside, noList, showsLater⟩ := hasText
  have within : later ∈ item.inside := by
    rw [inside]
    exact List.mem_append_right _ List.mem_cons_self
  obtain ⟨text, found⟩ := Option.isSome_iff_exists.mp
    (List.find?_isSome.mpr ⟨later, within, showsLater⟩)
  obtain ⟨shows, blanks, rest, split, hidden⟩ := List.find?_eq_some_iff_append.mp found
  refine ⟨blanks, text, rest, split, found, shows, fun spot member => ?_⟩
  have blank : spot.shows = false := by simpa using hidden spot member
  refine ⟨blank, ?_⟩
  rw [inside] at split
  rcases List.append_eq_append_iff.mp split with ⟨more, rfl, behind⟩ | ⟨more, rfl, behind⟩
  · rcases List.mem_append.mp member with early | late
    · exact noList spot early
    · cases more with
      | nil => cases late
      | cons head others =>
          obtain ⟨rfl, _⟩ := List.cons.inj behind
          have unseen := hidden later (List.mem_append_right _ List.mem_cons_self)
          rw [showsLater] at unseen
          cases unseen
  · exact noList spot (List.mem_append_left _ member)

/-- The first text that shows inside an item begins a paragraph with the marker of the item. -/
theorem exists_paragraph_of_item {block : Node} (isList : block.kind = .list) {item : Spot}
    (member : item ∈ blockSpots block) (isItem : item.node.kind = .listItem)
    (hasText : item.HasText) :
    ∃ paragraph ∈ paragraphsOf block, paragraph.marker = item.place.marker ∧
      (paragraph.texts.filter Spot.shows).head? = item.inside.find? Spot.shows := by
  obtain ⟨blanks, text, rest, split, found, shows, hidden⟩ := hasText.first
  obtain ⟨before, after, whole⟩ := exists_inside member
  have marked : item.place.marker ≠ .none := by
    apply marker_ne_none ?_ member
    rw [blockMarker, isList]
    exact markerOf_ne_none block.tag
  have same : ∀ spot ∈ blanks, spot.place.marker = item.place.marker := by
    intro spot blank
    have starts : blanks <+: item.inside := ⟨text :: rest, split.symm⟩
    rw [marker_eq_of_noList starts (fun spot member => (hidden spot member).2) spot blank]
    exact if_neg (by simp [isItem])
  let start := before.foldl Reading.read ⟨{}, (opening block).pendingMarker⟩
  have awaits : (blanks.foldl Reading.read (start.read item)).Awaits item.place.marker :=
    (Reading.awaits_item isItem marked start).foldl marked
      (fun spot member => (hidden spot member).1) fun spot member _ => same spot member
  obtain ⟨texts, ended, first⟩ := awaits.exists_paragraph shows (rest ++ after)
  refine ⟨⟨item.place.marker, texts⟩, ?_, rfl, first.trans found.symm⟩
  rw [paragraphsOf, blockSpots, whole, split, List.foldl_append, List.foldl_cons,
    List.append_assoc, List.foldl_append]
  exact ended

/-- In a list, the texts that show are divided by the paragraphs in one way. Each paragraph is of
one item exactly when no text shows behind an item that has ended, and what shows first in an item
begins a paragraph that has the marker of the item's list. -/
theorem items_of_paragraphs {block : Node} (isList : block.kind = .list)
    (proper : ∀ inner ∈ block.inside, inner.IsProper) :
    (∃! groups, Divides block groups) ∧
      ∀ groups, Divides block groups →
        ((∀ group ∈ groups, OneItem group) ↔ Orderly block) ∧
          ∀ item ∈ blockSpots block, item.node.kind = .listItem → item.HasText →
            ∃ paragraph ∈ groups.zip (brokenRuns (textContent block).runs),
              paragraph.1.head? = item.inside.find? Spot.shows ∧
                paragraph.2.head?.map (·.marker) = some item.place.marker := by
  have divides := divides_showing proper
  refine ⟨⟨showing block, divides, fun groups other => other.unique divides⟩, ?_⟩
  intro groups other
  rw [other.unique divides]
  refine ⟨oneItem_iff_orderly block, ?_⟩
  intro item member isItem hasText
  obtain ⟨paragraph, isParagraph, marker, first⟩ :=
    exists_paragraph_of_item isList member isItem hasText
  obtain ⟨runs, same, composes⟩ := composes_runs proper
  obtain ⟨group, paired, begins⟩ := composes.exists_group isParagraph
  refine ⟨(paragraph.texts.filter Spot.shows, group), ?_, first, ?_⟩
  · rw [same, brokenRuns, composes.splitBy_flatten, showing, List.zip_map_left]
    exact List.mem_map_of_mem paired
  · rw [← marker]
    exact begins

instance (group : List Spot) : Decidable (OneItem group) :=
  inferInstanceAs (Decidable (∀ first ∈ group, ∀ second ∈ group, _ = _))

instance (block : Node) : Decidable (Orderly block) :=
  inferInstanceAs (Decidable (∀ piece ∈ spotPieces block, _))

def nestedList : Node :=
  bareNode "ul" []
    [bareNode "li" []
      [bareText "fruit", bareNode "ol" [] [bareNode "li" [] [bareText "apple"]]]]

theorem items_of_paragraphs_nestedList :
    nestedList.kind = .list ∧ (∀ inner ∈ nestedList.inside, inner.IsProper) ∧ Orderly nestedList ∧
      (∃! groups, Divides nestedList groups) ∧
      (∀ groups, Divides nestedList groups → ∀ group ∈ groups, OneItem group) ∧
      ∃ runs ∈ brokenRuns (textContent nestedList).runs,
        runs.head?.map (·.marker) = some .number := by
  have isList : nestedList.kind = .list := by decide +kernel
  have proper : ∀ inner ∈ nestedList.inside, inner.IsProper := by decide +kernel
  have orderly : Orderly nestedList := by decide +kernel
  obtain ⟨⟨groups, divides, unique⟩, each⟩ := items_of_paragraphs isList proper
  let item : Spot := (blockSpots nestedList).get ⟨3, by decide⟩
  have hasText : item.HasText := ⟨[], _, [], rfl, nofun, by decide +kernel⟩
  obtain ⟨paragraph, paired, _, marker⟩ :=
    (each groups divides).2 item (List.get_mem ..) (by decide +kernel) hasText
  exact ⟨isList, proper, orderly, ⟨groups, divides, unique⟩,
    fun groups divides => (each groups divides).1.mpr orderly, paragraph.2,
    (List.of_mem_zip paired).2, marker⟩

def resumedItem : Node :=
  bareNode "ul" []
    [bareNode "li" []
      [bareText "a", bareNode "ul" [] [bareNode "li" [] [bareText "b"]], bareText "c"]]

/-- Not all paragraphs of lists are of one item: text behind a list goes on in the paragraph of the
item that was last in the list. -/
theorem not_oneItem :
    ¬ ∀ block : Node, block.kind = .list → (∀ inner ∈ block.inside, inner.IsProper) →
      ∀ groups, Divides block groups → ∀ group ∈ groups, OneItem group := by
  intro all
  have isList : resumedItem.kind = .list := by decide +kernel
  have proper : ∀ inner ∈ resumedItem.inside, inner.IsProper := by decide +kernel
  have mixed : ¬ ∀ group ∈ showing resumedItem, OneItem group := by decide +kernel
  exact mixed (all resumedItem isList proper _ (divides_showing proper))

end SlidePress.Slide
