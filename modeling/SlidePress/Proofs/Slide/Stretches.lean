import Mathlib.Data.List.Induction
import SlidePress.Proofs.Slide.VisibleText
import SlidePress.Proofs.Text.Words

/-! Stretches of text with collapsed white space. A text collapses to its words with single blanks
between them, also where it is cut into stretches that are collapsed one after another, up to blanks
at its end; and these are trimmed from the last stretches. -/

namespace SlidePress.Slide

open Text (visible dropBlanks spaced words settled)

/-! ## Collapsed white space -/

/-- After a blank a text collapses to its words; after anything else blanks before the first word
count as one. -/
theorem dropBlanks_collapse (text : Text) :
    dropBlanks (collapse true text) = settled text ∧
      dropBlanks (collapse false text) =
        (Text.wordsFrom text).1 ++ spaced (Text.wordsFrom text).2 := by
  induction text with
  | nil => exact ⟨rfl, rfl⟩
  | cons byte rest ih =>
      cases kind : Byte.isSpace byte with
      | true =>
          rw [settled, Text.words_eq, Text.wordsFrom_space kind, if_pos rfl, collapse, collapse,
            kind]
          refine ⟨ih.1, ?_⟩
          change dropBlanks ([' '.toUInt8] ++ collapse true rest) = [] ++ spaced (words rest)
          rw [Text.dropBlanks_append, ih.1, settled]
          cases listed : words rest with
          | nil => rfl
          | cons word others =>
              have some : word ≠ [] :=
                Text.words_ne_nil word (listed ▸ List.mem_cons_self)
              rw [Text.join_cons, if_neg fun empty => some (List.append_eq_nil_iff.mp empty).1]
              rfl
      | false =>
          have solid := Text.ne_blank_of_solid kind
          have same : ∀ blank, dropBlanks (collapse blank (byte :: rest)) =
              byte :: ((Text.wordsFrom rest).1 ++ spaced (Text.wordsFrom rest).2) := by
            intro blank
            rw [collapse, kind, if_neg Bool.false_ne_true, Text.dropBlanks_cons_of_ne solid, ih.2]
          rw [settled, Text.words_eq, Text.wordsFrom_solid kind, if_neg (List.cons_ne_nil _ _),
            same, same,
            Text.join_cons]
          exact ⟨rfl, rfl⟩

/-- What is to come is collapsed as if it stood alone, after what the text so far ends with. -/
theorem collapse_append (blank : Bool) (first second : Text) :
    collapse blank (first ++ second) = collapse blank first ++
      collapse (if collapse blank first = [] then blank
        else (collapse blank first).getLast? == some ' '.toUInt8) second := by
  induction first generalizing blank with
  | nil => rfl
  | cons byte rest ih =>
      cases kind : Byte.isSpace byte with
      | true =>
          cases blank with
          | true =>
              rw [List.cons_append, collapse, collapse, kind]
              exact ih true
          | false =>
              rw [List.cons_append, collapse, collapse, kind, if_pos rfl, if_pos rfl,
                if_neg Bool.false_ne_true, if_neg Bool.false_ne_true, ih true,
                if_neg (List.cons_ne_nil _ _)]
              cases collapse true rest with
              | nil => rfl
              | cons next others => rw [List.getLast?_cons_cons]; rfl
      | false =>
          rw [List.cons_append, collapse, collapse, kind, if_neg Bool.false_ne_true,
            if_neg Bool.false_ne_true, ih false, if_neg (List.cons_ne_nil _ _)]
          cases collapse false rest with
          | nil =>
              have solid : (some byte == some ' '.toUInt8) = false := by
                simpa using Text.ne_blank_of_solid kind
              rw [if_pos rfl, List.getLast?_singleton, solid]
              rfl
          | cons next others => rw [List.getLast?_cons_cons]; rfl

theorem collapse_eq_nil_iff (text : Text) : collapse true text = [] ↔ visible text = [] := by
  constructor
  · intro empty
    rw [← visible_collapse true text, empty]
    rfl
  · intro hidden
    induction text with
    | nil => rfl
    | cons byte rest ih =>
        cases kind : Byte.isSpace byte with
        | true =>
            rw [collapse, kind]
            apply ih
            rwa [visible, List.filter_cons, kind] at hidden
        | false =>
            rw [visible, List.filter_cons, kind] at hidden
            cases hidden

theorem settled_eq (text : Text) : settled text = dropBlanks (collapse true text) :=
  (dropBlanks_collapse text).1.symm

theorem dropBlanks_settled (text : Text) : dropBlanks (settled text) = settled text := by
  rw [settled_eq, Text.dropBlanks_dropBlanks]

theorem visible_settled (text : Text) : visible (settled text) = visible text := by
  rw [settled_eq]
  exact (Text.visible_trimmed _).trans (visible_collapse true _)

theorem settled_eq_nil_iff (text : Text) : settled text = [] ↔ visible text = [] := by
  constructor
  · intro empty
    rw [← visible_settled, empty]
    rfl
  · intro hidden
    rw [settled_eq, (collapse_eq_nil_iff text).mpr hidden]
    rfl

/-! ## Stretches of text -/

/-- What segments and runs have in common: a text and what begins at it. -/
structure Stretch where
  text : Text
  breakBefore : Bool
  marker : ListMarker

def Segment.stretch (segment : Segment) : Stretch :=
  ⟨segment.text, segment.breakBefore, segment.marker⟩

def TextRun.stretch (run : TextRun) : Stretch := ⟨run.text, run.breakBefore, run.marker⟩

def Stretch.begins (stretch : Stretch) : Bool × ListMarker := (stretch.breakBefore, stretch.marker)

/-- Stretches that make up one text. Only the first may begin something. -/
structure Renders (text : Text) (broken : Bool) (marker : ListMarker) (stretches : List Stretch) :
    Prop where
  first : stretches.head?.map Stretch.begins = some (broken, marker)
  rest : ∀ stretch ∈ stretches.tail, stretch.begins = (false, .none)
  some : ∀ stretch ∈ stretches, stretch.text ≠ []
  whole : stretches.flatMap (·.text) = text

namespace Renders

variable {text : Text} {broken : Bool} {marker : ListMarker} {stretches : List Stretch}
  {last : Stretch}

theorem single (begins : last.begins = (broken, marker)) (some : last.text ≠ []) :
    Renders last.text broken marker [last] where
  first := congrArg Option.some begins
  rest := nofun
  some stretch member := by
    rw [List.mem_singleton.mp member]
    exact some
  whole := List.flatMap_singleton ..

theorem ne_nil (renders : Renders text broken marker stretches) : stretches ≠ [] := by
  rintro rfl
  cases renders.first

theorem snoc (renders : Renders text broken marker stretches) (some : last.text ≠ [])
    (goesOn : last.begins = (false, .none)) :
    Renders (text ++ last.text) broken marker (stretches ++ [last]) where
  first := by
    rw [List.head?_append_of_ne_nil _ renders.ne_nil]
    exact renders.first
  rest stretch member := by
    rw [List.tail_append_of_ne_nil renders.ne_nil] at member
    rcases List.mem_append.mp member with earlier | isLast
    · exact renders.rest stretch earlier
    · rw [List.mem_singleton.mp isLast]
      exact goesOn
  some stretch member := by
    rcases List.mem_append.mp member with earlier | isLast
    · exact renders.some stretch earlier
    · rw [List.mem_singleton.mp isLast]
      exact some
  whole := by rw [List.flatMap_append, renders.whole, List.flatMap_singleton]

/-- The last stretch may be replaced by one that begins the same. -/
theorem replace (renders : Renders text broken marker (stretches ++ [last])) {other : Stretch}
    (same : other.begins = last.begins) (some : other.text ≠ []) :
    Renders (stretches.flatMap (·.text) ++ other.text) broken marker (stretches ++ [other]) where
  first := by
    have first := renders.first
    cases stretches with
    | nil => exact (congrArg Option.some same).trans first
    | cons head tail => exact first
  rest stretch member := by
    have rest := renders.rest
    cases stretches with
    | nil => cases member
    | cons head tail =>
        rcases List.mem_append.mp member with earlier | isOther
        · exact rest stretch (List.mem_append_left _ earlier)
        · rw [List.mem_singleton.mp isOther, same]
          exact rest last (List.mem_append_right _ List.mem_cons_self)
  some stretch member := by
    rcases List.mem_append.mp member with earlier | isOther
    · exact renders.some stretch (List.mem_append_left _ earlier)
    · rw [List.mem_singleton.mp isOther]
      exact some
  whole := by rw [List.flatMap_append, List.flatMap_singleton]

/-- All but the last stretch make up what the last one leaves. -/
theorem init (renders : Renders text broken marker (stretches ++ [last])) (some : stretches ≠ []) :
    Renders (stretches.flatMap (·.text)) broken marker stretches where
  first := by
    have first := renders.first
    rwa [List.head?_append_of_ne_nil _ some] at first
  rest stretch member := by
    apply renders.rest
    rw [List.tail_append_of_ne_nil some]
    exact List.mem_append_left _ member
  some stretch member := renders.some stretch (List.mem_append_left _ member)
  whole := rfl

end Renders

/-- Trimming takes the blanks from the end of a text that shows, and leaves what stands before. -/
theorem Renders.trimEnd {text : Text} {broken : Bool} {marker : ListMarker} {group : List Segment}
    (renders : Renders text broken marker (group.map Segment.stretch)) (shown : visible text ≠ [])
    (earlier : List Segment) :
    ∃ trimmed : List Segment,
      Slide.trimEnd (group.reverse ++ earlier) = trimmed.reverse ++ earlier ∧
        Renders (dropBlanks text) broken marker (trimmed.map Segment.stretch) := by
  induction group using List.reverseRecOn generalizing text with
  | nil => exact absurd rfl renders.ne_nil
  | append_singleton init last ih =>
      rw [List.map_append, List.map_singleton] at renders
      have whole := renders.whole
      rw [List.flatMap_append, List.flatMap_singleton] at whole
      have hidden := Text.visible_trimmed last.text
      rw [List.reverse_append, List.reverse_singleton, List.singleton_append, List.cons_append,
        Slide.trimEnd]
      split
      · rename_i nothing
        have blank : dropBlanks last.text = [] := List.isEmpty_iff.mp nothing
        have same : dropBlanks text = dropBlanks ((init.map Segment.stretch).flatMap (·.text)) := by
          rw [← whole, Text.dropBlanks_append]
          exact if_pos blank
        have shownBefore : visible ((init.map Segment.stretch).flatMap (·.text)) ≠ [] := by
          rw [← whole, Text.visible_append] at shown
          intro hiddenBefore
          apply shown
          rw [hiddenBefore]
          exact hidden.symm.trans (congrArg visible blank)
        have some : init.map Segment.stretch ≠ [] := by
          intro empty
          rw [empty] at shownBefore
          exact shownBefore rfl
        rw [same]
        exact ih (renders.init some) shownBefore
      · rename_i something
        have some : dropBlanks last.text ≠ [] := fun empty => something (List.isEmpty_iff.mpr empty)
        let shorter : Segment := { last with text := dropBlanks last.text }
        refine ⟨init ++ [shorter], ?_, ?_⟩
        · rw [List.reverse_append]
          rfl
        · have kept : dropBlanks text =
              (init.map Segment.stretch).flatMap (·.text) ++ dropBlanks last.text := by
            rw [← whole, Text.dropBlanks_append]
            exact if_neg some
          rw [kept, List.map_append]
          have same : shorter.stretch.begins = last.stretch.begins := rfl
          exact renders.replace same some

end SlidePress.Slide
