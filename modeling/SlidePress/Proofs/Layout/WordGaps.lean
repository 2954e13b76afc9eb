import Mathlib.Algebra.Order.BigOperators.Group.List
import Mathlib.Data.List.Induction
import SlidePress.Proofs.Layout.GreedyLines

/-! Texts one behind another on an endless line. Measured alone, a text counts its words and the blanks
between two of them. On the line the white space where two texts meet takes room as well, as long as a
word stands before it and another one behind. So what the texts measure is all the room they take,
unless they are parted by such white space. -/

namespace SlidePress

namespace Text

def startsBlank (text : Text) : Bool := text.head?.any Byte.isSpace

def endsBlank (text : Text) : Bool := text.getLast?.any Byte.isSpace

variable {first second : Text}

theorem isBlank_append : isBlank (first ++ second) = (isBlank first && isBlank second) :=
  List.all_append

theorem ne_nil_of_not_blank {text : Text} (hasWord : isBlank text = false) : text ≠ [] := by
  rintro rfl
  exact Bool.false_ne_true hasWord.symm

theorem startsBlank_append (nonempty : first ≠ []) :
    startsBlank (first ++ second) = startsBlank first := by
  unfold startsBlank
  rw [List.head?_append_of_ne_nil _ nonempty]

theorem endsBlank_append (nonempty : second ≠ []) :
    endsBlank (first ++ second) = endsBlank second := by
  unfold endsBlank
  rw [List.getLast?_append_of_ne_nil _ nonempty]

theorem endsBlank_of_blank {text : Text} (blank : isBlank text = true) (nonempty : text ≠ []) :
    endsBlank text = true := by
  rw [endsBlank, List.getLast?_eq_some_getLast nonempty]
  exact List.all_eq_true.mp blank _ (List.getLast_mem nonempty)

end Text

namespace Layout

/-- Texts that can be cut between two of them, with words on both sides and white space at the cut. -/
def IsParted (texts : List Text) : Prop :=
  ∃ before after, texts = before ++ after ∧
    Text.isBlank before.flatten = false ∧ Text.isBlank after.flatten = false ∧
    (Text.endsBlank before.flatten = true ∨ Text.startsBlank after.flatten = true)

/-- Where texts are parted can be searched for. -/
theorem isParted_iff_cut (texts : List Text) :
    IsParted texts ↔ ∃ cut < texts.length, Text.isBlank (texts.take cut).flatten = false ∧
      Text.isBlank (texts.drop cut).flatten = false ∧
      (Text.endsBlank (texts.take cut).flatten = true ∨
        Text.startsBlank (texts.drop cut).flatten = true) := by
  constructor
  · rintro ⟨before, after, rfl, wordBefore, wordAfter, blank⟩
    have nonempty : after ≠ [] := by
      rintro rfl
      exact absurd wordAfter (by decide)
    refine ⟨before.length, ?_, ?_⟩
    · rw [List.length_append]
      exact Nat.lt_add_of_pos_right (List.length_pos_iff.mpr nonempty)
    · rw [List.take_left, List.drop_left]
      exact ⟨wordBefore, wordAfter, blank⟩
  · rintro ⟨cut, -, parted⟩
    exact ⟨texts.take cut, texts.drop cut, (List.take_append_drop cut texts).symm, parted⟩

instance (texts : List Text) : Decidable (IsParted texts) :=
  decidable_of_iff _ (isParted_iff_cut texts).symm

/-- Texts are parted before the last one, or where that one begins. -/
theorem isParted_concat (texts : List Text) (text : Text) :
    IsParted (texts ++ [text]) ↔ IsParted texts ∨
      Text.isBlank texts.flatten = false ∧ text.isBlank = false ∧
        (Text.endsBlank texts.flatten = true ∨ text.startsBlank = true) := by
  constructor
  · rintro ⟨before, after, whole, wordBefore, wordAfter, cut⟩
    rcases List.eq_nil_or_concat' after with rfl | ⟨between, last, rfl⟩
    · exact absurd wordAfter (by decide)
    rw [← List.append_assoc] at whole
    obtain ⟨rfl, same⟩ := List.append_inj' whole rfl
    obtain rfl := List.head_eq_of_cons_eq same
    rw [List.flatten_concat] at wordAfter cut
    -- With a word between the cut and the last text, the texts are parted there without the last one.
    cases blank : Text.isBlank between.flatten with
    | false =>
        refine .inl ⟨before, between, rfl, wordBefore, blank, ?_⟩
        rwa [Text.startsBlank_append (Text.ne_nil_of_not_blank blank)] at cut
    | true =>
        rw [Text.isBlank_append, blank, Bool.true_and] at wordAfter
        rw [List.flatten_append]
        refine .inr ⟨by rw [Text.isBlank_append, wordBefore, Bool.false_and], wordAfter, ?_⟩
        by_cases empty : between.flatten = []
        · rw [empty, List.nil_append] at cut
          rwa [empty, List.append_nil]
        · exact .inl ((Text.endsBlank_append empty).trans (Text.endsBlank_of_blank blank empty))
  · rintro (⟨before, after, rfl, wordBefore, wordAfter, cut⟩ | ⟨wordBefore, wordAfter, cut⟩)
    · refine ⟨before, after ++ [text], List.append_assoc _ _ _, wordBefore, ?_, ?_⟩
      · rw [List.flatten_concat, Text.isBlank_append, wordAfter, Bool.false_and]
      · rwa [List.flatten_concat, Text.startsBlank_append (Text.ne_nil_of_not_blank wordAfter)]
    · exact ⟨texts, [text], rfl, wordBefore, by rwa [List.flatten_singleton],
        by rwa [List.flatten_singleton]⟩

/-! ## Chunks of a text -/

theorem chunks_eq_nil_iff (text : Text) : chunks text = [] ↔ text = [] := by
  fun_induction chunks text <;> simp

theorem head?_chunks (text : Text) : (chunks text).head? = some none ↔ text.startsBlank = true := by
  fun_induction chunks text <;> simp_all [Text.startsBlank]

theorem all_isNone_chunks (text : Text) : (chunks text).all Option.isNone = text.isBlank := by
  fun_induction chunks text <;> simp_all [Text.isBlank]

namespace TextExtent

variable {byteWidth : ℚ} {extent : TextExtent ℚ} {byte : UInt8}

theorem add_of_space (isSpace : Byte.isSpace byte = true) :
    add byteWidth extent byte = { extent with blankWaits := extent.seenWord } := by
  rw [add, if_pos isSpace]

def reach (byteWidth : ℚ) (extent : TextExtent ℚ) : ℚ :=
  if extent.blankWaits then extent.width + byteWidth else extent.width

theorem add_of_solid (isSolid : Byte.isSpace byte = false) :
    add byteWidth extent byte = ⟨extent.reach byteWidth + byteWidth, false, true⟩ := by
  rw [add, if_neg (ne_true_of_eq_false isSolid)]
  rfl

/-- The extent of a text with one more chunk. -/
def addChunk (byteWidth : ℚ) (extent : TextExtent ℚ) : Option Nat → TextExtent ℚ
  | none => { extent with blankWaits := extent.seenWord }
  | some size => ⟨extent.reach byteWidth + byteWidth * size, false, true⟩

/-- A text is measured byte by byte as it would be chunk by chunk. -/
theorem foldl_chunks (byteWidth : ℚ) (text : Text) (extent : TextExtent ℚ) :
    (chunks text).foldl (addChunk byteWidth) extent = text.foldl (add byteWidth) extent := by
  fun_induction chunks text generalizing extent with
  | case1 => rfl
  | case2 byte rest more chunked isSpace ih =>
      rw [List.foldl_cons, List.foldl_cons, add_of_space isSpace, ← ih, chunked]
      rfl
  | case3 byte rest isSpace _ ih =>
      rw [List.foldl_cons, List.foldl_cons, add_of_space isSpace, ← ih]
      rfl
  | case4 byte rest size more chunked isSolid ih =>
      have longer : extent.reach byteWidth + byteWidth * ((size + 1 : Nat) : ℚ) =
          extent.reach byteWidth + byteWidth + byteWidth * size := by
        rw [Nat.cast_succ, mul_add, mul_one, add_comm (byteWidth * _), add_assoc]
      rw [List.foldl_cons, List.foldl_cons, add_of_solid isSolid, ← ih, chunked, List.foldl_cons]
      exact congrArg (more.foldl (addChunk byteWidth) ⟨·, false, true⟩) longer
  | case5 byte rest isSolid _ ih =>
      rw [List.foldl_cons, List.foldl_cons, add_of_solid isSolid, ← ih, addChunk, Nat.cast_one,
        mul_one]

/-- A blank waits behind a text with words that ends in white space. -/
theorem blankWaits_foldl {text : Text} (nonempty : text ≠ []) :
    (text.foldl (add byteWidth) extent).blankWaits =
      (text.endsBlank && (text.foldl (add byteWidth) extent).seenWord) := by
  rcases List.eq_nil_or_concat' text with rfl | ⟨before, last, rfl⟩
  · exact absurd rfl nonempty
  have ends : Text.endsBlank (before ++ [last]) = Byte.isSpace last := by
    rw [Text.endsBlank, List.getLast?_concat, Option.any_some]
  rw [ends, List.foldl_concat]
  cases isSpace : Byte.isSpace last with
  | true => rw [add_of_space isSpace, Bool.true_and]
  | false => rw [add_of_solid isSpace, Bool.false_and]

end TextExtent

/-! ## Texts on an endless line -/

/-- Words and blanks on an endless line: where the last word ends, the width of the blank behind it or
before the first one, if there is any, and how many words there are. -/
structure Tally where
  stop : ℚ
  blank? : Option ℚ
  words : Nat

namespace Tally

variable (byteWidth : ℚ) (tally : Tally)

def start : Tally := ⟨0, none, 0⟩

def room : ℚ := if 0 < tally.words then tally.blank?.getD 0 else 0

/-- The tally with a blank. One behind another counts for nothing. -/
def withBlank : Tally := { tally with blank? := some (tally.blank?.getD byteWidth) }

/-- The tally with a chunk of text. -/
def addChunk : Option Nat → Tally
  | none => tally.withBlank byteWidth
  | some size => ⟨tally.stop + tally.room + byteWidth * size, none, tally.words + 1⟩

def addText (text : Text) : Tally := (chunks text).foldl (addChunk byteWidth) tally

/-- A tally and an extent of one text, from its first word on. -/
structure Beside (gap : ℚ) (words : Nat) (tally : Tally) (extent : TextExtent ℚ) : Prop where
  seenWord : extent.seenWord = true
  stop : tally.stop = gap + extent.width
  blank : tally.blank? = if extent.blankWaits then some byteWidth else none
  words : words < tally.words

variable {byteWidth tally} {gap : ℚ} {words : Nat} {extent : TextExtent ℚ}

theorem Beside.addChunk (beside : Beside byteWidth gap words tally extent) (chunk : Option Nat) :
    Beside byteWidth gap words (tally.addChunk byteWidth chunk) (extent.addChunk byteWidth chunk) := by
  cases chunk with
  | none =>
      have blank : tally.blank?.getD byteWidth = byteWidth := by
        rw [beside.blank]
        cases extent.blankWaits <;> rfl
      refine ⟨beside.seenWord, beside.stop, ?_, beside.words⟩
      rw [TextExtent.addChunk, beside.seenWord, if_pos rfl]
      exact congrArg some blank
  | some size =>
      have room : tally.room = if extent.blankWaits then byteWidth else 0 := by
        rw [Tally.room, if_pos (Nat.zero_lt_of_lt beside.words), beside.blank]
        cases extent.blankWaits <;> rfl
      refine ⟨rfl, ?_, rfl, Nat.lt_succ_of_lt beside.words⟩
      rw [Tally.addChunk, TextExtent.addChunk, beside.stop, room, TextExtent.reach, ← add_assoc]
      split
      · rw [add_assoc gap]
      · rw [add_zero]

theorem Beside.foldl (beside : Beside byteWidth gap words tally extent) (list : List (Option Nat)) :
    Beside byteWidth gap words (list.foldl (Tally.addChunk byteWidth) tally)
      (list.foldl (TextExtent.addChunk byteWidth) extent) := by
  induction list generalizing tally extent with
  | nil => exact beside
  | cons chunk rest ih => exact ih (beside.addChunk chunk)

theorem withBlank_withBlank :
    (tally.withBlank byteWidth).withBlank byteWidth = tally.withBlank byteWidth := rfl

/-- The room between the last word and the first one of a text. -/
def gapBefore (byteWidth : ℚ) (tally : Tally) (startsBlank : Bool) : ℚ :=
  (if startsBlank then tally.withBlank byteWidth else tally).room

/-- Once the first word of a text is there, the text is measured and set on the line alike. -/
theorem beside_foldl {list : List (Option Nat)} (hasWord : list.all Option.isNone = false)
    (tally : Tally) :
    Beside byteWidth (tally.stop + tally.gapBefore byteWidth (list.head? == some none)) tally.words
      (list.foldl (addChunk byteWidth) tally)
      (list.foldl (TextExtent.addChunk byteWidth) ⟨0, false, false⟩) := by
  induction list generalizing tally with
  | nil => exact absurd hasWord (by decide)
  | cons chunk rest ih =>
      cases chunk with
      | none =>
          -- The blank is waiting now, so it makes no difference whether another one follows.
          have gap : (tally.withBlank byteWidth).gapBefore byteWidth (rest.head? == some none) =
              tally.gapBefore byteWidth true := by
            rw [gapBefore, withBlank_withBlank, ite_self]
            rfl
          have behind := ih hasWord (tally.withBlank byteWidth)
          rw [gap] at behind
          exact behind
      | some size =>
          have stop : tally.stop + tally.room + byteWidth * size =
              tally.stop + tally.room + (0 + byteWidth * size) := by rw [zero_add]
          exact Beside.foldl ⟨rfl, stop, rfl, Nat.lt_succ_self _⟩ rest

/-- A text with words takes its own width behind the gap before it. -/
theorem addText_of_word (byteWidth : ℚ) {text : Text} (hasWord : text.isBlank = false)
    (tally : Tally) :
    (tally.addText byteWidth text).stop =
        tally.stop + tally.gapBefore byteWidth text.startsBlank + textWidth byteWidth text ∧
      (tally.addText byteWidth text).blank? = (if text.endsBlank then some byteWidth else none) ∧
      tally.words < (tally.addText byteWidth text).words := by
  have beside : Beside byteWidth _ _ _ _ :=
    beside_foldl ((all_isNone_chunks text).trans hasWord) tally
  have starts : ((chunks text).head? == some none) = text.startsBlank := by
    rw [Bool.eq_iff_iff, beq_iff_eq, head?_chunks]
  have zero : (⟨0, false, false⟩ : TextExtent ℚ) = ⟨0.0, false, false⟩ := by rw [rational_zero]
  rw [starts, TextExtent.foldl_chunks, zero] at beside
  have blank := beside.blank
  rw [TextExtent.blankWaits_foldl (Text.ne_nil_of_not_blank hasWord), beside.seenWord,
    Bool.and_true] at blank
  exact ⟨beside.stop, blank, beside.words⟩

theorem foldl_blanks {list : List (Option Nat)} (areNone : list.all Option.isNone = true)
    (tally : Tally) : (none :: list).foldl (addChunk byteWidth) tally = tally.withBlank byteWidth := by
  induction list generalizing tally with
  | nil => rfl
  | cons chunk rest ih =>
      cases chunk with
      | none => exact ih areNone (tally.withBlank byteWidth)
      | some size => exact absurd areNone Bool.false_ne_true

/-- Of a text without words no more is left than a blank. -/
theorem addText_of_blank {text : Text} (blank : text.isBlank = true) (nonempty : text ≠ [])
    (tally : Tally) : tally.addText byteWidth text = tally.withBlank byteWidth := by
  have areNone := (all_isNone_chunks text).trans blank
  have chunked : chunks text ≠ [] := fun empty => nonempty ((chunks_eq_nil_iff text).mp empty)
  rw [addText]
  cases list : chunks text with
  | nil => exact absurd list chunked
  | cons chunk rest =>
      rw [list] at areNone
      cases chunk with
      | none => exact foldl_blanks areNone tally
      | some size => exact absurd areNone Bool.false_ne_true

end Tally

theorem textWidth_of_blank (byteWidth : ℚ) {text : Text} (blank : text.isBlank = true) :
    textWidth byteWidth text = 0 := by
  have same : text.foldl (TextExtent.add byteWidth) ⟨0.0, false, false⟩ = ⟨0.0, false, false⟩ := by
    induction text with
    | nil => rfl
    | cons byte rest ih =>
        have blanks := Bool.and_eq_true_iff.mp blank
        rw [List.foldl_cons, TextExtent.add_of_space blanks.1]
        exact ih blanks.2
  rw [textWidth, same, rational_zero]

theorem textWidth_nonneg {byteWidth : ℚ} (pos : 0 < byteWidth) (text : Text) :
    0 ≤ textWidth byteWidth text := by
  have grows : ∀ extent : TextExtent ℚ, 0 ≤ extent.width →
      0 ≤ (text.foldl (TextExtent.add byteWidth) extent).width := by
    induction text with
    | nil => exact fun _ nonneg => nonneg
    | cons byte rest ih =>
        intro extent nonneg
        refine ih _ ?_
        cases isSpace : Byte.isSpace byte with
        | true => rwa [TextExtent.add_of_space isSpace]
        | false =>
            rw [TextExtent.add_of_solid isSpace, TextExtent.reach]
            split
            · exact add_nonneg (add_nonneg nonneg (le_of_lt pos)) (le_of_lt pos)
            · exact add_nonneg nonneg (le_of_lt pos)
  exact grows _ (le_of_eq rational_zero.symm)

theorem byteWidth_pos (node : Styled ℚ) : 0 < node.byteWidth := by
  rw [Styled.byteWidth, rational_max]
  exact lt_of_lt_of_le (by decide +kernel) (le_max_left _ _)

/-! ## Texts together -/

def shownTexts (leaves : List (Styled ℚ)) : List Text := leaves.map Styled.shownText

def measured (leaves : List (Styled ℚ)) : ℚ :=
  (leaves.map fun leaf => textWidth leaf.byteWidth leaf.shownText).sum

theorem measured_nonneg (leaves : List (Styled ℚ)) : 0 ≤ measured leaves := by
  refine List.sum_nonneg ?_
  rw [List.forall_mem_map]
  exact fun leaf _ => textWidth_nonneg (byteWidth_pos leaf) leaf.shownText

namespace Tally

def addLeaf (tally : Tally) (leaf : Styled ℚ) : Tally := tally.addText leaf.byteWidth leaf.shownText

structure Tells (leaves : List (Styled ℚ)) (tally : Tally) : Prop where
  words : 0 < tally.words ↔ Text.isBlank (shownTexts leaves).flatten = false
  blank : tally.blank?.isSome = Text.endsBlank (shownTexts leaves).flatten
  takesRoom : ∀ width ∈ tally.blank?, 0 < width
  parted : IsParted (shownTexts leaves) → measured leaves < tally.stop ∧ 1 < tally.words
  joined : ¬ IsParted (shownTexts leaves) → tally.stop = measured leaves

variable {tally : Tally} {leaves : List (Styled ℚ)} {leaf : Styled ℚ}

theorem Tells.measured_le (tells : tally.Tells leaves) : measured leaves ≤ tally.stop := by
  by_cases parted : IsParted (shownTexts leaves)
  · exact le_of_lt (tells.parted parted).1
  · exact ge_of_eq (tells.joined parted)

theorem shownTexts_concat (leaves : List (Styled ℚ)) (leaf : Styled ℚ) :
    shownTexts (leaves ++ [leaf]) = shownTexts leaves ++ [leaf.shownText] := List.map_append

theorem measured_concat (leaves : List (Styled ℚ)) (leaf : Styled ℚ) :
    measured (leaves ++ [leaf]) = measured leaves + textWidth leaf.byteWidth leaf.shownText := by
  rw [measured, List.map_append, List.sum_append, List.map_singleton, List.sum_singleton, measured]

theorem flatten_shownTexts_concat (leaves : List (Styled ℚ)) (leaf : Styled ℚ) :
    (shownTexts (leaves ++ [leaf])).flatten = (shownTexts leaves).flatten ++ leaf.shownText := by
  rw [shownTexts_concat, List.flatten_concat]

theorem Tells.addLeaf_of_blank (tells : tally.Tells leaves) (blank : leaf.shownText.isBlank = true) :
    (tally.addLeaf leaf).Tells (leaves ++ [leaf]) := by
  have width : measured (leaves ++ [leaf]) = measured leaves := by
    rw [measured_concat, textWidth_of_blank _ blank, add_zero]
  have parted : IsParted (shownTexts (leaves ++ [leaf])) ↔ IsParted (shownTexts leaves) := by
    rw [shownTexts_concat, isParted_concat, or_iff_left]
    exact fun parts => Bool.false_ne_true (parts.2.1.symm.trans blank)
  have solid : Text.isBlank (shownTexts (leaves ++ [leaf])).flatten =
      Text.isBlank (shownTexts leaves).flatten := by
    rw [flatten_shownTexts_concat, Text.isBlank_append, blank, Bool.and_true]
  have ends := flatten_shownTexts_concat leaves leaf
  by_cases empty : leaf.shownText = []
  · have same : tally.addLeaf leaf = tally := by rw [addLeaf, empty]; rfl
    rw [empty, List.append_nil] at ends
    rw [same]
    exact ⟨solid ▸ tells.words, ends ▸ tells.blank, tells.takesRoom,
      fun isParted => width ▸ tells.parted (parted.mp isParted),
      fun isJoined => width ▸ tells.joined (isJoined ∘ parted.mpr)⟩
  · have room : ∀ width ∈ some (tally.blank?.getD leaf.byteWidth), 0 < width := by
      rintro width ⟨⟩
      cases waits : tally.blank? with
      | none => exact byteWidth_pos leaf
      | some width => exact tells.takesRoom width waits
    rw [addLeaf, addText_of_blank blank empty]
    refine ⟨solid ▸ tells.words, ?_, room, fun isParted => width ▸ tells.parted (parted.mp isParted),
      fun isJoined => width ▸ tells.joined (isJoined ∘ parted.mpr)⟩
    rw [ends, Text.endsBlank_append empty, Text.endsBlank_of_blank blank empty]
    rfl

/-- A text with words is set behind a gap, if words stand before it and a blank stands between. -/
theorem Tells.gapBefore_cases (tells : tally.Tells leaves) {byteWidth : ℚ} (pos : 0 < byteWidth)
    (startsBlank : Bool) :
    0 < tally.gapBefore byteWidth startsBlank ∧
        Text.isBlank (shownTexts leaves).flatten = false ∧
        (Text.endsBlank (shownTexts leaves).flatten = true ∨ startsBlank = true) ∨
      tally.gapBefore byteWidth startsBlank = 0 ∧
        ¬ (Text.isBlank (shownTexts leaves).flatten = false ∧
          (Text.endsBlank (shownTexts leaves).flatten = true ∨ startsBlank = true)) := by
  rw [← tells.words, ← tells.blank]
  by_cases behind : 0 < tally.words
  · cases startsBlank with
    | true =>
        refine .inl ⟨?_, behind, .inr rfl⟩
        change 0 < if 0 < tally.words then tally.blank?.getD byteWidth else 0
        rw [if_pos behind]
        cases waits : tally.blank? with
        | none => exact pos
        | some width => exact tells.takesRoom width waits
    | false =>
        rw [gapBefore, if_neg Bool.false_ne_true, room, if_pos behind]
        cases waits : tally.blank? with
        | none => exact .inr ⟨rfl, fun parts => parts.2.elim Bool.false_ne_true Bool.false_ne_true⟩
        | some width => exact .inl ⟨tells.takesRoom width waits, behind, .inl rfl⟩
  · refine .inr ⟨?_, fun parts => behind parts.1⟩
    rw [gapBefore, room]
    cases startsBlank <;> exact if_neg behind

theorem Tells.addLeaf_of_word (tells : tally.Tells leaves) (hasWord : leaf.shownText.isBlank = false) :
    (tally.addLeaf leaf).Tells (leaves ++ [leaf]) := by
  obtain ⟨stop, blank, words⟩ := addText_of_word leaf.byteWidth hasWord tally
  have solid : Text.isBlank (shownTexts (leaves ++ [leaf])).flatten = false := by
    rw [flatten_shownTexts_concat, Text.isBlank_append, hasWord, Bool.and_false]
  have ends : Text.endsBlank (shownTexts (leaves ++ [leaf])).flatten = leaf.shownText.endsBlank := by
    rw [flatten_shownTexts_concat, Text.endsBlank_append (Text.ne_nil_of_not_blank hasWord)]
  have parted := isParted_concat (shownTexts leaves) leaf.shownText
  rw [← shownTexts_concat] at parted
  have before := tells.measured_le
  refine ⟨iff_of_true (Nat.zero_lt_of_lt words) solid, ?_, ?_, ?_, ?_⟩
  · rw [addLeaf, blank, ends]
    cases leaf.shownText.endsBlank <;> rfl
  · rw [addLeaf, blank]
    cases leaf.shownText.endsBlank with
    | true => exact fun width same => Option.some.inj same ▸ byteWidth_pos leaf
    | false => exact fun _ => nofun
  · intro isParted
    rw [addLeaf, stop, measured_concat, add_lt_add_iff_right]
    rcases tells.gapBefore_cases (byteWidth_pos leaf) leaf.shownText.startsBlank with
      ⟨gap, wordBefore, -⟩ | ⟨noGap, together⟩
    · exact ⟨lt_add_of_le_of_pos before gap, lt_of_le_of_lt (tells.words.mpr wordBefore) words⟩
    · rw [noGap, add_zero]
      rcases parted.mp isParted with parts | ⟨wordBefore, -, cut⟩
      · exact ⟨(tells.parted parts).1, (tells.parted parts).2.trans words⟩
      · exact absurd ⟨wordBefore, cut⟩ together
  · intro isJoined
    obtain ⟨joined, together⟩ := not_or.mp (isJoined ∘ parted.mpr)
    rw [addLeaf, stop, measured_concat, tells.joined joined]
    rcases tells.gapBefore_cases (byteWidth_pos leaf) leaf.shownText.startsBlank with
      ⟨-, wordBefore, cut⟩ | ⟨noGap, -⟩
    · exact absurd ⟨wordBefore, hasWord, cut⟩ together
    · rw [noGap, add_zero]

theorem tells_foldl (leaves : List (Styled ℚ)) : (leaves.foldl addLeaf start).Tells leaves := by
  induction leaves using List.reverseRecOn with
  | nil =>
      exact ⟨iff_of_false (lt_irrefl 0) (by decide), rfl, fun _ => nofun,
        fun parted => absurd parted (by decide), fun _ => rfl⟩
  | append_singleton leaves leaf ih =>
      rw [List.foldl_concat]
      cases blank : leaf.shownText.isBlank with
      | true => exact ih.addLeaf_of_blank blank
      | false => exact ih.addLeaf_of_word blank

end Tally

end Layout

end SlidePress
