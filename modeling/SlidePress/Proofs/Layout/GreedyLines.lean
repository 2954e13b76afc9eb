import SlidePress.Layout.Inline
import SlidePress.Proofs.Layout.Exact

/-! Lines that are filled greedily. As long as no word is too much for the line, words and blanks stand
one after another just as they would on an endless line. The first word that reaches beyond the width
begins a line of its own, unless it is the first one of all. So all words stand on one line exactly when
the last one ends within the width on an endless line, or when there is no other. -/

namespace SlidePress.Layout

/-- How far words and blanks reach on an endless line: where the line goes on, where its last word ends,
and how many words there are. -/
structure Reach where
  cursor : ℚ
  stop : ℚ
  words : Nat

namespace Reach

def start : Reach := ⟨0, 0, 0⟩

/-- A blank before the first word takes no room. -/
def add (reach : Reach) (item : Item ℚ) : Reach :=
  match item.kind with
  | .word => ⟨reach.cursor + item.width, reach.cursor + item.width, reach.words + 1⟩
  | .blank => if 0 < reach.words then { reach with cursor := reach.cursor + item.width } else reach
  | .lineBreak => reach

def Fits (width : ℚ) (reach : Reach) : Prop := reach.stop ≤ width ∨ reach.words ≤ 1

/-- A line goes on behind its last word. -/
def Ordered (reach : Reach) : Prop := reach.stop ≤ reach.cursor

variable {reach : Reach} {item : Item ℚ} {width : ℚ}

theorem add_of_word (isWord : item.kind = .word) :
    reach.add item = ⟨reach.cursor + item.width, reach.cursor + item.width, reach.words + 1⟩ := by
  rw [add, isWord]

theorem add_of_blank (isBlank : item.kind = .blank) :
    reach.add item =
      if 0 < reach.words then { reach with cursor := reach.cursor + item.width } else reach := by
  rw [add, isBlank]

theorem Ordered.add (ordered : reach.Ordered) (nonneg : 0 ≤ item.width) :
    (reach.add item).Ordered := by
  unfold Reach.add
  split
  · exact le_rfl
  · split
    · exact le_add_of_le_of_nonneg ordered nonneg
    · exact ordered
  · exact ordered

/-- Words that do not fit do not fit with more behind them. -/
theorem not_fits_add (ordered : reach.Ordered) (nonneg : 0 ≤ item.width)
    (tooLong : ¬ reach.Fits width) : ¬ (reach.add item).Fits width := by
  unfold Fits at tooLong ⊢
  rw [not_or, not_le, not_le] at tooLong ⊢
  obtain ⟨beyond, several⟩ := tooLong
  unfold Reach.add
  split
  · exact ⟨lt_of_lt_of_le beyond (le_add_of_le_of_nonneg ordered nonneg), Nat.lt_succ_of_lt several⟩
  · split
    · exact ⟨beyond, several⟩
    · exact ⟨beyond, several⟩
  · exact ⟨beyond, several⟩

end Reach

namespace Breaking

variable {state : Breaking ℚ} {reach : Reach} {item : Item ℚ} {strut width : ℚ}

structure OnOneLine (width : ℚ) (reach : Reach) (state : Breaking ℚ) : Prop where
  earlier : state.earlier = []
  cursor : state.cursor = reach.cursor
  hasWord : state.hasWord = decide (0 < reach.words)
  placed : ∀ placed ∈ state.placed, placed.line = 0
  fits : reach.Fits width

def HasBroken (state : Breaking ℚ) : Prop :=
  ∃ placed ∈ state.placed, placed.item.kind = .word ∧ placed.line ≠ 0

theorem exists_placed_add (strut width : ℚ) (state : Breaking ℚ) (item : Item ℚ) :
    ∃ one, (state.add strut width item).placed = one :: state.placed := by
  unfold add
  split
  · exact ⟨_, rfl⟩
  · unfold setBlank
    split
    · exact ⟨_, rfl⟩
    · exact ⟨_, rfl⟩
  · split
    · exact ⟨_, rfl⟩
    · exact ⟨_, rfl⟩

theorem HasBroken.add (broken : state.HasBroken) : (state.add strut width item).HasBroken := by
  obtain ⟨placed, member, isBroken⟩ := broken
  obtain ⟨one, same⟩ := exists_placed_add strut width state item
  exact ⟨placed, same ▸ List.mem_cons_of_mem one member, isBroken⟩

/-- A word on the current line. -/
theorem OnOneLine.setWord (oneLine : state.OnOneLine width reach) (isWord : item.kind = .word)
    (fits : (reach.add item).Fits width) : (state.setWord item).OnOneLine width (reach.add item) := by
  rw [Reach.add_of_word isWord] at fits ⊢
  refine ⟨oneLine.earlier, ?_, ?_, List.forall_mem_cons.mpr ⟨?_, oneLine.placed⟩, fits⟩
  · exact congrArg (· + item.width) oneLine.cursor
  · exact (decide_eq_true (Nat.succ_pos _)).symm
  · exact congrArg List.length oneLine.earlier

/-- Lines broken so far, against an endless one: either one line was enough and is so by right, or some
word was broken off and did not fit. -/
def Follows (width : ℚ) (reach : Reach) (state : Breaking ℚ) : Prop :=
  state.OnOneLine width reach ∨ state.HasBroken ∧ ¬ reach.Fits width

/-- One line stays one line, or a word breaks it that does not fit. -/
theorem OnOneLine.add (oneLine : state.OnOneLine width reach) (unbroken : item.kind ≠ .lineBreak) :
    (state.add strut width item).Follows width (reach.add item) := by
  cases kind : item.kind with
  | lineBreak => exact absurd kind unbroken
  | blank =>
      refine .inl ?_
      rw [Reach.add_of_blank kind, Breaking.add, kind]
      dsimp only
      rw [setBlank, oneLine.hasWord]
      by_cases behind : 0 < reach.words
      · rw [if_pos (decide_eq_true behind), if_pos behind]
        exact ⟨oneLine.earlier, congrArg (· + item.width) oneLine.cursor, oneLine.hasWord,
          List.forall_mem_cons.mpr ⟨congrArg List.length oneLine.earlier, oneLine.placed⟩,
          oneLine.fits⟩
      · rw [if_neg behind, if_neg (by simpa using behind)]
        exact ⟨oneLine.earlier, oneLine.cursor, oneLine.hasWord,
          List.forall_mem_cons.mpr ⟨congrArg List.length oneLine.earlier, oneLine.placed⟩,
          oneLine.fits⟩
  | word =>
      have next : reach.add item = _ := Reach.add_of_word kind
      rw [Breaking.add, kind]
      dsimp only
      rw [oneLine.hasWord, oneLine.cursor]
      by_cases breaks : 0 < reach.words ∧ width < reach.cursor + item.width
      · refine .inr ?_
        rw [if_pos (by simpa using breaks), next]
        refine ⟨⟨_, List.mem_cons_self, kind, ?_⟩, ?_⟩
        · exact Nat.succ_ne_zero _
        · unfold Reach.Fits
          rw [not_or, not_le, not_le]
          exact ⟨breaks.2, Nat.succ_lt_succ breaks.1⟩
      · refine .inl ?_
        rw [if_neg (by simpa using breaks)]
        refine oneLine.setWord kind ?_
        rw [next]
        rcases Nat.eq_zero_or_pos reach.words with first | behind
        · exact .inr (by rw [first])
        · exact .inl (not_lt.mp fun beyond => breaks ⟨behind, beyond⟩)

theorem Follows.foldl {items : List (Item ℚ)} (strut : ℚ)
    (unbroken : ∀ item ∈ items, item.kind ≠ .lineBreak) (nonneg : ∀ item ∈ items, 0 ≤ item.width)
    (ordered : reach.Ordered) (follows : state.Follows width reach) :
    (items.foldl (Breaking.add strut width) state).Follows width (items.foldl Reach.add reach) := by
  induction items generalizing state reach with
  | nil => exact follows
  | cons item items ih =>
      obtain ⟨isUnbroken, areUnbroken⟩ := List.forall_mem_cons.mp unbroken
      obtain ⟨isNonneg, areNonneg⟩ := List.forall_mem_cons.mp nonneg
      refine ih areUnbroken areNonneg (ordered.add isNonneg) ?_
      rcases follows with oneLine | ⟨broken, tooLong⟩
      · exact oneLine.add isUnbroken
      · exact .inr ⟨broken.add, Reach.not_fits_add ordered isNonneg tooLong⟩

/-- All words stand on one line exactly when they fit on an endless one. -/
theorem words_on_one_line_iff {items : List (Item ℚ)} (strut width : ℚ)
    (unbroken : ∀ item ∈ items, item.kind ≠ .lineBreak) (nonneg : ∀ item ∈ items, 0 ≤ item.width) :
    (∀ placed ∈ (items.foldl (Breaking.add strut width) (Breaking.start strut)).placed,
        placed.item.kind = .word → placed.line = 0) ↔
      (items.foldl Reach.add Reach.start).Fits width := by
  have start : (Breaking.start strut).OnOneLine width Reach.start :=
    ⟨rfl, rational_zero, rfl, List.forall_mem_nil _, .inr (Nat.zero_le 1)⟩
  have ordered : Reach.start.Ordered := le_rfl
  rcases Follows.foldl strut unbroken nonneg ordered (.inl start) with oneLine | ⟨broken, tooLong⟩
  · exact iff_of_true (fun placed member _ => oneLine.placed placed member) oneLine.fits
  · refine iff_of_false (fun all => ?_) tooLong
    obtain ⟨placed, member, isWord, later⟩ := broken
    exact later (all placed member isWord)

end Breaking

end SlidePress.Layout
