import Mathlib.Data.List.Chain
import Mathlib.Data.List.TakeWhile
import SlidePress.Layout.Inline

/-! Lines filled one after another. A line takes items as long as they come, up to a break or to a word
that has no room behind the words that are on it already: a word alone may be as long as it likes. This
holds in any arithmetic, as only the comparison that was made is told, and it needs no more than what
stands before an item. -/

namespace SlidePress.Layout

variable {α : Type}

/-! ## Items on a line -/

section Items

def holdWord (items : List (Item α)) : Bool := items.any (·.kind == .word)

theorem holdWord_concat (items : List (Item α)) (item : Item α) :
    holdWord (items ++ [item]) = (holdWord items || item.kind == .word) := by
  simp [holdWord]

theorem dropWhile_of_not_holdWord {items : List (Item α)} (none : holdWord items = false) :
    items.dropWhile (·.kind != .word) = [] := by
  rw [List.dropWhile_eq_nil_iff]
  intro item member
  rw [bne_iff_ne]
  exact fun isWord => List.any_eq_false.mp none item member (beq_iff_eq.mpr isWord)

def lineItems (line : Nat) (placed : List (Placed α)) : List (Item α) :=
  (placed.filter (·.line == line)).map (·.item)

theorem lineItems_concat (line : Nat) (placed : List (Placed α)) (one : Placed α) :
    lineItems line (placed ++ [one]) =
      if one.line = line then lineItems line placed ++ [one.item] else lineItems line placed := by
  rw [lineItems, List.filter_append, List.map_append]
  split
  · rename_i same
    simp [lineItems, same]
  · rename_i other
    simp [lineItems, other]

/-- Nothing stands on a line that was not begun. -/
theorem lineItems_of_lt {line : Nat} {placed : List (Placed α)}
    (begun : ∀ one ∈ placed, one.line < line) : lineItems line placed = [] := by
  rw [lineItems, List.map_eq_nil_iff, List.filter_eq_nil_iff]
  intro one member same
  exact Nat.ne_of_lt (begun one member) (beq_iff_eq.mp same)

theorem lineItems_map {change : Placed α → Placed α} (item : ∀ one, (change one).item = one.item)
    (line : ∀ one, (change one).line = one.line) (number : Nat) (placed : List (Placed α)) :
    lineItems number (placed.map change) = lineItems number placed := by
  simp only [lineItems, List.filter_map, List.map_map, Function.comp_def, item, line]

end Items

variable [Scalar α]

section Cursor

/-- Where a line goes on behind items. Blanks before its first word take no room. -/
def cursorBehind (items : List (Item α)) : α :=
  (items.dropWhile (·.kind != .word)).foldl (fun cursor item => cursor + item.width) 0.0

/-- One more item takes its width, unless the line has no word by then. -/
theorem cursorBehind_concat (items : List (Item α)) (item : Item α) :
    cursorBehind (items ++ [item]) =
      if holdWord (items ++ [item]) then cursorBehind items + item.width else cursorBehind items := by
  rw [holdWord_concat, cursorBehind, List.dropWhile_append]
  cases holds : holdWord items with
  | false =>
      rw [cursorBehind, dropWhile_of_not_holdWord holds, Bool.false_or]
      by_cases isWord : item.kind = .word
      · simp [isWord]
      · simp [isWord]
  | true =>
      have kept : (items.dropWhile (·.kind != .word)).isEmpty = false := by
        obtain ⟨word, member, isWord⟩ := List.any_eq_true.mp holds
        rw [← Bool.not_eq_true, List.isEmpty_iff, List.dropWhile_eq_nil_iff]
        intro none
        exact absurd (beq_iff_eq.mp isWord) (bne_iff_ne.mp (none word member))
      rw [kept, if_neg Bool.false_ne_true, List.foldl_append, Bool.true_or, if_pos rfl]
      rfl

end Cursor

/-! ## Greedy lines -/

/-- What is changed in the end: blanks at the end of a line lose their width. -/
structure OnlyBlanks (change : Placed α → Placed α) : Prop where
  item : ∀ one, (change one).item = one.item
  line : ∀ one, (change one).line = one.line
  x : ∀ one, (change one).x = one.x
  width : ∀ one, one.item.kind ≠ .blank → (change one).width = one.width

structure SetGreedily (width : α) (before : List (Placed α)) (one : Placed α) : Prop where
  atCursor : one.x = cursorBehind (lineItems one.line before)
  full : one.item.kind = .word → one.width = one.item.width
  /-- Only the first word of a line may reach beyond the width. -/
  within : one.item.kind = .word → holdWord (lineItems one.line before) = true →
    ¬ width < one.x + one.width
  first : before = [] → one.line = 0
  /-- A break ends its line. -/
  behindBreak : ∀ last ∈ before.getLast?, last.item.kind = .lineBreak → one.line = last.line + 1
  /-- Otherwise only a word begins a line, for want of room behind the words on the last one. -/
  behindOther : ∀ last ∈ before.getLast?, last.item.kind ≠ .lineBreak →
    one.line = last.line ∨
      (one.line = last.line + 1 ∧ one.item.kind = .word ∧
        holdWord (lineItems last.line before) = true ∧
        width < cursorBehind (lineItems last.line before) + one.width)

def FilledGreedily (width : α) (placed : List (Placed α)) : Prop :=
  ∀ before one after, placed = before ++ one :: after → SetGreedily width before one

namespace FilledGreedily

variable {width : α} {placed : List (Placed α)}

theorem nil (width : α) : FilledGreedily width [] := by
  intro before one after split
  cases before <;> cases split

theorem concat (filled : FilledGreedily width placed) {one : Placed α}
    (set : SetGreedily width placed one) : FilledGreedily width (placed ++ [one]) := by
  intro before other after split
  rcases List.eq_nil_or_concat after with rfl | ⟨more, last, rfl⟩
  · obtain ⟨rfl, same⟩ := List.append_inj' split rfl
    rwa [← List.singleton_inj.mp same]
  · rw [List.concat_eq_append, ← List.cons_append, ← List.append_assoc] at split
    exact filled before other more (List.append_inj' split rfl).1

theorem of_append {later : List (Placed α)} (filled : FilledGreedily width (placed ++ later)) :
    FilledGreedily width placed := by
  rintro before one after rfl
  exact filled before one (after ++ later) (by rw [List.append_assoc, List.cons_append])

/-- The lines follow one another. -/
theorem isChain_lines (filled : FilledGreedily width placed) :
    (placed.map (·.line)).IsChain fun line next => line ≤ next ∧ next ≤ line + 1 := by
  induction placed using List.reverseRecOn with
  | nil => exact .nil
  | append_singleton before one ih =>
      have set := filled before one [] rfl
      rw [List.map_append, List.isChain_append]
      refine ⟨ih filled.of_append, .singleton _, ?_⟩
      intro line isLast next isNext
      rw [List.getLast?_map] at isLast
      obtain ⟨last, found, rfl⟩ := Option.map_eq_some_iff.mp isLast
      obtain rfl : one.line = next := Option.some.inj isNext
      by_cases isBreak : last.item.kind = .lineBreak
      · have next := set.behindBreak last found isBreak
        omega
      · rcases set.behindOther last found isBreak with same | ⟨next, -⟩
        · omega
        · omega

/-- The widths of blanks are of no concern. -/
theorem map (filled : FilledGreedily width placed) {change : Placed α → Placed α}
    (only : OnlyBlanks change) : FilledGreedily width (placed.map change) := by
  intro before one after split
  obtain ⟨earlier, rest, rfl, rfl, others⟩ := List.map_eq_append_iff.mp split
  obtain ⟨own, later, rfl, rfl, rfl⟩ := List.map_eq_cons_iff.mp others
  have set := filled earlier own later rfl
  have items := lineItems_map only.item only.line
  have words : own.item.kind = .word → (change own).width = own.width := fun isWord =>
    only.width own fun isBlank => nomatch isWord.symm.trans isBlank
  have lasts : ∀ {last}, last ∈ (earlier.map change).getLast? →
      ∃ before ∈ earlier.getLast?, change before = last := fun isLast => by
    rw [List.getLast?_map] at isLast
    exact Option.map_eq_some_iff.mp isLast
  constructor
  · rw [only.x, only.line, items]
    exact set.atCursor
  · intro isWord
    rw [only.item] at isWord
    rw [only.item, words isWord]
    exact set.full isWord
  · intro isWord
    rw [only.item] at isWord
    rw [only.x, only.line, items, words isWord]
    exact set.within isWord
  · intro none
    rw [only.line]
    exact set.first (List.map_eq_nil_iff.mp none)
  · intro last isLast isBreak
    obtain ⟨before, found, rfl⟩ := lasts isLast
    rw [only.item] at isBreak
    rw [only.line, only.line]
    exact set.behindBreak before found isBreak
  · intro last isLast unbroken
    obtain ⟨before, found, rfl⟩ := lasts isLast
    rw [only.item] at unbroken
    rw [only.line, only.line, only.item, items]
    refine (set.behindOther before found unbroken).imp_right fun ⟨next, isWord, holds, beyond⟩ => ?_
    rw [words isWord]
    exact ⟨next, isWord, holds, beyond⟩

end FilledGreedily

/-! ## Filling -/

namespace Breaking

variable {width strut : α} {state : Breaking α} {item : Item α}

/-- What is kept while lines are filled: all items are set greedily on lines that were begun, and the
state tells of the current line what its items do. -/
structure Filled (width : α) (state : Breaking α) : Prop where
  greedy : FilledGreedily width state.placed.reverse
  begun : ∀ one ∈ state.placed, one.line ≤ state.earlier.length
  cursor : state.cursor = cursorBehind (lineItems state.earlier.length state.placed.reverse)
  hasWord : state.hasWord = holdWord (lineItems state.earlier.length state.placed.reverse)
  first : state.placed = [] → state.earlier.length = 0
  behindBreak : ∀ last ∈ state.placed.head?, last.item.kind = .lineBreak →
    state.earlier.length = last.line + 1 ∧ state.hasWord = false
  behindOther : ∀ last ∈ state.placed.head?, last.item.kind ≠ .lineBreak →
    state.earlier.length = last.line

theorem Filled.start (width strut : α) : (Breaking.start strut).Filled width where
  greedy := .nil width
  begun := List.forall_mem_nil _
  cursor := rfl
  hasWord := rfl
  first _ := rfl
  behindBreak _ none := nomatch none
  behindOther _ none := nomatch none

namespace Filled

variable (filled : state.Filled width)
include filled

/-- An item at the cursor of the current line. -/
theorem set {one : Placed α} (line : one.line = state.earlier.length) (x : one.x = state.cursor)
    (full : one.item.kind = .word → one.width = one.item.width)
    (within : one.item.kind = .word → state.hasWord = true → ¬ width < one.x + one.width) :
    SetGreedily width state.placed.reverse one where
  atCursor := by rw [x, line, filled.cursor]
  full := full
  within isWord holds := within isWord (by rw [filled.hasWord, ← line, holds])
  first none := line.trans (filled.first (List.reverse_eq_nil_iff.mp none))
  behindBreak last isLast isBreak :=
    line.trans (filled.behindBreak last (List.getLast?_reverse ▸ isLast) isBreak).1
  behindOther last isLast unbroken :=
    .inl (line.trans (filled.behindOther last (List.getLast?_reverse ▸ isLast) unbroken))

theorem nothing_next : lineItems (state.earlier.length + 1) state.placed.reverse = [] :=
  lineItems_of_lt fun one member =>
    Nat.lt_succ_of_le (filled.begun one (List.mem_reverse.mp member))

/-- A word that has no room on the current line begins the next one. -/
theorem set_broken {one : Placed α} (isWord : one.item.kind = .word)
    (line : one.line = state.earlier.length + 1) (x : one.x = 0.0)
    (full : one.width = one.item.width) (holds : state.hasWord = true)
    (beyond : width < state.cursor + one.width) :
    SetGreedily width state.placed.reverse one := by
  have fresh : lineItems one.line state.placed.reverse = [] := line ▸ filled.nothing_next
  constructor
  · rw [fresh, x]
    rfl
  · exact fun _ => full
  · intro _ holdsToo
    rw [fresh] at holdsToo
    cases holdsToo
  · intro none
    rw [filled.hasWord, none] at holds
    cases holds
  · intro last isLast isBreak
    have rests := (filled.behindBreak last (List.getLast?_reverse ▸ isLast) isBreak).2
    rw [holds] at rests
    cases rests
  · intro last isLast unbroken
    have current := filled.behindOther last (List.getLast?_reverse ▸ isLast) unbroken
    rw [filled.hasWord, current] at holds
    rw [filled.cursor, current] at beyond
    exact .inr ⟨by rw [line, current], isWord, holds, beyond⟩

/-- The state behind a word or a blank that was set on the current line or on the next one. -/
theorem put {next : Breaking α} {one : Placed α}
    (set : SetGreedily width state.placed.reverse one) (placed : next.placed = one :: state.placed)
    (line : one.line = next.earlier.length) (onward : state.earlier.length ≤ next.earlier.length)
    (unbroken : one.item.kind ≠ .lineBreak)
    (cursor : next.cursor =
      cursorBehind (lineItems one.line state.placed.reverse ++ [one.item]))
    (hasWord : next.hasWord = holdWord (lineItems one.line state.placed.reverse ++ [one.item])) :
    next.Filled width := by
  have items : lineItems next.earlier.length next.placed.reverse =
      lineItems one.line state.placed.reverse ++ [one.item] := by
    rw [placed, List.reverse_cons, lineItems_concat, ← line, if_pos rfl]
  constructor
  · rw [placed, List.reverse_cons]
    exact filled.greedy.concat set
  · rw [placed]
    refine List.forall_mem_cons.mpr ⟨Nat.le_of_eq line, fun other member => ?_⟩
    exact Nat.le_trans (filled.begun other member) onward
  · rw [items, cursor]
  · rw [items, hasWord]
  · intro none
    rw [placed] at none
    cases none
  · intro last isLast isBreak
    rw [placed] at isLast
    obtain rfl : one = last := Option.some.inj isLast
    exact absurd isBreak unbroken
  · intro last isLast _
    rw [placed] at isLast
    obtain rfl : one = last := Option.some.inj isLast
    exact line.symm

/-- A break goes on the current line and ends it. -/
theorem addBreak (isBreak : item.kind = .lineBreak) :
    (((state.place item item.width).raise item).newLine strut).Filled width := by
  have notWord : item.kind ≠ .word := fun isWord => nomatch isBreak.symm.trans isWord
  have set : SetGreedily width state.placed.reverse
      ⟨item, state.earlier.length, state.cursor, item.width⟩ :=
    filled.set rfl rfl (fun isWord => absurd isWord notWord) fun isWord => absurd isWord notWord
  have fresh : lineItems (state.earlier.length + 1) (state.placed.reverse ++
      [⟨item, state.earlier.length, state.cursor, item.width⟩]) = [] := by
    rw [lineItems_concat, if_neg (Nat.ne_of_lt (Nat.lt_succ_self _)), filled.nothing_next]
  rw [← List.reverse_cons] at fresh
  constructor
  · change FilledGreedily width (_ :: state.placed).reverse
    rw [List.reverse_cons]
    exact filled.greedy.concat set
  · refine List.forall_mem_cons.mpr ⟨Nat.le_succ _, fun one member => ?_⟩
    exact Nat.le_succ_of_le (filled.begun one member)
  · exact (congrArg cursorBehind fresh).symm
  · exact (congrArg holdWord fresh).symm
  · exact fun none => nomatch none
  · rintro last ⟨⟩ -
    exact ⟨rfl, rfl⟩
  · rintro last ⟨⟩ unbroken
    exact absurd isBreak unbroken

theorem setBlank (isBlank : item.kind = .blank) : (state.setBlank item).Filled width := by
  have notWord : item.kind ≠ .word := fun isWord => nomatch isBlank.symm.trans isWord
  have unbroken : item.kind ≠ .lineBreak := fun isBreak => nomatch isBlank.symm.trans isBreak
  have set : ∀ room, SetGreedily width state.placed.reverse
      ⟨item, state.earlier.length, state.cursor, room⟩ := fun room =>
    filled.set rfl rfl (fun isWord => absurd isWord notWord) fun isWord => absurd isWord notWord
  have holds : holdWord (lineItems state.earlier.length state.placed.reverse ++ [item]) =
      state.hasWord := by
    rw [holdWord_concat, ← filled.hasWord, beq_false_of_ne notWord, Bool.or_false]
  rw [Breaking.setBlank]
  split
  · rename_i hasWord
    refine filled.put (set item.width) rfl rfl (Nat.le_refl _) unbroken ?_ holds.symm
    rw [cursorBehind_concat, holds, if_pos hasWord, ← filled.cursor]
  · rename_i noWord
    refine filled.put (set 0.0) rfl rfl (Nat.le_refl _) unbroken ?_ holds.symm
    rw [cursorBehind_concat, holds, if_neg noWord, ← filled.cursor]
    rfl

theorem addWord (isWord : item.kind = .word) : (state.add strut width item).Filled width := by
  have unbroken : item.kind ≠ .lineBreak := fun isBreak => nomatch isWord.symm.trans isBreak
  have holds : ∀ items, holdWord (items ++ [item]) = true := fun items => by
    rw [holdWord_concat, isWord, beq_self_eq_true, Bool.or_true]
  rw [Breaking.add, isWord]
  dsimp only
  split
  · rename_i breaks
    rw [Bool.and_eq_true, decide_eq_true_eq] at breaks
    have set : SetGreedily width state.placed.reverse
        ⟨item, state.earlier.length + 1, 0.0, item.width⟩ :=
      filled.set_broken isWord rfl rfl rfl breaks.1 breaks.2
    refine filled.put set rfl rfl (Nat.le_succ _) unbroken ?_ (holds _).symm
    rw [cursorBehind_concat, holds, if_pos rfl, filled.nothing_next]
    rfl
  · rename_i stays
    rw [Bool.and_eq_true, decide_eq_true_eq, not_and] at stays
    have set : SetGreedily width state.placed.reverse
        ⟨item, state.earlier.length, state.cursor, item.width⟩ :=
      filled.set rfl rfl (fun _ => rfl) fun _ => stays
    refine filled.put set rfl rfl (Nat.le_refl _) unbroken ?_ (holds _).symm
    rw [cursorBehind_concat, holds, if_pos rfl, ← filled.cursor]
    rfl

/-- The step. -/
theorem add : (state.add strut width item).Filled width := by
  cases kind : item.kind with
  | word => exact filled.addWord kind
  | blank =>
      rw [Breaking.add, kind]
      exact filled.setBlank kind
  | lineBreak =>
      rw [Breaking.add, kind]
      exact filled.addBreak kind

/-- The run. -/
theorem foldl (strut : α) (items : List (Item α)) :
    (items.foldl (Breaking.add strut width) state).Filled width := by
  induction items generalizing state with
  | nil => exact filled
  | cons item rest ih => exact ih filled.add

end Filled

/-- Every item is set once, where it comes. -/
theorem items_add (strut width : α) (state : Breaking α) (item : Item α) :
    (state.add strut width item).placed.map (·.item) = item :: state.placed.map (·.item) := by
  unfold add
  split
  · rfl
  · unfold setBlank
    split
    · rfl
    · rfl
  · split
    · rfl
    · rfl

theorem items_foldl (strut width : α) (items : List (Item α)) (state : Breaking α) :
    (items.foldl (Breaking.add strut width) state).placed.map (·.item) =
      items.reverse ++ state.placed.map (·.item) := by
  induction items generalizing state with
  | nil => rfl
  | cons item rest ih =>
      rw [List.foldl_cons, ih, items_add, List.reverse_cons, List.append_assoc, List.singleton_append]

end Breaking

/-! ## Items of a run -/

namespace Flattening

inductive OfNode : Item α → Prop where
  | chunk (node : Styled α) (lineHeight : α) (owners : List Nat) (chunk : Option Nat) :
      OfNode (chunkItem node.byteWidth lineHeight owners chunk)
  | lineBreak (lineHeight : α) (owners : List Nat) : OfNode ⟨.lineBreak, 0.0, lineHeight, owners⟩

/-- What holds of the items of a run does so with one more item. -/
def Keeps (holds : List (Item α) → Prop) : Prop :=
  ∀ (run : Flattening α) (item : Item α), OfNode item → holds run.items → holds (run.push item).items

section Kept

variable {holds : List (Item α) → Prop}

theorem kept_foldl (keeps : Keeps holds) {items : List (Item α)} (ofNodes : ∀ item ∈ items, OfNode item)
    {run : Flattening α} (before : holds run.items) : holds (items.foldl push run).items := by
  induction items generalizing run with
  | nil => exact before
  | cons item rest ih =>
      obtain ⟨first, others⟩ := List.forall_mem_cons.mp ofNodes
      exact ih others (keeps run item first before)

mutual

theorem kept_add (keeps : Keeps holds) (owners : List Nat) (node : Styled α) {run : Flattening α}
    (before : holds run.items) : holds (add owners node run).items := by
  have counted : holds ({ run with next := run.next + 1 } : Flattening α).items := before
  cases node with
  | text content style fontSize =>
      rw [add]
      refine kept_foldl keeps (fun item member => ?_) counted
      obtain ⟨chunk, -, rfl⟩ := List.mem_map.mp member
      exact .chunk _ _ _ chunk
  | element head style fontSize children =>
      rw [add]
      split
      · exact keeps _ _ (.lineBreak _ _) counted
      · exact kept_addAll keeps _ children counted

theorem kept_addAll (keeps : Keeps holds) (owners : List Nat) (nodes : List (Styled α))
    {run : Flattening α} (before : holds run.items) : holds (addAll owners nodes run).items := by
  cases nodes with
  | nil =>
      rw [addAll]
      exact before
  | cons node rest =>
      rw [addAll]
      exact kept_addAll keeps owners rest (kept_add keeps owners node before)

end

/-- What every item keeps, the whole run does. -/
theorem kept_flatten (keeps : Keeps holds) (start : holds []) (run : List (Styled α)) :
    holds (flatten run).reverse := by
  rw [flatten, List.reverse_reverse]
  exact kept_addAll keeps [] run start

end Kept

end Flattening

def Spaced (items : List (Item α)) : Prop :=
  items.IsChain fun item next => ¬ (item.kind = .blank ∧ next.kind = .blank)

omit [Scalar α] in
theorem spaced_push {run : Flattening α} (spaced : Spaced run.items) (item : Item α) :
    Spaced (run.push item).items := by
  rw [Flattening.push]
  split
  · exact spaced
  · rename_i apart
    refine List.isChain_cons.mpr ⟨fun last isLast both => apart ?_, spaced⟩
    rw [Option.mem_def.mp isLast, both.1, Option.any_some, both.2]
    rfl

theorem spaced_flatten (run : List (Styled α)) : Spaced (flatten run) := by
  have spaced : Spaced (flatten run).reverse :=
    Flattening.kept_flatten (fun _ item _ spaced => spaced_push spaced item) .nil run
  rw [Spaced, List.isChain_reverse] at spaced
  exact spaced.imp fun _ _ apart both => apart both.symm

/-! ## Runs set on lines -/

theorem exists_breakLines (strut width : α) (items : List (Item α)) :
    ∃ state : Breaking α, state = items.foldl (Breaking.add strut width) (Breaking.start strut) ∧
      (breakLines strut width items).1 = state.lines ∧
      ∃ change, OnlyBlanks change ∧
        (breakLines strut width items).2 = state.placed.reverse.map change := by
  refine ⟨_, rfl, rfl, _, ⟨fun one => ?_, fun one => ?_, fun one => ?_, fun one other => ?_⟩, rfl⟩
  · dsimp only
    split <;> rfl
  · dsimp only
    split <;> rfl
  · dsimp only
    split <;> rfl
  · dsimp only
    rw [beq_false_of_ne other, Bool.false_and, if_neg Bool.false_ne_true]

theorem items_breakLines (strut width : α) (items : List (Item α)) :
    (breakLines strut width items).2.map (·.item) = items := by
  obtain ⟨state, isState, -, change, only, placed⟩ := exists_breakLines strut width items
  have all := Breaking.items_foldl strut width items (Breaking.start strut)
  rw [← isState] at all
  rw [placed, List.map_map, Function.comp_def]
  simp only [only.item]
  rw [List.map_reverse, all]
  exact (congrArg List.reverse (List.append_nil _)).trans (List.reverse_reverse items)

/-- Items are set on lines greedily, and a break ends its line even when nothing comes behind it. -/
theorem filledGreedily_breakLines (strut width : α) (items : List (Item α)) :
    FilledGreedily width (breakLines strut width items).2 ∧
      ∀ last ∈ (breakLines strut width items).2.getLast?,
        (breakLines strut width items).1.length =
          last.line + if last.item.kind = .lineBreak then 2 else 1 := by
  obtain ⟨state, isState, lines, change, only, placed⟩ := exists_breakLines strut width items
  have filled : state.Filled width := isState ▸ (Breaking.Filled.start width strut).foldl strut items
  rw [placed, lines]
  constructor
  · exact filled.greedy.map only
  · intro last isLast
    rw [List.getLast?_map, List.getLast?_reverse] at isLast
    obtain ⟨before, found, rfl⟩ := Option.map_eq_some_iff.mp isLast
    rw [Breaking.lines, List.length_reverse, List.length_cons, only.item, only.line]
    split
    · rename_i isBreak
      rw [(filled.behindBreak before found isBreak).1]
    · rename_i unbroken
      rw [filled.behindOther before found unbroken]

/-- The items of a run come in order on lines that follow one another and are filled greedily, and no
blank among them stands behind another. -/
theorem breakLines_greedy (strut width : α) (run : List (Styled α)) :
    (breakLines strut width (flatten run)).2.map (·.item) = flatten run ∧
      ((breakLines strut width (flatten run)).2.map (·.line)).IsChain
        (fun line next => line ≤ next ∧ next ≤ line + 1) ∧
      FilledGreedily width (breakLines strut width (flatten run)).2 ∧
      (∀ last ∈ (breakLines strut width (flatten run)).2.getLast?,
        (breakLines strut width (flatten run)).1.length =
          last.line + if last.item.kind = .lineBreak then 2 else 1) ∧
      (flatten run).IsChain fun item next => ¬ (item.kind = .blank ∧ next.kind = .blank) := by
  obtain ⟨greedy, ends⟩ := filledGreedily_breakLines strut width (flatten run)
  exact ⟨items_breakLines strut width _, greedy.isChain_lines, greedy, ends, spaced_flatten run⟩

/-- The first word may be too long, the second one has no room, and the blank stays behind. -/
example : (breakLines (10 : Number) 50 [⟨.word, 60, 10, []⟩, ⟨.blank, 10, 10, []⟩,
    ⟨.word, 30, 10, []⟩]).2.map (·.line) = [0, 0, 1] := by
  decide +kernel

end SlidePress.Layout
