import Mathlib.Data.Nat.Cast.Order.Ring
import SlidePress.Proofs.Layout.RelativeShift
import SlidePress.Proofs.Layout.WordGaps

/-! Boxes as wide as their content asks for. The width that inline content asks for is what its texts
measure, each alone; the lines that are set in it hold the words and the blanks of all texts together.
So the words stand on one line exactly when no texts are parted. -/

namespace SlidePress.Layout

/-! ## The texts of inline content -/

mutual

/-- Text, or an element that adds nothing of its own to a line: no break, and neither padding nor border
at its sides. -/
def Styled.isPlain : Styled ℚ → Bool
  | .text .. => true
  | .element head style fontSize children =>
      let node := Styled.element head style fontSize []
      !(head.tag == "br") &&
        decide ((node.padding 0.0).horizontal = 0 ∧ node.border.horizontal = 0) && arePlain children

def arePlain : List (Styled ℚ) → Bool
  | [] => true
  | node :: rest => node.isPlain && arePlain rest

end

mutual

def Styled.leaves : Styled ℚ → List (Styled ℚ)
  | .text content style fontSize => [.text content style fontSize]
  | .element _ _ _ children => leavesOf children

def leavesOf : List (Styled ℚ) → List (Styled ℚ)
  | [] => []
  | node :: rest => node.leaves ++ leavesOf rest

end

theorem rational_sum (numbers : List ℚ) : Scalar.sum numbers = numbers.sum := by
  rw [Scalar.sum, rational_zero, List.sum_eq_foldl]

theorem measured_append (leaves more : List (Styled ℚ)) :
    measured (leaves ++ more) = measured leaves + measured more := by
  rw [measured, List.map_append, List.sum_append, measured, measured]

mutual

theorem inlineWidth_eq_measured (node : Styled ℚ) (plain : node.isPlain = true) :
    inlineWidth node = measured node.leaves := by
  cases node with
  | text content style fontSize => exact (List.sum_singleton).symm
  | element head style fontSize children =>
      rw [Styled.isPlain, Bool.and_eq_true, Bool.and_eq_true, Bool.not_eq_true', decide_eq_true_eq]
        at plain
      obtain ⟨⟨unbroken, padding, border⟩, plain⟩ := plain
      rw [inlineWidth, if_neg (ne_true_of_eq_false unbroken)]
      dsimp only
      rw [padding, border, add_zero, add_zero, rational_sum, sum_inlineWidths children plain,
        Styled.leaves]

theorem sum_inlineWidths (nodes : List (Styled ℚ)) (plain : arePlain nodes = true) :
    (inlineWidths nodes).sum = measured (leavesOf nodes) := by
  cases nodes with
  | nil => rfl
  | cons node rest =>
      rw [arePlain, Bool.and_eq_true] at plain
      rw [inlineWidths, List.sum_cons, inlineWidth_eq_measured node plain.1,
        sum_inlineWidths rest plain.2, leavesOf, measured_append]

end

/-! ## The items of inline content -/

def Tally.reach (tally : Tally) : Reach := ⟨tally.stop + tally.room, tally.stop, tally.words⟩

namespace Flattening

structure Tells (tally : Tally) (run : Flattening ℚ) : Prop where
  reach : run.items.foldr (fun item reach => reach.add item) Reach.start = tally.reach
  blank : run.items.head?.any (·.kind == .blank) = tally.blank?.isSome
  unbroken : ∀ item ∈ run.items, item.kind ≠ .lineBreak
  nonneg : ∀ item ∈ run.items, 0 ≤ item.width

variable {tally : Tally} {run : Flattening ℚ} {byteWidth : ℚ}

/-- A blank is added, unless one is waiting already. -/
theorem Tells.push_blank (told : run.Tells tally) (pos : 0 < byteWidth) (lineHeight : ℚ)
    (owners : List Nat) :
    (run.push ⟨.blank, byteWidth, lineHeight, owners⟩).Tells (tally.withBlank byteWidth) := by
  rw [push, told.blank]
  cases waits : tally.blank? with
  | some width =>
      have kept : tally.withBlank byteWidth = tally := by
        rw [Tally.withBlank, waits, Option.getD_some, ← waits]
      rw [kept]
      exact told
  | none =>
      have reach : tally.reach.add ⟨.blank, byteWidth, lineHeight, owners⟩ =
          (tally.withBlank byteWidth).reach := by
        rw [Reach.add_of_blank rfl, Tally.reach, Tally.reach, Tally.room, Tally.room, Tally.withBlank,
          waits]
        dsimp only [Option.getD]
        rw [ite_self, add_zero]
        by_cases behind : 0 < tally.words
        · rw [if_pos behind, if_pos behind]
        · rw [if_neg behind, if_neg behind, add_zero]
      rw [← told.reach] at reach
      exact ⟨reach, rfl, List.forall_mem_cons.mpr ⟨ItemKind.noConfusion, told.unbroken⟩,
        List.forall_mem_cons.mpr ⟨le_of_lt pos, told.nonneg⟩⟩

theorem Tells.push (told : run.Tells tally) (pos : 0 < byteWidth) (lineHeight : ℚ)
    (owners : List Nat) (chunk : Option Nat) :
    (run.push (chunkItem byteWidth lineHeight owners chunk)).Tells
      (tally.addChunk byteWidth chunk) := by
  cases chunk with
  | none => exact told.push_blank pos lineHeight owners
  | some size =>
      have width : 0 ≤ byteWidth * (size : ℚ) := mul_nonneg (le_of_lt pos) (Nat.cast_nonneg size)
      have noRoom : (tally.addChunk byteWidth (some size)).room = 0 := ite_self 0
      have reach : tally.reach.add (chunkItem byteWidth lineHeight owners (some size)) =
          (tally.addChunk byteWidth (some size)).reach := by
        rw [Tally.reach, Tally.reach, noRoom, add_zero]
        rfl
      rw [← told.reach] at reach
      exact ⟨reach, rfl, List.forall_mem_cons.mpr ⟨ItemKind.noConfusion, told.unbroken⟩,
        List.forall_mem_cons.mpr ⟨width, told.nonneg⟩⟩

theorem Tells.foldl (told : run.Tells tally) (pos : 0 < byteWidth) (lineHeight : ℚ)
    (owners : List Nat) (list : List (Option Nat)) :
    ((list.map (chunkItem byteWidth lineHeight owners)).foldl Flattening.push run).Tells
      (list.foldl (Tally.addChunk byteWidth) tally) := by
  induction list generalizing run tally with
  | nil => exact told
  | cons chunk rest ih => exact ih (told.push pos lineHeight owners chunk)

mutual

theorem tells_add (owners : List Nat) (node : Styled ℚ) (plain : node.isPlain = true)
    {run : Flattening ℚ} {tally : Tally} (told : run.Tells tally) :
    (add owners node run).Tells (node.leaves.foldl Tally.addLeaf tally) := by
  cases node with
  | text content style fontSize =>
      have counted : Tells tally { run with next := run.next + 1 } :=
        ⟨told.reach, told.blank, told.unbroken, told.nonneg⟩
      exact counted.foldl (byteWidth_pos (.text content style fontSize)) _ _ _
  | element head style fontSize children =>
      rw [Styled.isPlain, Bool.and_eq_true, Bool.and_eq_true, Bool.not_eq_true'] at plain
      rw [add, if_neg (ne_true_of_eq_false plain.1.1)]
      exact tells_addAll _ children plain.2 ⟨told.reach, told.blank, told.unbroken, told.nonneg⟩

theorem tells_addAll (owners : List Nat) (nodes : List (Styled ℚ)) (plain : arePlain nodes = true)
    {run : Flattening ℚ} {tally : Tally} (told : run.Tells tally) :
    (addAll owners nodes run).Tells ((leavesOf nodes).foldl Tally.addLeaf tally) := by
  cases nodes with
  | nil => exact told
  | cons node rest =>
      rw [arePlain, Bool.and_eq_true] at plain
      rw [addAll, leavesOf, List.foldl_append]
      exact tells_addAll owners rest plain.2 (tells_add owners node plain.1 told)

end

theorem tells_addAll_nil (owners : List Nat) {run : List (Styled ℚ)} (plain : arePlain run = true) :
    (addAll owners run ⟨0, []⟩).Tells ((leavesOf run).foldl Tally.addLeaf Tally.start) := by
  have noRoom : Tally.start.room = 0 := if_neg (lt_irrefl 0)
  have origin : Reach.start = Tally.start.reach := by
    rw [Tally.reach, noRoom]
    exact congrArg (Reach.mk · 0 0) (add_zero (0 : ℚ)).symm
  exact tells_addAll owners run plain ⟨origin, rfl, List.forall_mem_nil _, List.forall_mem_nil _⟩

end Flattening

/-- The words of a run stand on the first line, when a parent sets it in a width. -/
def WordsOnOneLine (parent : Styled ℚ) (run : List (Styled ℚ)) (width : ℚ) : Prop :=
  ∀ placed ∈ (breakLines (lineHeight parent.style parent.fontSize) width (flatten run)).2,
    placed.item.kind = .word → placed.line = 0

instance (parent : Styled ℚ) (run : List (Styled ℚ)) (width : ℚ) :
    Decidable (WordsOnOneLine parent run width) :=
  inferInstanceAs (Decidable (∀ placed ∈ _, _ → _))

/-- Breaking settles the line of every item, and only the widths of blanks after it. -/
theorem forall_breakLines (accepts : Item ℚ → Nat → Prop) (strut width : ℚ)
    (items : List (Item ℚ)) :
    (∀ placed ∈ (breakLines strut width items).2, accepts placed.item placed.line) ↔
      ∀ placed ∈ (items.foldl (Breaking.add strut width) (Breaking.start strut)).placed,
        accepts placed.item placed.line := by
  rw [breakLines, List.forall_mem_map]
  refine forall_congr' fun placed => ?_
  rw [List.mem_reverse]
  dsimp only
  split <;> rfl

/-- In the width that its texts measure, each alone, the words of a run stand on one line unless the
texts are parted. -/
theorem wordsOnOneLine_measured {run : List (Styled ℚ)} (plain : arePlain run = true)
    (parent : Styled ℚ) :
    WordsOnOneLine parent run (measured (leavesOf run)) ↔ ¬ IsParted (shownTexts (leavesOf run)) := by
  have told := Flattening.tells_addAll_nil [] plain
  have tells := Tally.tells_foldl (leavesOf run)
  rw [WordsOnOneLine, flatten,
    forall_breakLines fun item line => item.kind = .word → line = 0,
    Breaking.words_on_one_line_iff _ _
    (fun item member => told.unbroken item (List.mem_reverse.mp member))
    (fun item member => told.nonneg item (List.mem_reverse.mp member)),
    List.foldl_reverse, told.reach]
  constructor
  · rintro fits parted
    obtain ⟨beyond, several⟩ := tells.parted parted
    exact fits.elim (not_le.mpr beyond) (not_le.mpr several)
  · exact fun joined => .inl (le_of_eq (tells.joined joined))

/-! ## The width of inline content -/

/-- A child of a node that is part of its lines, or of no line. -/
def Styled.isLinePart (child : Styled ℚ) : Bool :=
  child.isAbsolute || child.isInline && child.isPlain

theorem tag_of_isPlain {node : Styled ℚ} (plain : node.isPlain = true) :
    (node.tag == "br") = false := by
  cases node with
  | text content style fontSize => exact of_decide_eq_true rfl
  | element head style fontSize children =>
      rw [Styled.isPlain, Bool.and_eq_true, Bool.and_eq_true, Bool.not_eq_true'] at plain
      exact plain.1.1

theorem arePlain_inFlow {children : List (Styled ℚ)}
    (parts : ∀ child ∈ children, child.isLinePart = true) :
    arePlain (children.filter (!·.isAbsolute)) = true := by
  induction children with
  | nil => rfl
  | cons child rest ih =>
      obtain ⟨part, parts⟩ := List.forall_mem_cons.mp parts
      rw [List.filter_cons]
      cases absolute : child.isAbsolute with
      | true => exact ih parts
      | false =>
          rw [Styled.isLinePart, absolute, Bool.false_or, Bool.and_eq_true] at part
          exact Bool.and_eq_true_iff.mpr ⟨part.2, ih parts⟩

/-- Outside a row, children that make up lines make up a single one. -/
theorem foldl_extentsOf {children : List (Styled ℚ)}
    (parts : ∀ child ∈ children, child.isLinePart = true) (line : ℚ) :
    (extentsOf false children).foldl FlowExtent.add ⟨0, line⟩ =
      ⟨0, line + measured (leavesOf (children.filter (!·.isAbsolute)))⟩ := by
  induction children generalizing line with
  | nil => exact congrArg (FlowExtent.mk 0) (add_zero line).symm
  | cons child rest ih =>
      obtain ⟨part, parts⟩ := List.forall_mem_cons.mp parts
      rw [extentsOf, List.foldl_cons, List.filter_cons, FlowExtent.add]
      dsimp only
      cases absolute : child.isAbsolute with
      | true => exact ih parts line
      | false =>
          rw [Styled.isLinePart, absolute, Bool.false_or, Bool.and_eq_true] at part
          rw [if_neg Bool.false_ne_true, if_pos part.1,
            if_neg (ne_true_of_eq_false (tag_of_isPlain part.2)), part.1, Bool.not_false,
            Bool.and_true, if_pos rfl, if_pos rfl, ih parts, leavesOf, measured_append,
            inlineWidth_eq_measured child part.2, add_assoc]

def innerContentWidth (node : Styled ℚ) : ℚ :=
  maxContentWidth node - (node.padding 0.0).horizontal - node.border.horizontal

theorem innerContentWidth_eq {head : Html.Element} {style : Properties} {fontSize : ℚ}
    {children : List (Styled ℚ)}
    (auto : intrinsicWidth? (.element head style fontSize children) = none)
    (notRow : (Styled.element head style fontSize children).isRowContainer = false)
    (parts : ∀ child ∈ children, child.isLinePart = true) :
    innerContentWidth (.element head style fontSize children) =
      measured (leavesOf (children.filter (!·.isAbsolute))) := by
  have auto : intrinsicWidth? (.element head style fontSize []) = none := auto
  have notRow : (Styled.element head style fontSize []).isRowContainer = false := notRow
  have around : innerContentWidth (.element head style fontSize children) =
      maxContentWidth (.element head style fontSize children) -
        ((Styled.element head style fontSize []).padding 0.0).horizontal -
        (Styled.element head style fontSize []).border.horizontal := rfl
  rw [around, maxContentWidth, auto]
  dsimp only
  rw [contentWidth, notRow, if_neg Bool.false_ne_true, flowWidth, rational_zero,
    foldl_extentsOf parts, rational_max, zero_add, max_eq_right (measured_nonneg _),
    add_sub_right_comm, add_sub_cancel_right, add_sub_cancel_right]

def Styled.inFlow (node : Styled ℚ) : List (Styled ℚ) := node.children.filter (!·.isAbsolute)

/-- In the width that it asks for, the content of a block stands on one line exactly when its texts are
not parted. -/
theorem one_line_iff_not_parted {node : Styled ℚ} (auto : intrinsicWidth? node = none)
    (notRow : node.isRowContainer = false)
    (parts : ∀ child ∈ node.children, child.isLinePart = true) :
    WordsOnOneLine node node.inFlow (innerContentWidth node) ↔
      ¬ IsParted (shownTexts (leavesOf node.inFlow)) := by
  cases node with
  | text content style fontSize =>
      have joined : ¬ IsParted [] := by decide
      exact iff_of_true (List.forall_mem_nil _) joined
  | element head style fontSize children =>
      rw [innerContentWidth_eq auto notRow parts]
      exact wordsOnOneLine_measured (arePlain_inFlow parts) _

def joinedPage : Html.Document :=
  let markup : Text := "<div style=\"position:absolute\"><b>to</b>get her</div>"
  (Html.Document.parse markup).1

def Styled.isLineBlock (node : Styled ℚ) : Bool :=
  (intrinsicWidth? node).isNone && !node.isRowContainer && node.children.all Styled.isLinePart

theorem isLineBlock_parts {node : Styled ℚ} (block : node.isLineBlock = true) :
    intrinsicWidth? node = none ∧ node.isRowContainer = false ∧
      ∀ child ∈ node.children, child.isLinePart = true := by
  rw [Styled.isLineBlock, Bool.and_eq_true, Bool.and_eq_true, Option.isNone_iff_eq_none,
    Bool.not_eq_true', List.all_eq_true] at block
  exact ⟨block.1.1, block.1.2, block.2⟩

theorem one_line_of_joined_texts : ∃ node : Styled ℚ,
    (styledFreely ⟨[]⟩ joinedPage : Styled ℚ).children[0]? = some node ∧
    intrinsicWidth? node = none ∧ node.isRowContainer = false ∧
    (∀ child ∈ node.children, child.isLinePart = true) ∧
    shownTexts (leavesOf node.inFlow) = ["to", "get her"] ∧
    WordsOnOneLine node node.inFlow (innerContentWidth node) := by
  have reads : (styledFreely ⟨[]⟩ joinedPage : Styled ℚ).children[0]?.map (fun node =>
      (node.isLineBlock, shownTexts (leavesOf node.inFlow))) =
      some (true, [("to" : Text), "get her"]) := by decide +kernel
  obtain ⟨node, isChild, reads⟩ := Option.map_eq_some_iff.mp reads
  obtain ⟨block, texts⟩ := Prod.mk.inj reads
  obtain ⟨auto, notRow, parts⟩ := isLineBlock_parts block
  have joined : ¬ IsParted (shownTexts (leavesOf node.inFlow)) := by
    rw [texts]
    decide +kernel
  exact ⟨node, isChild, auto, notRow, parts, texts,
    (one_line_iff_not_parted auto notRow parts).mpr joined⟩

/-- An absolute block with two words in two texts, and a blank at the end of the first one. -/
def partedPage : Html.Document :=
  let markup : Text := "<div style=\"position:absolute\">a <b>b</b></div>"
  (Html.Document.parse markup).1

/-- The two words do not stand on one line. -/
theorem not_one_line_of_auto : ¬ ∀ node : Styled ℚ, intrinsicWidth? node = none →
    node.isRowContainer = false → (∀ child ∈ node.children, child.isLinePart = true) →
    WordsOnOneLine node node.inFlow (innerContentWidth node) := by
  intro oneLine
  have reads : (styledFreely ⟨[]⟩ partedPage : Styled ℚ).children[0]?.map (fun node =>
      (node.isLineBlock, decide (WordsOnOneLine node node.inFlow (innerContentWidth node)))) =
      some (true, false) := by decide +kernel
  obtain ⟨node, -, reads⟩ := Option.map_eq_some_iff.mp reads
  obtain ⟨block, broken⟩ := Prod.mk.inj reads
  obtain ⟨auto, notRow, parts⟩ := isLineBlock_parts block
  exact of_decide_eq_false broken (oneLine node auto notRow parts)

end SlidePress.Layout
