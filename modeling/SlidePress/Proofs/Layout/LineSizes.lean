import SlidePress.Proofs.Layout.FilledLines
import SlidePress.Proofs.Layout.Lengths
import SlidePress.Proofs.Layout.MovedLines

/-! The sizes of boxes in lines, in rounded arithmetic. Nothing on a line has a width below zero, and no
line is lower than its strut, the line height of the block around it. The least rectangle around several
rectangles keeps both, as what is added to does not become less when it is rounded. -/

namespace SlidePress.Layout

open Number (NotNegative)

/-! ## Items -/

section Items

def NoneNarrow (items : List (Item Number)) : Prop := ∀ item ∈ items, item.width.NotNegative

theorem notNegative_byteWidth (node : Styled Number) : node.byteWidth.NotNegative :=
  notNegative_max (by decide +kernel) _

theorem notNegative_chunkItem {byteWidth : Number} (notNegative : byteWidth.NotNegative)
    (lineHeight : Number) (owners : List Nat) (chunk : Option Nat) :
    (Flattening.chunkItem byteWidth lineHeight owners chunk).width.NotNegative := by
  cases chunk with
  | none => exact notNegative
  | some size => exact notNegative.mul (Number.notNegative_ofNat size)

theorem noneNarrow_push {run : Flattening Number} (wide : NoneNarrow run.items) {item : Item Number}
    (isWide : item.width.NotNegative) : NoneNarrow (run.push item).items := by
  unfold Flattening.push
  split
  · exact wide
  · exact List.forall_mem_cons.mpr ⟨isWide, wide⟩

theorem noneNarrow_flatten (run : List (Styled Number)) : NoneNarrow (flatten run) := by
  have wide : NoneNarrow (flatten run).reverse := by
    refine Flattening.kept_flatten (fun _ _ ofNode wide => noneNarrow_push wide ?_)
      (List.forall_mem_nil _) run
    cases ofNode with
    | chunk node lineHeight owners chunk =>
        exact notNegative_chunkItem (notNegative_byteWidth node) lineHeight owners chunk
    | lineBreak lineHeight owners => exact notNegative_zero
  exact fun item member => wide item (List.mem_reverse.mpr member)

end Items

/-! ## Lines -/

section Lines

variable {strut width : Number} {state : Breaking Number} {item : Item Number}

/-- What is kept while lines are filled: items have widths, stand on a line that was begun, and no line
is lower than its strut. -/
structure Breaking.Sound (strut : Number) (state : Breaking Number) : Prop where
  widths : ∀ placed ∈ state.placed, placed.width.NotNegative
  within : ∀ placed ∈ state.placed, placed.line ≤ state.earlier.length
  heights : strut.NotNegative → ∀ line ∈ state.current :: state.earlier, line.height.NotNegative

namespace Breaking.Sound

theorem start (strut : Number) : (Breaking.start strut).Sound strut where
  widths := List.forall_mem_nil _
  within := List.forall_mem_nil _
  heights notNegative := List.forall_mem_singleton.mpr notNegative

theorem newLine (sound : state.Sound strut) : (state.newLine strut).Sound strut where
  widths := sound.widths
  within placed member := Nat.le_succ_of_le (sound.within placed member)
  heights notNegative := List.forall_mem_cons.mpr ⟨notNegative, sound.heights notNegative⟩

theorem place (sound : state.Sound strut) (item : Item Number) {width : Number}
    (notNegative : width.NotNegative) : (state.place item width).Sound strut where
  widths := List.forall_mem_cons.mpr ⟨notNegative, sound.widths⟩
  within := List.forall_mem_cons.mpr ⟨Nat.le_refl _, sound.within⟩
  heights := sound.heights

theorem raise (sound : state.Sound strut) (item : Item Number) : (state.raise item).Sound strut where
  widths := sound.widths
  within := sound.within
  heights notNegative := by
    obtain ⟨current, earlier⟩ := List.forall_mem_cons.mp (sound.heights notNegative)
    exact List.forall_mem_cons.mpr ⟨notNegative_max current _, earlier⟩

/-- Where a line goes on, how long it is and whether it holds a word is of no concern. -/
theorem congr {next : Breaking Number} (sound : state.Sound strut) (placed : next.placed = state.placed)
    (earlier : next.earlier = state.earlier) (height : next.current.height = state.current.height) :
    next.Sound strut where
  widths := placed ▸ sound.widths
  within := by
    rw [placed, earlier]
    exact sound.within
  heights notNegative := by
    obtain ⟨current, others⟩ := List.forall_mem_cons.mp (sound.heights notNegative)
    rw [earlier]
    exact List.forall_mem_cons.mpr ⟨height ▸ current, others⟩

theorem setWord (sound : state.Sound strut) (isWide : item.width.NotNegative) :
    (state.setWord item).Sound strut :=
  ((sound.place item isWide).raise item).congr rfl rfl rfl

theorem setBlank (sound : state.Sound strut) (isWide : item.width.NotNegative) :
    (state.setBlank item).Sound strut := by
  unfold Breaking.setBlank
  split
  · exact (sound.place item isWide).congr rfl rfl rfl
  · exact sound.place item notNegative_zero

/-- The step. -/
theorem add (sound : state.Sound strut) (isWide : item.width.NotNegative) :
    (state.add strut width item).Sound strut := by
  unfold Breaking.add
  split
  · exact ((sound.place item isWide).raise item).newLine
  · exact sound.setBlank isWide
  · split
    · exact sound.newLine.setWord isWide
    · exact sound.setWord isWide

/-- The run. -/
theorem foldl (width : Number) {items : List (Item Number)} (wide : NoneNarrow items) (sound : state.Sound strut) :
    (items.foldl (Breaking.add strut width) state).Sound strut := by
  induction items generalizing state with
  | nil => exact sound
  | cons item rest ih =>
      obtain ⟨first, others⟩ := List.forall_mem_cons.mp wide
      exact ih others (sound.add first)

end Breaking.Sound

theorem sound_breakLines (strut width : Number) {items : List (Item Number)} (wide : NoneNarrow items) :
    (∀ placed ∈ (breakLines strut width items).2, placed.width.NotNegative ∧
      placed.line < (breakLines strut width items).1.length) ∧
    (strut.NotNegative → ∀ line ∈ (breakLines strut width items).1, line.height.NotNegative) := by
  have sound := (Breaking.Sound.start strut).foldl width wide
  unfold breakLines
  dsimp only
  generalize items.foldl (Breaking.add strut width) (Breaking.start strut) = state at sound ⊢
  refine ⟨fun placed member => ?_, fun notNegative line member =>
    sound.heights notNegative line (List.mem_reverse.mp member)⟩
  obtain ⟨before, isBefore, rfl⟩ := List.mem_map.mp member
  have inside := List.mem_reverse.mp isBefore
  have begun : before.line < state.lines.length := by
    rw [Breaking.lines, List.length_reverse, List.length_cons]
    exact Nat.lt_succ_of_le (sound.within before inside)
  split
  · exact ⟨notNegative_zero, begun⟩
  · exact ⟨sound.widths before inside, begun⟩

end Lines

/-! ## Frames -/

section Frames

structure InLine (strut : Number) (frame : Rect Number) : Prop where
  width : frame.width.NotNegative
  height : strut.NotNegative → frame.height.NotNegative

theorem length_lineTops (lines : List (Line Number)) (top : Number) :
    (lineTops top lines).length = lines.length := by
  induction lines generalizing top with
  | nil => rfl
  | cons line rest ih => exact congrArg (· + 1) (ih _)

theorem getElem?_setLines (align : Text) (content : Rect Number) {lines : List (Line Number)}
    {index : Nat} (within : index < lines.length) :
    ∃ set line, (setLines align content lines)[index]? = some set ∧ line ∈ lines ∧
      set.height = line.height := by
  have long : (setLines align content lines).length = lines.length := by
    rw [setLines, List.length_map, List.length_zip, length_lineTops, Nat.min_self]
  have begun : index < (setLines align content lines).length := long.symm ▸ within
  obtain ⟨⟨line, top⟩, member, same⟩ := List.mem_map.mp (List.getElem_mem begun)
  refine ⟨_, line, List.getElem?_eq_getElem begun, (List.of_mem_zip member).1, ?_⟩
  rw [← same]

theorem inLine_itemFrame {strut : Number} (content : Rect Number) (align : Text)
    {lines : List (Line Number)} {placed : Placed Number} (isWide : placed.width.NotNegative)
    (within : placed.line < lines.length)
    (heights : strut.NotNegative → ∀ line ∈ lines, line.height.NotNegative) :
    InLine strut (itemFrame content (setLines align content lines) placed) := by
  obtain ⟨set, line, found, member, height⟩ := getElem?_setLines align content within
  rw [itemFrame, found]
  refine ⟨isWide, fun notNegative => ?_⟩
  dsimp only
  rw [height]
  exact heights notNegative line member

/-- From the first start of two spans to the last end is not below zero. -/
theorem notNegative_span (start other : Number) {size sizeToo : Number} (notNegative : size.NotNegative)
    (notNegativeToo : sizeToo.NotNegative) :
    NotNegative (Scalar.max (start + size) (other + sizeToo) - Scalar.min start other) := by
  refine Number.notNegative_sub fun less => ?_
  have first := notNegative.not_add_lt start
  have second := notNegativeToo.not_add_lt other
  unfold Scalar.max Scalar.min at less
  split at less
  · rename_i longer
    split at less
    · exact second less
    · exact first (Number.lt_trans longer less)
  · split at less
    · exact first (Number.lt_trans less ‹_›)
    · exact first less

theorem InLine.join {strut : Number} {first second : Rect Number} (inLine : InLine strut first)
    (inLineToo : InLine strut second) : InLine strut (joinRects first second) where
  width := notNegative_span first.x second.x inLine.width inLineToo.width
  height notNegative :=
    notNegative_span first.y second.y (inLine.height notNegative) (inLineToo.height notNegative)

theorem inLine_joinOwned {strut : Number} (owner : Nat) {found : Option (Rect Number)}
    (inLine : ∀ frame ∈ found, InLine strut frame) {entry : List Nat × Rect Number}
    (inLineToo : InLine strut entry.2) : ∀ frame ∈ joinOwned owner found entry, InLine strut frame := by
  unfold joinOwned
  split
  · cases found with
    | none =>
        rintro frame ⟨⟩
        exact inLineToo
    | some around =>
        rintro frame ⟨⟩
        exact (inLine around rfl).join inLineToo
  · exact inLine

theorem inLine_ownerFrame? {strut : Number} {frames : List (List Nat × Rect Number)}
    (inLine : ∀ entry ∈ frames, InLine strut entry.2) (owner : Nat) :
    ∀ frame ∈ ownerFrame? frames owner, InLine strut frame := by
  suffices go : ∀ found : Option (Rect Number), (∀ frame ∈ found, InLine strut frame) →
      ∀ frame ∈ frames.foldl (joinOwned owner) found, InLine strut frame from go none (by simp)
  induction frames with
  | nil => exact fun _ inLine => inLine
  | cons entry rest ih =>
      obtain ⟨first, others⟩ := List.forall_mem_cons.mp inLine
      intro found sofar
      exact ih others _ (inLine_joinOwned owner sofar first)

def runFrames {α : Type} [Scalar α] (parent : Styled α) (run : List (Styled α)) (content : Rect α) :
    List (List Nat × Rect α) :=
  let broken := breakLines (lineHeight parent.style parent.fontSize) content.width (flatten run)
  let settled := setLines (parent.value "text-align") content broken.1
  broken.2.map fun placed => (placed.item.owners, itemFrame content settled placed)

theorem inLine_runFrames (parent : Styled Number) (run : List (Styled Number)) (content : Rect Number) :
    ∀ entry ∈ runFrames parent run content,
      InLine (lineHeight parent.style parent.fontSize) entry.2 := by
  obtain ⟨sound, heights⟩ := sound_breakLines (lineHeight parent.style parent.fontSize) content.width
    (noneNarrow_flatten run)
  intro entry member
  obtain ⟨placed, isPlaced, rfl⟩ := List.mem_map.mp member
  obtain ⟨isWide, within⟩ := sound placed isPlaced
  exact inLine_itemFrame content _ isWide within heights

theorem boxes_layoutInline {α : Type} [Scalar α] (parent : Styled α) (run : List (Styled α))
    (content : Rect α) :
    (layoutInline parent run content).boxes =
      (inlineBoxes content (runFrames parent run content) run 0).1 := rfl

end Frames

end SlidePress.Layout
