import SlidePress.Proofs.Layout.Drift
import SlidePress.Proofs.Layout.Likeness

/-! Lines of text that are moved. Where lines are broken depends on widths alone; the place of the
content area comes in when the lines are set. So a run that is set elsewhere has the same boxes,
moved, and the same height. -/

namespace SlidePress.Layout

variable {α : Type} [Scalar α]

def SetLine.carried (drift : Drift α) (line : SetLine α) : SetLine α :=
  { line with top := drift.below line.top }

def movedFrames (drift : Drift α) (frames : List (List Nat × Rect α)) : List (List Nat × Rect α) :=
  frames.map fun frame => (frame.1, drift.carry frame.2)

def joinOwned (owner : Nat) (found : Option (Rect α)) (entry : List Nat × Rect α) :
    Option (Rect α) :=
  if entry.1.contains owner then
    match found with
    | none => some entry.2
    | some around => some (joinRects around entry.2)
  else found

section Carried

variable {drift : Drift α} (rigid : drift.Rigid)
include rigid

theorem lineTops_carry (top : α) (lines : List (Line α)) :
    lineTops (drift.below top) lines = (lineTops top lines).map drift.below := by
  induction lines generalizing top with
  | nil => rfl
  | cons line rest ih =>
      rw [lineTops, lineTops, List.map_cons, ← rigid.below.add, ih]

theorem setLines_carry (align : Text) (content : Rect α) (lines : List (Line α)) :
    setLines align (drift.carry content) lines =
      (setLines align content lines).map (SetLine.carried drift) := by
  have tops : lineTops (drift.carry content).y lines =
      (lineTops content.y lines).map drift.below := lineTops_carry rigid content.y lines
  rw [setLines, setLines, tops, List.zip_map_right, List.map_map, List.map_map]
  rfl

theorem itemFrame_carry (content : Rect α) (lines : List (SetLine α)) (placed : Placed α) :
    itemFrame (drift.carry content) (lines.map (SetLine.carried drift)) placed =
      drift.carry (itemFrame content lines placed) := by
  rw [itemFrame, itemFrame, List.getElem?_map]
  cases lines[placed.line]? with
  | none => rfl
  | some line => simp [Drift.carry, SetLine.carried, rigid.across.add]

theorem joinOwned_carry (owner : Nat) (found : Option (Rect α)) (entry : List Nat × Rect α) :
    joinOwned owner (found.map drift.carry) (entry.1, drift.carry entry.2) =
      (joinOwned owner found entry).map drift.carry := by
  unfold joinOwned
  split
  · cases found with
    | none => rfl
    | some around => exact congrArg some (rigid.joinRects around entry.2)
  · rfl

theorem ownerFrame?_carry (frames : List (List Nat × Rect α)) (owner : Nat) :
    ownerFrame? (movedFrames drift frames) owner =
      (ownerFrame? frames owner).map drift.carry := by
  suffices go : ∀ found : Option (Rect α),
      (movedFrames drift frames).foldl (joinOwned owner) (found.map drift.carry) =
        (frames.foldl (joinOwned owner) found).map drift.carry from go none
  induction frames with
  | nil => exact fun _ => rfl
  | cons entry rest ih =>
      intro found
      rw [movedFrames, List.map_cons, List.foldl_cons, List.foldl_cons, joinOwned_carry rigid]
      exact ih (joinOwned owner found entry)

-- The second theorem needs the drift to be rigid through the first one only, which the linter does
-- not see.
set_option linter.unusedSectionVars false in
mutual

theorem inlineBox_carry (content : Rect α) (frames : List (List Nat × Rect α)) (node : Styled α)
    (number : Nat) :
    inlineBox (drift.carry content) (movedFrames drift frames) node number =
      ((inlineBox content frames node number).1.drifted drift,
        (inlineBox content frames node number).2) := by
  have point : ∀ owner, ((ownerFrame? (movedFrames drift frames) owner).getD
      ⟨(drift.carry content).x, (drift.carry content).y, 0.0, 0.0⟩) =
        drift.carry ((ownerFrame? frames owner).getD ⟨content.x, content.y, 0.0, 0.0⟩) := by
    intro owner
    rw [ownerFrame?_carry rigid]
    cases ownerFrame? frames owner <;> rfl
  cases node with
  | text text style fontSize =>
      rw [inlineBox, inlineBox, point, Box.drifted_eq, List.map_nil]
  | element head style fontSize children =>
      rw [inlineBox, inlineBox, point, inlineBoxes_carry content frames children (number + 1),
        Box.drifted_eq]

theorem inlineBoxes_carry (content : Rect α) (frames : List (List Nat × Rect α))
    (nodes : List (Styled α)) (number : Nat) :
    inlineBoxes (drift.carry content) (movedFrames drift frames) nodes number =
      ((inlineBoxes content frames nodes number).1.map (Box.drifted drift),
        (inlineBoxes content frames nodes number).2) := by
  cases nodes with
  | nil => rw [inlineBoxes, inlineBoxes, List.map_nil]
  | cons node rest =>
      rw [inlineBoxes, inlineBoxes, inlineBox_carry content frames node number]
      dsimp only
      rw [inlineBoxes_carry content frames rest (inlineBox content frames node number).2]
      rfl

end

/-- A run that is set elsewhere has its boxes moved there, and the same height. Of the node around it
counts only what does not place it. -/
theorem layoutInline_carry {parent other : Styled α} (akin : parent.Akin other) (run : List (Styled α))
    (content : Rect α) :
    layoutInline other run (drift.carry content) =
      ⟨(layoutInline parent run content).boxes.map (Box.drifted drift),
        (layoutInline parent run content).height⟩ := by
  have align : parent.value "text-align" = other.value "text-align" := akin.value (by decide)
  have width : (drift.carry content).width = content.width := rfl
  unfold layoutInline
  dsimp only
  rw [← akin.lineHeight, ← align, width]
  generalize breakLines _ content.width (flatten run) = broken
  obtain ⟨lines, placed⟩ := broken
  have frames : (placed.map fun placed => (placed.item.owners,
      itemFrame (drift.carry content)
        (setLines (parent.value "text-align") (drift.carry content) lines) placed)) =
      movedFrames drift (placed.map fun placed => (placed.item.owners,
        itemFrame content (setLines (parent.value "text-align") content lines)
          placed)) := by
    rw [movedFrames, List.map_map, setLines_carry rigid]
    exact List.map_congr_left fun placed _ =>
      congrArg (Prod.mk _) (itemFrame_carry rigid content _ placed)
  dsimp only
  rw [frames, inlineBoxes_carry rigid]

end Carried

/-- Of the node around a run counts only what does not place it. -/
theorem layoutInline_eq_of_akin {parent other : Styled α} (akin : parent.Akin other)
    (run : List (Styled α)) (content : Rect α) :
    layoutInline other run content = layoutInline parent run content := by
  refine (layoutInline_carry .none akin run content).trans ?_
  simp [funext Box.drifted_none]

end SlidePress.Layout
