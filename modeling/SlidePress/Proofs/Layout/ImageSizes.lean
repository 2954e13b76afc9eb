import SlidePress.Proofs.Layout.SizedBoxes

/-! The sizes of images, in rounded arithmetic. An image is the only box that takes its sizes as they come,
from its placement, from its style, or from its natural sizes. If its paddings make nothing smaller, then
its style fixes no size below zero, its content asks for no such width, and it is given none where it
stands out of the flow. -/

namespace SlidePress.Layout

open Number (NotNegative)

/-- An image whose borders and paddings make nothing smaller. -/
structure Styled.IsSoundImage (node : Styled Number) : Prop where
  isImage : node.tag = "img"
  border : node.border.NotNegative
  keeps : node.KeepsSize

variable {node : Styled Number} {base : Number}

namespace Styled.IsSoundImage

theorem notText (sound : node.IsSoundImage) : node.isText = false := by
  have notImage : Html.textTag ≠ "img" := by decide
  cases node with
  | text content style fontSize => exact absurd sound.isImage notImage
  | element head style fontSize children => rfl

section Fixed

variable (sound : node.IsSoundImage)
include sound

theorem noneNegative_fixedWidth? (fair : base.NotNegative ∨ node.isAbsolute = true) :
    NoneNegative (node.fixedWidth? base) := by
  unfold Styled.fixedWidth?
  split
  · exact .none
  · split
    · exact .none
    · rename_i width _ least
      split
      · exact .some least
      · rename_i notBorderBox
        have padding := sound.keeps.resolve_left notBorderBox base fair
        have least : NotNegative width := least
        exact .some ((least.add padding.horizontal).add sound.border.horizontal)

theorem noneNegative_fixedHeight? (containing : Option Number) :
    NoneNegative (node.fixedHeight? containing) := by
  unfold Styled.fixedHeight?
  refine .ite .none (.ite .none ?_)
  split
  · exact .none
  · split
    · exact .none
    · rename_i height _ least
      split
      · exact .some least
      · rename_i notBorderBox
        have padding := sound.keeps.resolve_left notBorderBox 0.0 (.inl notNegative_zero)
        have least : NotNegative height := least
        exact .some ((least.add padding.vertical).add sound.border.vertical)

/-- An image asks for a width of its own, whatever is in it. -/
theorem exists_intrinsicWidth? : ∃ width, intrinsicWidth? node = some width ∧ width.NotNegative := by
  have natural : ∃ width, intrinsicWidth?.imageWidth? node = some width ∧ width.NotNegative := by
    rw [intrinsicWidth?.imageWidth?, if_pos (beq_iff_eq.mpr sound.isImage)]
    exact ⟨_, rfl, notNegative_positive _⟩
  unfold intrinsicWidth?
  split
  · rename_i width fixed
    split
    · exact natural
    · exact ⟨width, rfl, sound.noneNegative_fixedWidth? (.inl notNegative_zero) width fixed⟩
  · exact natural

theorem notNegative_maxContentWidth : (maxContentWidth node).NotNegative := by
  cases node with
  | text content style fontSize => cases sound.notText
  | element head style fontSize children =>
      have alone : (Styled.element head style fontSize []).IsSoundImage :=
        ⟨sound.isImage, sound.border, sound.keeps⟩
      obtain ⟨width, asked, notNegative⟩ := alone.exists_intrinsicWidth?
      rw [maxContentWidth, asked]
      exact notNegative

end Fixed

end Styled.IsSoundImage

theorem notNegative_imageSide (natural other : Number) {fixedOther : Number}
    (notNegative : fixedOther.NotNegative) : (imageSide natural other fixedOther).NotNegative := by
  unfold imageSide
  split
  · rename_i both
    exact (notNegative.mul (Number.notNegative_of_pos both.1)).div both.2
  · exact notNegative_positive _

structure Placement.Fair (node : Styled Number) (placement : Placement Number) : Prop where
  width : NoneNegative placement.forcedWidth
  height : NoneNegative placement.forcedHeight
  containing : placement.containingWidth.NotNegative ∨ node.isAbsolute = true

theorem notNegative_layoutImage (sound : node.IsSoundImage) {placement : Placement Number}
    (fair : placement.Fair node) :
    (layoutImage node placement).frame.width.NotNegative ∧
      (layoutImage node placement).frame.height.NotNegative := by
  have widths := fair.width.or (sound.noneNegative_fixedWidth? fair.containing)
  have heights := fair.height.or (sound.noneNegative_fixedHeight? placement.containingHeight)
  unfold layoutImage
  dsimp only
  generalize placement.forcedWidth.or (node.fixedWidth? placement.containingWidth) = width? at widths ⊢
  generalize placement.forcedHeight.or (node.fixedHeight? placement.containingHeight) = height?
    at heights ⊢
  cases width? with
  | none =>
      cases height? with
      | none => exact ⟨notNegative_positive _, notNegative_positive _⟩
      | some height =>
          have least := heights height rfl
          exact ⟨notNegative_imageSide _ _ least, least⟩
  | some width =>
      have least := widths width rfl
      cases height? with
      | none => exact ⟨least, notNegative_imageSide _ _ least⟩
      | some height => exact ⟨least, heights height rfl⟩

/-- An image is sized as an image, and has nothing inside. -/
theorem sized_layoutImage (isImage : node.tag = "img") (border : node.border.NotNegative)
    {placement : Placement Number} (fair : node.IsSoundImage → placement.Fair node) :
    (layoutImage node placement).Sized .image node := by
  refine Box.Sized.intro (fun keeps => ?_) fun _ _ isInner => nomatch isInner
  have sound : node.IsSoundImage := ⟨isImage, border, keeps⟩
  exact notNegative_layoutImage sound (fair sound)

/-! ## Sizes that parents give -/

section Given

variable (sound : node.IsSoundImage)
include sound

theorem notNegative_absoluteWidth (isAbsolute : node.isAbsolute = true) (containing : Rect Number)
    (margin : Edges Number) (left right : Option Number) :
    (absoluteWidth node containing margin left right).NotNegative := by
  unfold absoluteWidth
  split
  · rename_i width fixed
    exact sound.noneNegative_fixedWidth? (.inr isAbsolute) width fixed
  · exact notNegative_positive _
  · exact notNegative_min sound.notNegative_maxContentWidth (notNegative_positive _)

theorem noneNegative_absoluteHeight? (containing : Rect Number) (margin : Edges Number)
    (top bottom : Option Number) :
    NoneNegative (absoluteHeight? node containing margin top bottom) := by
  unfold absoluteHeight?
  split
  · rename_i height fixed
    exact .some (sound.noneNegative_fixedHeight? _ height fixed)
  · exact .some (notNegative_positive _)
  · exact .none

theorem noneNegative_columnWidth? (rules : FlexRules Number) {interior : Interior Number}
    (wide : interior.area.width.NotNegative) (margin : Edges Number) :
    NoneNegative (columnWidth? rules interior node margin) := by
  have fixed : NoneNegative (if node.isText then none else node.fixedWidth? interior.area.width) :=
    .ite .none (sound.noneNegative_fixedWidth? (.inl wide))
  unfold columnWidth?
  split
  · rename_i width isFixed
    exact .some (fixed width isFixed)
  · refine .ite (.some ?_) .none
    exact notNegative_min sound.notNegative_maxContentWidth (notNegative_positive _)

end Given

end SlidePress.Layout
