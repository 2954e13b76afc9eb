import SlidePress.Proofs.Style.ShadowLists
import SlidePress.Slide.Shape

/-! Three readings of one style. Whether a node is a shape, which of its properties only a shape can
show, and what the shape looks like are read from the same values: a fill, four borders and a list of
shadows. The readings agree, so that no shape is without anything to draw and nothing that could be
drawn goes unnoticed. -/

namespace SlidePress.Slide

open Source (Node)
open Style

/-! ## Outlines by their sides -/

def Outline.has (outline : Outline) : Side → Bool
  | .top => outline.top
  | .right => outline.right
  | .bottom => outline.bottom
  | .left => outline.left

/-- A border that shows makes an outline, if there is none yet, and marks its own side. -/
theorem addSide_marks (style : Snapshot) (outline : Option Outline) (side : Side) :
    (addSide style outline side).isSome = (outline.isSome || (style.borderSide side).isVisible) ∧
      ∀ other, (addSide style outline side).any (·.has other) =
        (outline.any (·.has other) || (other == side && (style.borderSide side).isVisible)) := by
  rw [addSide]
  dsimp only
  split
  · rename_i visible
    refine ⟨by rw [visible, Bool.or_true]; rfl, fun other => ?_⟩
    rw [visible]
    cases outline <;> cases side <;> cases other <;> simp [Outline.has]
  · rename_i hidden
    rw [Bool.not_eq_true] at hidden
    simp [hidden]

theorem foldl_addSide_marks (style : Snapshot) (sides : List Side) (outline : Option Outline) :
    (sides.foldl (addSide style) outline).isSome =
        (outline.isSome || sides.any fun side => (style.borderSide side).isVisible) ∧
      ∀ side, (sides.foldl (addSide style) outline).any (·.has side) =
        (outline.any (·.has side) || (sides.contains side && (style.borderSide side).isVisible)) := by
  induction sides generalizing outline with
  | nil => simp
  | cons first rest ih =>
      obtain ⟨exist, marks⟩ := ih (addSide style outline first)
      obtain ⟨existFirst, marksFirst⟩ := addSide_marks style outline first
      refine ⟨?_, fun side => ?_⟩
      · rw [List.foldl_cons, exist, existFirst, List.any_cons, Bool.or_assoc]
      · rw [List.foldl_cons, marks, marksFirst, Bool.or_assoc, List.contains_cons]
        by_cases same : side = first
        · rw [same, beq_self_eq_true]
          cases (style.borderSide first).isVisible <;> simp
        · rw [beq_false_of_ne same, Bool.false_and, Bool.false_or, Bool.false_or]

/-- There is an outline if some border shows, and it runs along the sides of those that do. -/
theorem outlineOf_marks (style : Snapshot) :
    (outlineOf style).isSome = hasVisibleBorder style ∧
      ∀ side, (outlineOf style).any (·.has side) = (style.borderSide side).isVisible := by
  obtain ⟨exist, marks⟩ := foldl_addSide_marks style Side.all none
  refine ⟨exist, fun side => (marks side).trans ?_⟩
  cases side <;> rfl

/-! ## The readings of a node -/

/-- Each property is listed exactly when the style sets it so that it shows. -/
theorem mem_shapeProperties (node : Node) :
    (Text.ofString "background-color" ∈ shapeProperties node ↔
      (visibleFill? node.style).isSome = true) ∧
    (Text.ofString "border" ∈ shapeProperties node ↔ hasVisibleBorder node.style = true) ∧
    (Text.ofString "box-shadow" ∈ shapeProperties node ↔ hasOuterShadow node.style = true) := by
  rw [shapeProperties]
  generalize (visibleFill? node.style).isSome = filled
  generalize hasVisibleBorder node.style = bordered
  generalize hasOuterShadow node.style = shadowed
  generalize hasRadius node.style = rounded
  revert filled bordered shadowed rounded
  decide +kernel

theorem shapeProperties_eq_nil_iff (node : Node) :
    shapeProperties node = [] ↔
      (visibleFill? node.style).isSome = false ∧ hasVisibleBorder node.style = false ∧
        hasOuterShadow node.style = false ∧ hasRadius node.style = false := by
  simp [shapeProperties]

def shadowEntriesOf (node : Node) : List Text := shadowEntries (node.style.get "box-shadow")

/-- The shadow that an entry of a node casts, if it can be read. -/
def shadowAt? (node : Node) (entry : Text) : Option BoxShadow :=
  BoxShadow.parse? node.style.textColor entry

/-- The shadow of the first entry that can be read and is no inner shadow. -/
def CastsFirst (node : Node) (shadow : Shadow) : Prop :=
  ∃ before entry after found, shadowEntriesOf node = before ++ entry :: after ∧
    shadowAt? node entry = some found ∧ asksInset entry = false ∧
    (∀ other ∈ before, (shadowAt? node other).isSome = true → asksInset other = true) ∧
    shadow = shadowOf found

/-- How many entries can be read as inner shadows. -/
def innerShadows (node : Node) : Nat :=
  (shadowEntriesOf node).countP fun entry => (shadowAt? node entry).isSome && asksInset entry

structure ReadingsAgree (node : Node) : Prop where
  /-- A node is a shape if one of its properties asks for one, or a gradient does. -/
  shaped : hasShapeStyle node = true ↔
    shapeProperties node ≠ [] ∨ isGradient (node.style.get "background-image") = true
  fill : (shapeStyle node).fill.isSome = true ↔
    Text.ofString "background-color" ∈ shapeProperties node
  outline : (shapeStyle node).outline.isSome = true ↔ Text.ofString "border" ∈ shapeProperties node
  shadow : (shapeStyle node).shadow.isSome = true ↔
    Text.ofString "box-shadow" ∈ shapeProperties node
  /-- The outline runs along the sides whose borders show, and no other. -/
  sides : ∀ side, (shapeStyle node).outline.any (·.has side) =
    (node.style.borderSide side).isVisible
  cast : ∀ shadow, (shapeStyle node).shadow = some shadow ↔ CastsFirst node shadow
  /-- A background image is dropped first, if it comes from a file, and then each inner shadow. -/
  dropped : droppedStyle node =
    (if isUrlImage (node.style.get "background-image") then
      ["background image " ++ node.style.get "background-image"] else []) ++
    List.replicate (innerShadows node) (Text.ofString "inset box-shadow")

theorem any_shadowAt? (node : Node) (entry : Text) (inner : Bool) :
    (shadowAt? node entry).any (fun shadow => shadow.inset == inner) =
      ((shadowAt? node entry).isSome && asksInset entry == inner) := by
  cases read : shadowAt? node entry with
  | none => rfl
  | some shadow => rw [Option.any_some, BoxShadow.inset_parse? read, Option.isSome_some, Bool.true_and]

theorem shadows_eq (node : Node) :
    BoxShadow.parseList node.style.textColor (node.style.get "box-shadow") =
      (shadowEntriesOf node).filterMap (shadowAt? node) :=
  BoxShadow.parseList_eq_filterMap _ _

theorem shadow_eq_some_iff (node : Node) (shadow : Shadow) :
    (shapeStyle node).shadow = some shadow ↔ CastsFirst node shadow := by
  have outer : ∀ entry, (shadowAt? node entry).any (fun found => !found.inset) =
      ((shadowAt? node entry).isSome && !asksInset entry) := by
    intro entry
    simpa using any_shadowAt? node entry false
  have first : (shapeStyle node).shadow =
      (((shadowEntriesOf node).find? fun entry =>
        (shadowAt? node entry).isSome && !asksInset entry).bind (shadowAt? node)).map shadowOf := by
    rw [shapeStyle, shadows_eq, List.find?_filterMap]
    simp only [outer]
  have skipped : ∀ entry, (!((shadowAt? node entry).isSome && !asksInset entry)) = true ↔
      ((shadowAt? node entry).isSome = true → asksInset entry = true) := by
    intro entry
    cases (shadowAt? node entry).isSome <;> cases asksInset entry <;> simp
  rw [first, Option.map_eq_some_iff]
  constructor
  · rintro ⟨found, isFound, rfl⟩
    obtain ⟨entry, isFirst, read⟩ := Option.bind_eq_some_iff.mp isFound
    obtain ⟨passes, before, after, split, none⟩ := List.find?_eq_some_iff_append.mp isFirst
    refine ⟨before, entry, after, found, split, read, by simpa [read] using passes, ?_, rfl⟩
    exact fun other member => (skipped other).mp (none other member)
  · rintro ⟨before, entry, after, found, split, read, isOuter, none, rfl⟩
    refine ⟨found, Option.bind_eq_some_iff.mpr ⟨entry, ?_, read⟩, rfl⟩
    refine List.find?_eq_some_iff_append.mpr ⟨by simp [read, isOuter], before, after, split, ?_⟩
    exact fun other member => (skipped other).mpr (none other member)

theorem length_filter_inset (node : Node) :
    (((shadowEntriesOf node).filterMap (shadowAt? node)).filter (·.inset)).length =
      innerShadows node := by
  have inner : ∀ entry, (shadowAt? node entry).any (fun found => found.inset) =
      ((shadowAt? node entry).isSome && asksInset entry) := by
    intro entry
    simpa using any_shadowAt? node entry true
  rw [← List.countP_eq_length_filter, List.countP_filterMap, innerShadows]
  congr 1
  funext entry
  rw [← inner]
  cases shadowAt? node entry <;> rfl

/-- Whatever the style of a node says, the three readings of it agree. -/
theorem readings_agree (node : Node) : ReadingsAgree node := by
  obtain ⟨listsFill, listsBorder, listsShadow⟩ := mem_shapeProperties node
  obtain ⟨outlined, sides⟩ := outlineOf_marks node.style
  refine ⟨?_, listsFill.symm, ?_, ?_, sides, shadow_eq_some_iff node, ?_⟩
  · rw [Ne, shapeProperties_eq_nil_iff]
    simp only [hasShapeStyle, Bool.or_eq_true, ← Bool.not_eq_true]
    grind
  · rw [listsBorder, ← outlined]
    rfl
  · rw [listsShadow, hasOuterShadow, shapeStyle, Option.isSome_map, List.find?_isSome,
      List.any_eq_true]
  · rw [droppedStyle, shadows_eq, List.map_const', length_filter_inset]

end SlidePress.Slide
