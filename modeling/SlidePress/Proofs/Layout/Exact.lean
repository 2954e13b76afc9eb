import Mathlib.Algebra.Order.Ring.Rat
import SlidePress.Layout.Box

/-! Exact arithmetic, and boxes that are moved in it. Where sums can be regrouped and adding the same
to both sides keeps their order, distances do not change when everything is moved. Rounded numbers
are not like this; rational numbers are. -/

namespace SlidePress.Layout

variable {α : Type} [Scalar α]

/-- Scalars with which can be counted exactly. -/
class Exact (α : Type) [Scalar α] : Prop where
  add_assoc : ∀ first second third : α, first + second + third = first + (second + third)
  add_comm : ∀ first second : α, first + second = second + first
  add_zero : ∀ scalar : α, scalar + 0.0 = scalar
  add_neg : ∀ scalar : α, scalar + -scalar = 0.0
  sub_eq : ∀ first second : α, first - second = first + -second
  add_lt_add_iff : ∀ first second shift : α, first + shift < second + shift ↔ first < second
  eq_of_beq : ∀ first second : α, (first == second) = true → first = second
  /-- The digit zero stands for zero, and zero is a number. -/
  ofNumeral_zero : Scalar.ofNumeral (.decimal false 0 0) = (0.0 : α)
  isFinite_zero : Scalar.isFinite (0.0 : α) = true
  isNumber_zero : Scalar.isNumber (0.0 : α) = true

namespace Exact

variable [Exact α] (first second shift : α)

theorem zero_add : (0.0 : α) + shift = shift := by
  rw [add_comm, add_zero]

theorem add_right_comm : first + second + shift = first + shift + second := by
  rw [add_assoc, add_comm second, ← add_assoc]

/-- A difference moves with what is subtracted from. -/
theorem add_sub_right_comm : first + shift - second = first - second + shift := by
  rw [sub_eq, sub_eq, add_right_comm]

/-- A distance stays the same when both ends are moved. -/
theorem add_sub_add_right : first + shift - (second + shift) = first - second := by
  have cancels : -(second + shift) + shift = -second := by
    calc -(second + shift) + shift
        = -(second + shift) + shift + (second + -second) := by rw [add_neg, add_zero]
      _ = second + shift + -(second + shift) + -second := by
          rw [← add_assoc, add_assoc _ shift second, add_comm shift second, add_comm (-_) (_ + _)]
      _ = -second := by rw [add_neg, zero_add]
  rw [sub_eq, sub_eq, add_assoc, add_comm shift, cancels]

end Exact

/-! ## Moving -/

structure Displacement (α : Type) where
  right : α
  down : α

namespace Displacement

instance : Add (Displacement α) :=
  ⟨fun first second => ⟨first.right + second.right, first.down + second.down⟩⟩

def none : Displacement α := ⟨0.0, 0.0⟩

variable [Exact α]

theorem add_none (shift : Displacement α) : shift + none = shift := by
  obtain ⟨right, down⟩ := shift
  change Displacement.mk (right + 0.0) (down + 0.0) = _
  rw [Exact.add_zero, Exact.add_zero]

theorem add_comm (first second : Displacement α) : first + second = second + first := by
  change Displacement.mk (first.right + second.right) (first.down + second.down) = _
  rw [Exact.add_comm first.right, Exact.add_comm first.down]
  rfl

end Displacement

def movedRect (shift : Displacement α) (rect : Rect α) : Rect α :=
  { rect with x := rect.x + shift.right, y := rect.y + shift.down }

def Box.movedBy (shift : Displacement α) (box : Box α) : Box α := box.mapFrames (movedRect shift)

section Frames

variable {α : Type} (change after : Rect α → Rect α)

theorem mapFramesAll_eq_map (boxes : List (Box α)) :
    mapFramesAll change boxes = boxes.map (Box.mapFrames change) := by
  induction boxes with
  | nil => rw [mapFramesAll, List.map_nil]
  | cons box rest ih => rw [mapFramesAll, ih, List.map_cons]

theorem Box.mapFrames_eq (box : Box α) :
    box.mapFrames change = ⟨change box.frame, box.tag, box.text, box.attributes, box.style,
      box.children.map (Box.mapFrames change)⟩ := by
  cases box with
  | mk frame tag text attributes style children => rw [Box.mapFrames, mapFramesAll_eq_map]

mutual

theorem mapFrames_mapFrames (box : Box α) :
    (box.mapFrames change).mapFrames after = box.mapFrames (after ∘ change) := by
  cases box with
  | mk frame tag text attributes style children =>
      rw [Box.mapFrames, Box.mapFrames, Box.mapFrames, mapFramesAll_mapFramesAll children]
      rfl

theorem mapFramesAll_mapFramesAll (boxes : List (Box α)) :
    mapFramesAll after (mapFramesAll change boxes) = mapFramesAll (after ∘ change) boxes := by
  cases boxes with
  | nil => rw [mapFramesAll, mapFramesAll, mapFramesAll]
  | cons box rest =>
      rw [mapFramesAll, mapFramesAll, mapFramesAll, mapFrames_mapFrames box,
        mapFramesAll_mapFramesAll rest]

end

mutual

theorem mapFrames_id (box : Box α) : box.mapFrames id = box := by
  cases box with
  | mk frame tag text attributes style children =>
      rw [Box.mapFrames, mapFramesAll_id children]
      rfl

theorem mapFramesAll_id (boxes : List (Box α)) : mapFramesAll id boxes = boxes := by
  cases boxes with
  | nil => rw [mapFramesAll]
  | cons box rest => rw [mapFramesAll, mapFrames_id box, mapFramesAll_id rest]

end

end Frames

section Moving

variable [Exact α]

theorem movedRect_movedRect (first second : Displacement α) (rect : Rect α) :
    movedRect second (movedRect first rect) = movedRect (first + second) rect := by
  unfold movedRect
  dsimp only
  rw [Exact.add_assoc, Exact.add_assoc]
  rfl

theorem movedRect_none (rect : Rect α) : movedRect .none rect = rect := by
  obtain ⟨x, y, width, height⟩ := rect
  unfold movedRect Displacement.none
  rw [Exact.add_zero, Exact.add_zero]

theorem movedRect_comm (first second : Displacement α) (rect : Rect α) :
    movedRect second (movedRect first rect) = movedRect first (movedRect second rect) := by
  rw [movedRect_movedRect, movedRect_movedRect, Displacement.add_comm]

namespace Box

omit [Exact α] in
theorem frame_movedBy (shift : Displacement α) (box : Box α) :
    (box.movedBy shift).frame = movedRect shift box.frame := by
  rw [movedBy, mapFrames_eq]

theorem movedBy_movedBy (first second : Displacement α) (box : Box α) :
    (box.movedBy first).movedBy second = box.movedBy (first + second) := by
  rw [movedBy, movedBy, mapFrames_mapFrames]
  exact congrArg (box.mapFrames ·) (funext (movedRect_movedRect first second))

theorem movedBy_none (box : Box α) : box.movedBy .none = box := by
  rw [movedBy, funext movedRect_none]
  exact mapFrames_id box

theorem movedBy_comm (first second : Displacement α) (box : Box α) :
    (box.movedBy first).movedBy second = (box.movedBy second).movedBy first := by
  rw [movedBy_movedBy, movedBy_movedBy, Displacement.add_comm]

end Box

end Moving

/-! ## Rational numbers -/

section Rationals

/-- The value of a numeral. One that stands for no number counts as zero. -/
def rationalOf : Numeral → ℚ
  | .decimal negative digits exponent => (if negative then -1 else 1) * digits * 10 ^ exponent
  | .binary negative digits exponent => (if negative then -1 else 1) * digits * 2 ^ exponent
  | .infinite _ => 0
  | .nan _ => 0

/-- A rational number with up to six decimals, further ones cut off. -/
def writtenRational (number : ℚ) : Text :=
  let millionths := number.num.natAbs * 1000000 / number.den
  let decimals := (Text.ofNat (1000000 + millionths % 1000000)).drop 1
  let kept := (decimals.reverse.dropWhile (· == '0'.toUInt8)).reverse
  let fraction : Text := if kept.isEmpty then [] else '.'.toUInt8 :: kept
  let size := Text.ofNat (millionths / 1000000) ++ fraction
  if number.num < 0 then '-'.toUInt8 :: size else size

instance : Scalar ℚ where
  decideLT := inferInstance
  decideLE := inferInstance
  isNumber _ := true
  isFinite _ := true
  ofNat number := number
  ofNumeral := rationalOf
  written := writtenRational

theorem rational_zero : (0.0 : ℚ) = 0 := by decide +kernel

theorem rational_max (first second : ℚ) : Scalar.max first second = max first second := by
  rw [Scalar.max, max_def]
  split
  · rw [if_pos (le_of_lt ‹_›)]
  · split
    · exact le_antisymm ‹_› (not_lt.mp ‹_›)
    · rfl

theorem rational_min (first second : ℚ) : Scalar.min first second = min first second := by
  rw [Scalar.min, min_def]
  split
  · rw [if_neg (not_le.mpr ‹_›)]
  · rw [if_pos (not_lt.mp ‹_›)]

theorem rational_positive (size : ℚ) : Scalar.positive size = max 0 size := by
  rw [Scalar.positive, rational_max, rational_zero]

instance : Exact ℚ where
  add_assoc := add_assoc
  add_comm := add_comm
  add_zero scalar := (congrArg (scalar + ·) rational_zero).trans (add_zero scalar)
  add_neg scalar := (add_neg_cancel scalar).trans rational_zero.symm
  sub_eq := sub_eq_add_neg
  add_lt_add_iff first second shift := add_lt_add_iff_right shift
  eq_of_beq _ _ := eq_of_beq
  ofNumeral_zero := by decide +kernel
  isFinite_zero := rfl
  isNumber_zero := rfl

end Rationals

end SlidePress.Layout
