import SlidePress.Proofs.Layout.Exact

/-! Boxes that are moved step by step. Nothing is assumed of sums, so the steps are kept apart. Some
drifts keep all distances and the order of places all the same: the one without steps always does,
and in exact arithmetic every drift does. What is laid out after such a drift is the same as before,
drifted. -/

namespace SlidePress.Layout

variable {α : Type}

/-- Distances by which something is moved to the right and down, one after another. -/
structure Drift (α : Type) where
  right : List α
  down : List α

namespace Drift

def none : Drift α := ⟨[], []⟩

def append (drift further : Drift α) : Drift α :=
  ⟨drift.right ++ further.right, drift.down ++ further.down⟩

theorem append_none (drift : Drift α) : drift.append .none = drift := by
  simp [append, none]

end Drift

variable [Scalar α]

namespace Drift

def across (drift : Drift α) (x : α) : α := drift.right.foldl (· + ·) x

def below (drift : Drift α) (y : α) : α := drift.down.foldl (· + ·) y

def carry (drift : Drift α) (rect : Rect α) : Rect α :=
  { rect with x := drift.across rect.x, y := drift.below rect.y }

theorem across_append (drift further : Drift α) (x : α) :
    (drift.append further).across x = further.across (drift.across x) := by
  simp [across, append]

theorem below_append (drift further : Drift α) (y : α) :
    (drift.append further).below y = further.below (drift.below y) := by
  simp [below, append]

theorem carry_append (drift further : Drift α) (rect : Rect α) :
    (drift.append further).carry rect = further.carry (drift.carry rect) := by
  simp [carry, across_append, below_append]

end Drift

namespace Box

def drifted (drift : Drift α) (box : Box α) : Box α := box.mapFrames drift.carry

theorem drifted_eq (drift : Drift α) (box : Box α) :
    box.drifted drift = ⟨drift.carry box.frame, box.tag, box.text, box.attributes, box.style,
      box.children.map (drifted drift)⟩ :=
  box.mapFrames_eq drift.carry

theorem frame_drifted (drift : Drift α) (box : Box α) :
    (box.drifted drift).frame = drift.carry box.frame := by
  rw [drifted_eq]

theorem width_drifted (drift : Drift α) (box : Box α) :
    (box.drifted drift).frame.width = box.frame.width := by
  rw [frame_drifted]
  rfl

theorem child_drifted (drift : Drift α) {index : Nat} {box child : Box α}
    (isChild : box.children[index]? = some child) :
    (box.drifted drift).children[index]? = some (child.drifted drift) := by
  rw [drifted_eq, List.getElem?_map, isChild]
  rfl

theorem drifted_none (box : Box α) : box.drifted .none = box := mapFrames_id box

theorem drifted_drifted (drift further : Drift α) (box : Box α) :
    (box.drifted drift).drifted further = box.drifted (drift.append further) := by
  have carries : further.carry ∘ drift.carry = (drift.append further).carry := by
    funext rect
    exact (Drift.carry_append drift further rect).symm
  rw [drifted, drifted, mapFrames_mapFrames, carries]
  rfl

theorem moveX_eq_drifted (shift : α) (box : Box α) : box.moveX shift = box.drifted ⟨[shift], []⟩ := rfl

theorem moveY_eq_drifted (shift : α) (box : Box α) : box.moveY shift = box.drifted ⟨[], [shift]⟩ := rfl

end Box

/-! ## Drifts that keep distances -/

/-- A change of places that keeps the distances between them, and their order. -/
structure Steady (move : α → α) : Prop where
  add : ∀ place distance, move (place + distance) = move place + distance
  sub : ∀ place distance, move (place - distance) = move place - distance
  distance : ∀ first second, move first - move second = first - second
  lt : ∀ first second, move first < move second ↔ first < second

namespace Steady

variable {move further : α → α}

theorem id : Steady (fun place : α => place) := by
  constructor <;> simp

theorem comp (steady : Steady move) (goesOn : Steady further) : Steady (further ∘ move) where
  add place distance := by simp [steady.add, goesOn.add]
  sub place distance := by simp [steady.sub, goesOn.sub]
  distance first second := by simp [steady.distance, goesOn.distance]
  lt first second := by simp [steady.lt, goesOn.lt]

variable (steady : Steady move)
include steady

theorem max (first second : α) :
    Scalar.max (move first) (move second) = move (Scalar.max first second) := by
  simp only [Scalar.max, steady.lt]
  split <;> rfl

theorem min (first second : α) :
    Scalar.min (move first) (move second) = move (Scalar.min first second) := by
  simp only [Scalar.min, steady.lt]
  split <;> rfl

/-- Further steps can be taken before or after. -/
theorem foldl (steps : List α) (place : α) :
    steps.foldl (· + ·) (move place) = move (steps.foldl (· + ·) place) := by
  induction steps generalizing place with
  | nil => rfl
  | cons step rest ih => rw [List.foldl_cons, List.foldl_cons, ← steady.add, ih]

end Steady

namespace Drift

structure Rigid (drift : Drift α) : Prop where
  across : Steady drift.across
  below : Steady drift.below

namespace Rigid

theorem none : (.none : Drift α).Rigid := ⟨.id, .id⟩

variable {drift further : Drift α}

theorem append (rigid : drift.Rigid) (goesOn : further.Rigid) : (drift.append further).Rigid := by
  constructor
  · exact funext (across_append drift further) ▸ rigid.across.comp goesOn.across
  · exact funext (below_append drift further) ▸ rigid.below.comp goesOn.below

variable (rigid : drift.Rigid)
include rigid

theorem right (rect : Rect α) : (drift.carry rect).right = drift.across rect.right :=
  (rigid.across.add rect.x rect.width).symm

theorem bottom (rect : Rect α) : (drift.carry rect).bottom = drift.below rect.bottom :=
  (rigid.below.add rect.y rect.height).symm

theorem joinRects (first second : Rect α) :
    Layout.joinRects (drift.carry first) (drift.carry second) =
      drift.carry (Layout.joinRects first second) := by
  unfold Layout.joinRects
  rw [rigid.right, rigid.right, rigid.bottom, rigid.bottom]
  simp only [carry, rigid.across.max, rigid.across.min, rigid.below.max, rigid.below.min,
    rigid.across.distance, rigid.below.distance]

theorem carry_comm (further : Drift α) (rect : Rect α) :
    further.carry (drift.carry rect) = drift.carry (further.carry rect) := by
  have right : further.across (drift.across rect.x) = drift.across (further.across rect.x) :=
    rigid.across.foldl further.right rect.x
  have down : further.below (drift.below rect.y) = drift.below (further.below rect.y) :=
    rigid.below.foldl further.down rect.y
  simp [carry, right, down]

theorem drifted_comm (further : Drift α) (box : Box α) :
    (box.drifted drift).drifted further = (box.drifted further).drifted drift := by
  have comm : further.carry ∘ drift.carry = drift.carry ∘ further.carry :=
    funext (rigid.carry_comm further)
  simp only [Box.drifted, mapFrames_mapFrames, comm]

end Rigid

end Drift

/-! ## Exact arithmetic -/

def Displacement.drift (shift : Displacement α) : Drift α := ⟨[shift.right], [shift.down]⟩

/-- How far a drift goes. -/
def Drift.total (drift : Drift α) : Displacement α := ⟨drift.across 0.0, drift.below 0.0⟩

section Exact

variable [Exact α] (drift further : Drift α)

theorem Exact.foldl_add (steps : List α) (place : α) :
    steps.foldl (· + ·) place = place + steps.foldl (· + ·) 0.0 := by
  induction steps generalizing place with
  | nil => exact (Exact.add_zero place).symm
  | cons step rest ih =>
      rw [List.foldl_cons, List.foldl_cons, ih, ih (0.0 + step), Exact.zero_add, Exact.add_assoc]

theorem Exact.steady_foldl (steps : List α) : Steady fun place => steps.foldl (· + ·) place := by
  rw [funext (foldl_add steps)]
  constructor
  · intro place distance
    exact add_right_comm place distance _
  · intro place distance
    exact (add_sub_right_comm place distance _).symm
  · intro first second
    exact add_sub_add_right first second _
  · intro first second
    exact add_lt_add_iff first second _

namespace Drift

theorem rigid : drift.Rigid := ⟨Exact.steady_foldl drift.right, Exact.steady_foldl drift.down⟩

theorem carry_eq_movedRect : drift.carry = movedRect drift.total := by
  funext rect
  simp only [carry, movedRect, across, below, total, Exact.foldl_add drift.right rect.x,
    Exact.foldl_add drift.down rect.y]

theorem drifted_eq_movedBy (box : Box α) : box.drifted drift = box.movedBy drift.total := by
  rw [Box.drifted, carry_eq_movedRect]
  rfl

theorem total_append : (drift.append further).total = drift.total + further.total := by
  have right := Exact.foldl_add further.right (drift.across 0.0)
  have down := Exact.foldl_add further.down (drift.below 0.0)
  rw [total, across_append, below_append]
  exact congrArg₂ Displacement.mk right down

omit [Exact α] in
theorem total_none : (.none : Drift α).total = .none := rfl

end Drift

theorem Displacement.total_drift (shift : Displacement α) : shift.drift.total = shift := by
  obtain ⟨right, down⟩ := shift
  change Displacement.mk (0.0 + right) (0.0 + down) = _
  rw [Exact.zero_add, Exact.zero_add]

end Exact

end SlidePress.Layout
