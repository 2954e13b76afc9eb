import SlidePress.Number.Binary64

/-! Numbers: binary64 values together with the sign of a not-a-number. Written forms show that
sign, so it is part of a number. An operation that has no result gives the negative
not-a-number, one that is given a not-a-number hands on the first it finds, and negation turns
the sign around. -/
namespace SlidePress

/-- A binary64 value. The flag is the sign of a not-a-number and has no meaning otherwise. -/
structure Number where
  value : Float
  nanNegative : Bool := true

namespace Number

def ofFloat (value : Float) : Number := ⟨value, true⟩

def nan (negative : Bool) : Number := ⟨0.0 / 0.0, negative⟩

def isNaN (number : Number) : Bool := number.value.isNaN

def isFinite (number : Number) : Bool := number.value.isFinite

/-- An operation on values, with the sign of a not-a-number carried along. -/
def combine (operation : Float → Float → Float) (left right : Number) : Number :=
  ⟨operation left.value right.value,
    if left.isNaN then left.nanNegative else if right.isNaN then right.nanNegative else true⟩

instance : Add Number := ⟨combine (· + ·)⟩
instance : Sub Number := ⟨combine (· - ·)⟩
instance : Mul Number := ⟨combine (· * ·)⟩
instance : Div Number := ⟨combine (· / ·)⟩

instance : Neg Number :=
  ⟨fun number => ⟨-number.value, if number.isNaN then !number.nanNegative else true⟩⟩

instance : OfScientific Number :=
  ⟨fun mantissa negative exponent => ofFloat (OfScientific.ofScientific mantissa negative exponent)⟩

instance {n : Nat} : OfNat Number n := ⟨ofFloat (OfScientific.ofScientific n false 0)⟩

instance : Inhabited Number := ⟨0⟩

def ofNat (number : Nat) : Number :=
  ofFloat (Binary64.nearest false number 1).value

instance : LT Number := ⟨fun left right => left.value < right.value⟩
instance : LE Number := ⟨fun left right => left.value ≤ right.value⟩

instance (left right : Number) : Decidable (left < right) :=
  inferInstanceAs (Decidable (left.value < right.value))

instance (left right : Number) : Decidable (left ≤ right) :=
  inferInstanceAs (Decidable (left.value ≤ right.value))

/-- Equality of values: the two zeros are equal, and a not-a-number equals nothing. -/
instance : BEq Number := ⟨fun left right => left.value == right.value⟩

/-- The larger of two numbers; the first when they do not compare. -/
def max (first second : Number) : Number :=
  if first < second then second else first

/-- The smaller of two numbers; the first when they do not compare. -/
def min (first second : Number) : Number :=
  if second < first then second else first

/-- The number brought into an interval; a not-a-number stays. -/
def clamp (number low high : Number) : Number :=
  if number < low then low else if high < number then high else number

def abs (number : Number) : Number :=
  ⟨number.value.abs, false⟩

def meaning (number : Number) : Binary64.Meaning :=
  Binary64.meaning number.value

/-- Values compare in the same way from either side. -/
theorem compare_swap (first second : Float.Model.UnpackedFloat) :
    second.compare first = (first.compare second).map Ordering.swap := by
  cases first with
  | notANumber => cases second <;> rfl
  | infinity sign =>
      cases second with
      | infinity other => cases sign <;> cases other <;> rfl
      | _ => cases sign <;> rfl
  | zero sign =>
      cases second with
      | infinity other => cases other <;> rfl
      | finite other => cases other <;> rfl
      | _ => rfl
  | finite sign mantissa exponent =>
      cases second with
      | infinity other => cases other <;> cases sign <;> rfl
      | finite other mantissa' exponent' =>
          have exponents : compare exponent' exponent = (compare exponent exponent').swap :=
            Std.OrientedCmp.eq_swap
          have mantissas : compare mantissa' mantissa = (compare mantissa mantissa').swap :=
            Std.OrientedCmp.eq_swap
          have both : (compare exponent' exponent).then (compare mantissa' mantissa) =
              ((compare exponent exponent').then (compare mantissa mantissa')).swap := by
            rw [exponents, mantissas, Ordering.swap_then]
          cases sign with
          | positive =>
              cases other with
              | positive => exact congrArg some both
              | negative => rfl
          | negative =>
              cases other with
              | positive => rfl
              | negative => exact congrArg (some ·.swap) both
      | notANumber => cases sign <;> rfl
      | zero other => cases sign <;> rfl

theorem not_le_of_lt {first second : Number} (less : first < second) : ¬ second ≤ first := by
  have below : first.value.toModel.unpack.compare second.value.toModel.unpack = some .lt :=
    beq_iff_eq.mp (of_decide_eq_true less)
  intro above
  have notBelow : (second.value.toModel.unpack.compare first.value.toModel.unpack).any (·.isLE) =
      true := of_decide_eq_true above
  rw [compare_swap, below] at notBelow
  cases notBelow

end Number

end SlidePress
