import SlidePress.Number.Numeral
import SlidePress.Number.Written
import SlidePress.Proofs.Number.Integral

/-! Numbers that are not below zero. Sums, products and quotients of such numbers are not below zero
either, although they are rounded and may be infinite or no number at all. -/

namespace SlidePress.Number

open Binary64 Float.Model

def NotNegative (number : Number) : Prop := ¬ number < 0.0

instance (number : Number) : Decidable number.NotNegative := inferInstanceAs (Decidable (¬ _))

variable {number first second third : Number}

theorem lt_trans (less : first < second) (lessToo : second < third) : first < third := by
  obtain ⟨isNumber, -, below⟩ := lt_iff.mp less
  obtain ⟨-, isNumberToo, belowToo⟩ := lt_iff.mp lessToo
  exact lt_iff.mpr ⟨isNumber, isNumberToo, Int.lt_trans below belowToo⟩

theorem le_trans (least : first ≤ second) (leastToo : second ≤ third) : first ≤ third := by
  obtain ⟨isNumber, -, atMost⟩ := le_iff.mp least
  obtain ⟨-, isNumberToo, atMostToo⟩ := le_iff.mp leastToo
  exact le_iff.mpr ⟨isNumber, isNumberToo, Int.le_trans atMost atMostToo⟩

theorem le_of_lt (less : first < second) : first ≤ second := by
  obtain ⟨isNumber, isNumberToo, below⟩ := lt_iff.mp less
  exact le_iff.mpr ⟨isNumber, isNumberToo, below.le⟩

theorem notNegative_iff :
    number.NotNegative ↔ number.unpacked = .notANumber ∨ 0 ≤ number.rank := by
  have zero : (0.0 : Number).rank = 0 := rfl
  have isNumber : (0.0 : Number).isNaN = false := rfl
  rw [NotNegative, lt_iff, zero, ← isNaN_iff]
  cases number.isNaN <;> simp [isNumber]

/-- A value that is not below zero: no number, infinite, zero, or a positive amount. -/
inductive Above : UnpackedFloat → Prop where
  | notANumber : Above .notANumber
  | infinity : Above (.infinity .positive)
  | zero (sign : UnpackedFloat.Sign) : Above (.zero sign)
  | positive (mantissa : Nat) (exponent : Int) (some : 0 < mantissa) :
      Above (.finite .positive mantissa exponent some)

theorem representable_zero : Representable (.zero .positive) := trivial

theorem rank_nonneg_iff {value : UnpackedFloat} (representable : Representable value)
    (isFinite : value.isFinite = true) : 0 ≤ Binary64.rank value ↔ 0 ≤ amount value :=
  rank_le_iff representable_zero representable rfl isFinite

theorem rank_le_top {value : UnpackedFloat} (representable : Representable value) :
    Binary64.rank value ≤ top := by
  cases value with
  | notANumber => exact show 0 ≤ top by decide
  | infinity sign => cases sign <;> decide
  | zero sign => exact show 0 ≤ top by decide
  | finite sign mantissa exponent some => exact (rank_bounds representable rfl).2.le

theorem ne_of_isFinite {value : UnpackedFloat} (isFinite : value.isFinite = true) :
    value ≠ .notANumber := by
  rintro rfl
  cases isFinite

theorem unpacked_of_unbounded {value : UnpackedFloat}
    (same : number.unpacked = (Float.Model.pack value).unpack) (unbounded : value.isFinite = false) :
    number.unpacked = value := by
  cases value with
  | notANumber => exact same
  | infinity sign => exact same.trans (unpack_infinity sign)
  | _ => cases unbounded

theorem positive_of_least {sign : UnpackedFloat.Sign} {mantissa : Nat} {exponent : Int}
    {some : 0 < mantissa} (least : 0 ≤ amount (.finite sign mantissa exponent some)) :
    sign = .positive := by
  cases sign with
  | positive => rfl
  | negative =>
      rw [amount_negative] at least
      have positive : 0 < size mantissa exponent := size_pos some
      linarith

theorem NotNegative.above (notNegative : number.NotNegative) : Above number.unpacked := by
  have representable := number.representable_unpacked
  rcases notNegative_iff.mp notNegative with isNone | least
  · rw [isNone]
    exact .notANumber
  · unfold rank at least
    cases same : number.unpacked with
    | notANumber => exact .notANumber
    | infinity sign =>
        rw [same] at least
        cases sign with
        | negative => exact absurd least (by decide)
        | positive => exact .infinity
    | zero sign => exact .zero sign
    | finite sign mantissa exponent some =>
        rw [same] at least representable
        obtain rfl := positive_of_least ((rank_nonneg_iff representable rfl).mp least)
        exact .positive mantissa exponent some

theorem notNegative_of_near {exact : ℚ} (near : Near exact number.unpacked) (least : 0 ≤ exact) :
    number.NotNegative :=
  notNegative_iff.mpr (.inr (near.above representable_zero rfl least))

inductive NoAmount : UnpackedFloat → Prop where
  | notANumber : NoAmount .notANumber
  | infinity : NoAmount (.infinity .positive)
  | zero (sign : UnpackedFloat.Sign) : NoAmount (.zero sign)

theorem NoAmount.notNegative {value : UnpackedFloat} (noAmount : NoAmount value)
    (same : number.unpacked = (Float.Model.pack value).unpack) : number.NotNegative := by
  refine notNegative_iff.mpr ?_
  rw [rank, same]
  cases noAmount with
  | notANumber => exact .inl rfl
  | infinity => exact .inr (by decide)
  | zero sign => cases sign <;> exact .inr (by decide)

section Operations

variable {value other : UnpackedFloat}

/-- An operation in whose table the row and the column of an infinite value hold no amount gives none
where one of its values is not finite. -/
theorem noAmount_of_table {f : UnpackedFloat → UnpackedFloat → UnpackedFloat}
    (above : Above value) (aboveToo : Above other)
    (unbounded : value.isFinite = false ∨ other.isFinite = false)
    (none : ∀ value, f .notANumber value = .notANumber ∧ f value .notANumber = .notANumber)
    (row : NoAmount (f (.infinity .positive) other))
    (column : NoAmount (f value (.infinity .positive))) : NoAmount (f value other) := by
  by_cases isFinite : value.isFinite = true
  · have unboundedToo : other.isFinite = false := unbounded.resolve_left (by simp [isFinite])
    cases aboveToo with
    | notANumber =>
        rw [(none value).2]
        exact .notANumber
    | infinity => exact column
    | _ => cases unboundedToo
  · cases above with
    | notANumber =>
        rw [(none other).1]
        exact .notANumber
    | infinity => exact row
    | _ => exact absurd rfl isFinite

theorem noAmount_add (above : Above value) (aboveToo : Above other)
    (unbounded : value.isFinite = false ∨ other.isFinite = false) :
    NoAmount (value.add Format.binary64 other) := by
  refine noAmount_of_table above aboveToo unbounded (fun value => ⟨rfl, by cases value <;> rfl⟩) ?_ ?_
  · cases aboveToo <;> constructor
  · cases above <;> constructor

theorem noAmount_mul (above : Above value) (aboveToo : Above other)
    (unbounded : value.isFinite = false ∨ other.isFinite = false) :
    NoAmount (value.mul Format.binary64 other) := by
  refine noAmount_of_table above aboveToo unbounded (fun value => ⟨rfl, by cases value <;> rfl⟩) ?_ ?_
  · cases aboveToo <;> constructor
  · cases above <;> constructor

theorem noAmount_div (above : Above value) (aboveToo : Above other)
    (some : 0 < Binary64.rank other) (unbounded : value.isFinite = false ∨ other.isFinite = false) :
    NoAmount (value.div Format.binary64 other) := by
  refine noAmount_of_table above aboveToo unbounded (fun value => ⟨rfl, by cases value <;> rfl⟩) ?_ ?_
  · cases aboveToo with
    | zero sign => cases some
    | _ => constructor
  · cases above <;> constructor

theorem isFinite_add (unbounded : value.isFinite = false ∨ other.isFinite = false) :
    (value.add Format.binary64 other).isFinite = false := by
  cases value with
  | notANumber => rfl
  | infinity sign =>
      cases other with
      | infinity side => cases sign <;> cases side <;> rfl
      | _ => rfl
  | _ =>
      cases other with
      | notANumber => rfl
      | infinity side => rfl
      | _ => rcases unbounded with contradiction | contradiction <;> cases contradiction

theorem add_unbounded (value : UnpackedFloat) (above : Above other)
    (unbounded : value.isFinite = false ∨ other.isFinite = false) :
    value.add Format.binary64 other = .notANumber ∨
      value.add Format.binary64 other = .infinity .positive ∨
      value.add Format.binary64 other = value := by
  cases above with
  | notANumber => cases value <;> exact .inl rfl
  | infinity =>
      cases value with
      | notANumber => exact .inl rfl
      | infinity sign =>
          cases sign with
          | positive => exact .inr (.inl rfl)
          | negative => exact .inl rfl
      | _ => exact .inr (.inl rfl)
  | _ =>
      have infinite : value.isFinite = false := unbounded.resolve_right nofun
      cases value with
      | notANumber => exact .inl rfl
      | infinity sign => exact .inr (.inr rfl)
      | _ => cases infinite

theorem noAmount_sub (representable : Representable value) (representableToo : Representable other)
    (unbounded : value.isFinite = false ∨ other.isFinite = false)
    (notLess : ¬ (¬ value = .notANumber ∧ ¬ other = .notANumber ∧
      Binary64.rank value < Binary64.rank other)) :
    NoAmount (value.sub Format.binary64 other) := by
  have least (isFinite : other.isFinite = true) (same : value = .infinity .negative) : False := by
    subst same
    exact notLess ⟨UnpackedFloat.noConfusion, ne_of_isFinite isFinite,
      (rank_bounds representableToo isFinite).1⟩
  have greatest (isFinite : value.isFinite = true) (same : other = .infinity .positive) : False := by
    subst same
    exact notLess ⟨ne_of_isFinite isFinite, UnpackedFloat.noConfusion,
      (rank_bounds representable isFinite).2⟩
  cases value with
  | notANumber => exact .notANumber
  | infinity sign =>
      cases other with
      | notANumber => exact .notANumber
      | infinity side =>
          cases sign with
          | negative =>
              cases side with
              | negative => exact .notANumber
              | positive =>
                  exact absurd ⟨UnpackedFloat.noConfusion, UnpackedFloat.noConfusion, by decide⟩ notLess
          | positive => cases side with
              | negative => exact .infinity
              | positive => exact .notANumber
      | _ =>
          cases sign with
          | negative => exact (least rfl rfl).elim
          | positive => exact .infinity
  | _ =>
      cases other with
      | notANumber => exact .notANumber
      | infinity side =>
          cases side with
          | negative => exact .infinity
          | positive => exact (greatest rfl rfl).elim
      | _ => rcases unbounded with contradiction | contradiction <;> cases contradiction

end Operations

section Numbers

theorem finite_or (first second : Number) :
    (first.unpacked.isFinite = true ∧ second.unpacked.isFinite = true) ∨
      (first.unpacked.isFinite = false ∨ second.unpacked.isFinite = false) := by
  cases first.unpacked.isFinite <;> cases second.unpacked.isFinite <;> simp

theorem NotNegative.least (notNegative : number.NotNegative)
    (isFinite : number.unpacked.isFinite = true) : 0 ≤ amount number.unpacked := by
  have above := notNegative.above
  generalize number.unpacked = value at above isFinite
  cases above with
  | notANumber => cases isFinite
  | infinity => cases isFinite
  | zero sign => exact le_refl 0
  | positive mantissa exponent some => exact (size_pos some).le

theorem NotNegative.add (notNegative : first.NotNegative) (notNegativeToo : second.NotNegative) :
    (first + second).NotNegative := by
  rcases finite_or first second with ⟨isFinite, isFiniteToo⟩ | unbounded
  · exact notNegative_of_near (near_add isFinite isFiniteToo)
      (add_nonneg (notNegative.least isFinite) (notNegativeToo.least isFiniteToo))
  · exact (noAmount_add notNegative.above notNegativeToo.above unbounded).notNegative rfl

theorem NotNegative.mul (notNegative : first.NotNegative) (notNegativeToo : second.NotNegative) :
    (first * second).NotNegative := by
  rcases finite_or first second with ⟨isFinite, isFiniteToo⟩ | unbounded
  · exact notNegative_of_near (near_mul isFinite isFiniteToo)
      (mul_nonneg (notNegative.least isFinite) (notNegativeToo.least isFiniteToo))
  · exact (noAmount_mul notNegative.above notNegativeToo.above unbounded).notNegative rfl

theorem notNegative_of_le (least : 0.0 ≤ number) : number.NotNegative := by
  obtain ⟨-, -, atLeast⟩ := le_iff.mp least
  exact notNegative_iff.mpr (.inr atLeast)

theorem notNegative_of_pos (positive : 0.0 < number) : number.NotNegative :=
  notNegative_of_le (le_of_lt positive)

theorem NotNegative.div (notNegative : first.NotNegative) (positive : 0.0 < second) :
    (first / second).NotNegative := by
  have notNegativeToo := notNegative_of_pos positive
  have some : 0 < second.rank := (lt_iff.mp positive).2.2
  rcases finite_or first second with ⟨isFinite, isFiniteToo⟩ | unbounded
  · have least := notNegativeToo.least isFiniteToo
    have other : amount second.unpacked ≠ 0 := by
      intro none
      have zero := rank_le_iff second.representable_unpacked representable_zero isFiniteToo rfl
      exact absurd (zero.mpr (none.le.trans (le_refl 0))) (not_le.mpr some)
    exact notNegative_of_near (near_div isFinite other) (div_nonneg (notNegative.least isFinite) least)
  · exact (noAmount_div notNegative.above notNegativeToo.above some unbounded).notNegative rfl

/-- What is added to does not become less. -/
theorem NotNegative.not_add_lt (notNegative : second.NotNegative) (first : Number) :
    ¬ first + second < first := by
  intro less
  obtain ⟨isNumber, -, below⟩ := lt_iff.mp less
  unfold rank at below
  have representable := first.representable_unpacked
  rcases finite_or first second with ⟨isFinite, isFiniteToo⟩ | unbounded
  · have least := (near_add isFinite isFiniteToo).above representable isFinite
      (le_add_of_nonneg_right (notNegative.least isFiniteToo))
    exact Int.not_lt.mpr least below
  · have packed : (first + second).unpacked = (Float.Model.pack
        (UnpackedFloat.add Format.binary64 first.unpacked second.unpacked)).unpack := rfl
    have sum := unpacked_of_unbounded packed (isFinite_add unbounded)
    rw [← Bool.not_eq_true, isNaN_iff, sum] at isNumber
    rw [sum] at below
    rcases add_unbounded first.unpacked notNegative.above unbounded with isNone | isInfinite | same
    · exact isNumber isNone
    · rw [isInfinite] at below
      exact Int.not_lt.mpr (rank_le_top representable) below
    · rw [same] at below
      exact Int.lt_irrefl _ below

/-- A difference is not below zero where the first number is not below the second one. -/
theorem notNegative_sub (notLess : ¬ first < second) : (first - second).NotNegative := by
  have representable := first.representable_unpacked
  have representableToo := second.representable_unpacked
  rw [lt_iff, ← Bool.not_eq_true, ← Bool.not_eq_true, isNaN_iff, isNaN_iff] at notLess
  rcases finite_or first second with ⟨isFinite, isFiniteToo⟩ | unbounded
  · have order := rank_le_iff representableToo representable isFiniteToo isFinite
    refine notNegative_of_near (near_sub isFinite isFiniteToo) (sub_nonneg.mpr (order.mp ?_))
    exact not_lt.mp fun less => notLess ⟨ne_of_isFinite isFinite, ne_of_isFinite isFiniteToo, less⟩
  · have difference : (first - second).unpacked = (Float.Model.pack
        (UnpackedFloat.sub Format.binary64 first.unpacked second.unpacked)).unpack := rfl
    exact (noAmount_sub representable representableToo unbounded notLess).notNegative difference

end Numbers

end SlidePress.Number
