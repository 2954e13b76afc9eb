import SlidePress.Proofs.Number.Integral
import SlidePress.Style.Length

/-! Rounding to hundredths of a point. A positive distance vanishes when it is rounded exactly if it lies
below the number that is nearest to half a hundredth, although both the hundredfold and the rounded
quotient are computed with an error. -/

namespace SlidePress.Style

open Binary64 Float.Model

/-- The least distance that is still seen when it is rounded. -/
def halfHundredth : Number := 0.005

theorem unpacked_hundred :
    (100 : Number).unpacked = .finite .positive (100 * 2 ^ 46) (-46) (by decide) := rfl

theorem unpacked_halfHundredth :
    halfHundredth.unpacked = .finite .positive 5764607523034235 (-60) (by decide) := rfl

theorem amount_hundred : amount (100 : Number).unpacked = 100 := by
  rw [unpacked_hundred, amount_positive, size]
  norm_num

def oneHalf : UnpackedFloat := .finite .positive (2 ^ 52) (-53) (by decide)

def belowHalf : UnpackedFloat := .finite .positive (2 ^ 53 - 1) (-54) (by decide)

theorem representable_zero : Representable (.zero .positive) := trivial

theorem representable_oneHalf : Representable oneHalf :=
  ⟨⟨by decide, by decide, .inl (by decide)⟩, by decide⟩

theorem representable_belowHalf : Representable belowHalf :=
  ⟨⟨by decide, by decide, .inl (by decide)⟩, by decide⟩

theorem amount_oneHalf : amount oneHalf = 1 / 2 := by
  rw [oneHalf, amount_positive, size]
  norm_num

theorem pos_of_rank {number : Number} (isNumber : number.unpacked ≠ .notANumber)
    (positive : 0 < number.rank) : 0 < number :=
  Number.lt_iff.mpr ⟨rfl, Bool.eq_false_iff.mpr fun same => isNumber (Number.isNaN_iff.mp same), positive⟩

theorem one_le_size {mantissa : Nat} {exponent : Int} (full : 2 ^ 52 ≤ mantissa)
    (least : -52 ≤ exponent) : 1 ≤ size mantissa exponent := by
  have digits : (2 : ℚ) ^ 52 ≤ mantissa := by exact_mod_cast full
  calc (1 : ℚ) = 2 ^ 52 * 2 ^ (-52 : Int) := by norm_num
    _ ≤ mantissa * 2 ^ (-52 : Int) := mul_le_mul_of_nonneg_right digits (by positivity)
    _ ≤ size mantissa exponent :=
        mul_le_mul_of_nonneg_left (zpow_le_zpow_right₀ one_le_two least) (Nat.cast_nonneg _)

section Quotients

variable {number : Number}

theorem unpacked_div (first second : Number) : (first / second).unpacked =
    (Float.Model.pack (UnpackedFloat.div Format.binary64 first.unpacked second.unpacked)).unpack := rfl

theorem unpacked_mul (first second : Number) : (first * second).unpacked =
    (Float.Model.pack (UnpackedFloat.mul Format.binary64 first.unpacked second.unpacked)).unpack := rfl

theorem infinity_div_hundred (isInfinite : number.unpacked = .infinity .positive) :
    0 < number / 100 := by
  have same : (number / 100).unpacked = .infinity .positive := by
    rw [unpacked_div, isInfinite, unpacked_hundred]
    rfl
  refine pos_of_rank (by rw [same]; exact UnpackedFloat.noConfusion) ?_
  rw [Number.rank, same]
  decide

theorem near_div_hundred (isFinite : number.unpacked.isFinite = true) :
    Near (amount number.unpacked / 100) (number / 100).unpacked := by
  have near : Near (amount number.unpacked / amount (100 : Number).unpacked) (number / 100).unpacked :=
    Number.near_div isFinite (by rw [amount_hundred]; norm_num)
  rwa [amount_hundred] at near

/-- What is one or more is not lost when it is divided. -/
theorem pos_div_hundred (isFinite : number.unpacked.isFinite = true)
    (one : 1 ≤ amount number.unpacked) : 0 < number / 100 := by
  have near := near_div_hundred isFinite
  -- The least positive value lies below the quotient.
  have least : amount (.finite .positive 1 (-1074) Nat.one_pos) ≤ amount number.unpacked / 100 := by
    rw [amount_positive, size, Nat.cast_one, one_mul]
    calc (2 : ℚ) ^ (-1074 : Int) ≤ 2 ^ (-7 : Int) := zpow_le_zpow_right₀ one_le_two (by decide)
      _ ≤ 1 / 100 := by norm_num
      _ ≤ amount number.unpacked / 100 := by linarith
  have representable : Representable (.finite .positive 1 (-1074) Nat.one_pos) :=
    ⟨⟨by decide, by decide, .inr rfl⟩, by decide⟩
  exact pos_of_rank near.number (lt_of_lt_of_le (by decide) (near.above representable rfl least))

theorem zero_div_hundred {sign : UnpackedFloat.Sign} (isZero : number.unpacked = .zero sign) :
    (number / 100 == 0) = true := by
  have isFinite : number.unpacked.isFinite = true := by rw [isZero]; rfl
  have near := near_div_hundred isFinite
  rw [isZero, amount_zero, zero_div] at near
  have above := near.above representable_zero rfl (le_refl 0)
  have below := near.below representable_zero rfl (le_refl 0)
  refine Number.beq_iff.mpr ⟨?_, rfl, Int.le_antisymm below above⟩
  exact Bool.eq_false_iff.mpr fun same => near.number (Number.isNaN_iff.mp same)

end Quotients

section Distances

variable {distance : Number}

theorem rank_halfHundredth : halfHundredth.rank = place 5764607523034235 (-60) := rfl

theorem near_hundredfold (isFinite : distance.unpacked.isFinite = true) :
    Near (amount distance.unpacked * 100) (distance * 100).unpacked := by
  have near : Near (amount distance.unpacked * amount (100 : Number).unpacked) (distance * 100).unpacked :=
    Number.near_mul isFinite rfl
  rwa [amount_hundred] at near

/-- A number from one half on keeps something when it is rounded, also after it is divided. -/
theorem pos_round_div_hundred {number : Number} (half : rank oneHalf ≤ number.rank) :
    0 < number.round / 100 := by
  have representable := number.representable_unpacked
  have positive : 0 < number.rank := lt_of_lt_of_le (by decide) half
  rcases cases_of_rank_pos representable positive with isInfinite | ⟨mantissa, exponent, some, same⟩
  · rw [Number.round_infinity isInfinite]
    exact infinity_div_hundred isInfinite
  · have large : 1 / 2 ≤ size mantissa exponent := by
      rw [Number.rank, same] at half
      rw [same] at representable
      have more := (rank_le_iff representable_oneHalf representable rfl rfl).mp half
      rwa [amount_oneHalf, amount_positive] at more
    obtain ⟨rounded, order, positive, full, least, result⟩ := Number.exists_round same large
    rw [capped] at result
    split at result
    · refine pos_div_hundred (by rw [result]; rfl) ?_
      rw [result, amount_positive]
      exact one_le_size full least
    · exact infinity_div_hundred result

/-- The hundredfold of a distance from half a hundredth on is one half or more. -/
theorem oneHalf_le_hundredfold (large : halfHundredth ≤ distance) :
    rank oneHalf ≤ (distance * 100).rank := by
  obtain ⟨-, -, above⟩ := Number.le_iff.mp large
  have representable := distance.representable_unpacked
  have positive : 0 < distance.rank := lt_of_lt_of_le (by decide) above
  rcases cases_of_rank_pos representable positive with isInfinite | ⟨mantissa, exponent, some, same⟩
  · have result : (distance * 100).unpacked = .infinity .positive := by
      rw [unpacked_mul, isInfinite, unpacked_hundred]
      rfl
    rw [Number.rank, result]
    decide
  · have isFinite : distance.unpacked.isFinite = true := by rw [same]; rfl
    have most := (rank_le_iff halfHundredth.representable_unpacked representable rfl isFinite).mp above
    have least : (1 : ℚ) / 2 ≤ amount halfHundredth.unpacked * 100 := by
      rw [unpacked_halfHundredth, amount_positive, size]
      norm_num
    refine (near_hundredfold isFinite).above representable_oneHalf rfl ?_
    rw [amount_oneHalf]
    linarith

/-- The hundredfold of a distance below half a hundredth stays below one half. -/
theorem hundredfold_le_belowHalf (positive : 0 < distance) (small : ¬ halfHundredth ≤ distance) :
    0 ≤ (distance * 100).rank ∧ (distance * 100).rank ≤ rank belowHalf := by
  obtain ⟨-, isNumber, above⟩ := Number.lt_iff.mp positive
  have below : distance.rank ≤ place 5764607523034234 (-60) := by
    by_contra notBelow
    refine small (Number.le_iff.mpr ⟨rfl, isNumber, ?_⟩)
    rw [rank_halfHundredth]
    unfold place at notBelow ⊢
    omega
  have representable := distance.representable_unpacked
  rcases cases_of_rank_pos representable above with isInfinite | ⟨mantissa, exponent, some, same⟩
  · rw [Number.rank, isInfinite] at below
    exact absurd below (by decide)
  · have isFinite : distance.unpacked.isFinite = true := by rw [same]; rfl
    have near := near_hundredfold isFinite
    have next : Representable (.finite .positive 5764607523034234 (-60) (by decide)) :=
      ⟨⟨by decide, by decide, .inl (by decide)⟩, by decide⟩
    have most := (rank_le_iff representable next isFinite rfl).mp below
    have bound : amount (.finite .positive 5764607523034234 (-60) (by decide)) * 100 ≤
        amount belowHalf := by
      rw [belowHalf, amount_positive, amount_positive, size, size]
      norm_num
    have notNegative : 0 ≤ amount distance.unpacked := by
      rw [same, amount_positive]
      exact size_nonneg _ _
    refine ⟨near.above representable_zero rfl ?_,
      near.below representable_belowHalf rfl (by linarith)⟩
    rw [amount_zero]
    linarith

theorem round_of_small {number : Number} (isNumber : number.unpacked ≠ .notANumber)
    (notNegative : 0 ≤ number.rank) (small : number.rank ≤ rank belowHalf) :
    ∃ sign, number.round.unpacked = .zero sign := by
  have representable := number.representable_unpacked
  rcases Int.lt_or_eq_of_le notNegative with positive | none
  · rcases cases_of_rank_pos representable positive with isInfinite | ⟨mantissa, exponent, some, same⟩
    · rw [Number.rank, isInfinite] at small
      exact absurd small (by decide)
    · refine ⟨_, Number.round_small same ?_⟩
      rw [Number.rank, same] at small
      rw [same] at representable
      have most := (rank_le_iff representable representable_belowHalf rfl rfl).mp small
      have less : amount belowHalf < 1 / 2 := by
        rw [belowHalf, amount_positive, size]
        norm_num
      rw [amount_positive] at most
      linarith
  · cases shape : number.unpacked with
    | notANumber => exact (isNumber shape).elim
    | zero sign => exact ⟨sign, Number.round_zero shape⟩
    | infinity sign =>
        rw [Number.rank, shape] at none
        cases sign <;> exact absurd none (by decide)
    | finite sign mantissa exponent some =>
        rw [shape] at representable
        have bounds := place_bounds some representable
        rw [Number.rank, shape] at none
        cases sign with
        | negative =>
            change 0 = -place mantissa exponent at none
            omega
        | positive =>
            change 0 = place mantissa exponent at none
            omega

/-- A positive distance is still positive when it is rounded exactly from half a hundredth on; below
that nothing is left of it. -/
theorem roundOutput_cases (positive : 0 < distance) :
    (halfHundredth ≤ distance → 0 < roundOutput distance) ∧
      (¬ halfHundredth ≤ distance → roundOutput distance = 0) := by
  constructor
  · intro large
    have seen := pos_round_div_hundred (oneHalf_le_hundredfold large)
    have notNothing : ¬ ((distance * 100).round / 100 == 0) = true := by
      intro none
      obtain ⟨-, -, same⟩ := Number.beq_iff.mp none
      obtain ⟨-, -, above⟩ := Number.lt_iff.mp seen
      exact above.ne' same
    rw [roundOutput]
    rw [if_neg notNothing]
    exact seen
  · intro small
    obtain ⟨notNegative, below⟩ := hundredfold_le_belowHalf positive small
    have isNumber : (distance * 100).unpacked ≠ .notANumber := by
      obtain ⟨-, -, above⟩ := Number.lt_iff.mp positive
      rcases cases_of_rank_pos distance.representable_unpacked above with
        isInfinite | ⟨mantissa, exponent, some, same⟩
      · rw [unpacked_mul, isInfinite, unpacked_hundred]
        exact UnpackedFloat.noConfusion
      · exact (near_hundredfold (by rw [same]; rfl)).number
    obtain ⟨sign, isZero⟩ := round_of_small isNumber notNegative below
    rw [roundOutput]
    rw [if_pos (zero_div_hundred isZero)]

end Distances

end SlidePress.Style
