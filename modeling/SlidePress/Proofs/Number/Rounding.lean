import SlidePress.Proofs.Number.Ranks

/-! Rounding in arithmetic. A result is never rounded past a magnitude that binary64 has: whatever lies
on one side of the exact result does not come to lie on the other side of the rounded one. Where results
are compared with such magnitudes, this is all that is needed of rounding to the nearest. -/

namespace SlidePress.Binary64

open Float.Model UnpackedFloat

theorem size_shift (mantissa count : Nat) (exponent : Int) :
    size mantissa (exponent + count) = size (mantissa * 2 ^ count) exponent := by
  unfold size
  push_cast
  rw [zpow_add₀ two_ne_zero, zpow_natCast]
  ring

/-! ## Mantissas -/

theorem mantissa_shiftRight (extended : ExtendedMantissa) (count : Nat) :
    (extended >>> count).mantissa = extended.mantissa / 2 ^ count := by
  change (count.repeat ExtendedMantissa.shiftRightOne extended).mantissa = _
  induction count with
  | zero => rw [Nat.pow_zero, Nat.div_one]; rfl
  | succ count ih =>
      change (count.repeat ExtendedMantissa.shiftRightOne extended).mantissa / 2 = _
      rw [ih, Nat.div_div_eq_div_mul, Nat.pow_succ]

/-- Nothing is lost when zeros are cut off. -/
theorem shiftRight_exact {mantissa count : Nat} (divides : mantissa % 2 ^ count = 0) :
    (⟨mantissa, false, false⟩ : ExtendedMantissa) >>> count =
      ⟨mantissa / 2 ^ count, false, false⟩ := by
  change count.repeat ExtendedMantissa.shiftRightOne _ = _
  induction count with
  | zero => rw [Nat.pow_zero, Nat.div_one]; rfl
  | succ count ih =>
      have whole : mantissa % 2 ^ count = 0 :=
        Nat.mod_eq_zero_of_dvd ((pow_dvd_pow 2 (Nat.le_succ count)).trans (Nat.dvd_of_mod_eq_zero divides))
      have even : mantissa / 2 ^ count % 2 = 0 := by
        rw [← Nat.mod_mul_right_div_self, ← Nat.pow_succ, divides, Nat.zero_div]
      change (count.repeat ExtendedMantissa.shiftRightOne _).shiftRightOne = _
      rw [ih whole, ExtendedMantissa.shiftRightOne, even, Nat.div_div_eq_div_mul, ← Nat.pow_succ]
      rfl

theorem roundedMantissa_bounds (extended : ExtendedMantissa) :
    extended.mantissa ≤ extended.roundedMantissa ∧
      extended.roundedMantissa ≤ extended.mantissa + 1 := by
  obtain ⟨mantissa, first, others⟩ := extended
  cases first <;> cases others <;>
    simp [ExtendedMantissa.roundedMantissa, ExtendedMantissa.accuracy, Accuracy.roundToNearestEven]
  omega

theorem mantissa_ofMantissaAndAccuracy (mantissa : Nat) (accuracy : Accuracy) :
    (ExtendedMantissa.ofMantissaAndAccuracy mantissa accuracy).mantissa = mantissa := by
  cases accuracy with
  | exact => rfl
  | inexact side => cases side <;> rfl

/-! ## Rounding to the format -/

/-- The exponent at which a magnitude has as many digits as there can be. -/
def target (mantissa : Nat) (exponent : Int) : Int := max (mantissa.log2 + exponent - 52) (-1074)

theorem targetExponent_eq (mantissa : Nat) (exponent : Int) :
    Format.binary64.targetExponent (totalExponent mantissa exponent) = target mantissa exponent := by
  have digits : (Format.binary64.mantissaBits : Int) = 53 := rfl
  have least : Format.binary64.minExponent = -1074 := rfl
  unfold Format.targetExponent totalExponent target
  rw [digits, least]
  congr 1
  omega

theorem shiftToTargetExponent_eq (mantissa : Nat) (exponent : Int) (accuracy : Accuracy) :
    shiftToTargetExponent Format.binary64 mantissa exponent accuracy =
      (ExtendedMantissa.ofMantissaAndAccuracy mantissa accuracy >>>
          (target mantissa exponent - exponent).toNat,
        exponent + (target mantissa exponent - exponent).toNat) := by
  rw [shiftToTargetExponent, targetExponent_eq, shiftToExponent]

theorem shiftToTargetExponent_small {mantissa : Nat} {exponent : Int} (short : mantissa < 2 ^ 53)
    (least : -1074 ≤ exponent) :
    shiftToTargetExponent Format.binary64 mantissa exponent .exact =
      (⟨mantissa, false, false⟩, exponent) := by
  have digits : mantissa.log2 ≤ 52 := by
    rcases Nat.eq_zero_or_pos mantissa with rfl | positive
    · decide
    · exact Nat.le_of_lt_succ ((Nat.log2_lt (by omega)).mpr short)
  have still : (target mantissa exponent - exponent).toNat = 0 := by
    unfold target
    omega
  rw [shiftToTargetExponent_eq, still]
  simp only [Nat.cast_zero, Int.add_zero]
  rfl

theorem shiftToTargetExponent_carry {exponent : Int} (least : -1074 ≤ exponent) :
    shiftToTargetExponent Format.binary64 (2 ^ 53) exponent .exact =
      (⟨2 ^ 52, false, false⟩, exponent + 1) := by
  have one : (target (2 ^ 53) exponent - exponent).toNat = 1 := by
    unfold target
    rw [Nat.log2_two_pow]
    omega
  rw [shiftToTargetExponent_eq, one]
  rfl

inductive HasPlace (sign : Sign) : UnpackedFloat → Int → Prop where
  | zero : HasPlace sign (.zero sign) 0
  | finite {mantissa : Nat} {exponent : Int} (positive : 0 < mantissa)
      (canonical : Canonical mantissa exponent) :
      HasPlace sign (.finite sign mantissa exponent positive) (place mantissa exponent)

section Rounding

variable {sign : Sign} {mantissa : Nat} {exponent : Int} {accuracy : Accuracy}

def kept (mantissa : Nat) (exponent : Int) : Nat :=
  mantissa / 2 ^ (target mantissa exponent - exponent).toNat

/-- A mantissa with enough digits, or at the least exponent, is only ever cut. -/
theorem fits_of_full (full : exponent ≤ -1074 ∨ 2 ^ 52 ≤ mantissa) : exponent ≤ target mantissa exponent := by
  unfold target
  rcases full with low | full
  · omega
  · have digits : 52 ≤ mantissa.log2 := (Nat.le_log2 (by omega)).mpr full
    omega

theorem kept_lt (mantissa : Nat) (exponent : Int) : kept mantissa exponent < 2 ^ 53 := by
  have enough : mantissa.log2 + 1 ≤ 53 + (target mantissa exponent - exponent).toNat := by
    unfold target
    omega
  rw [kept, Nat.div_lt_iff_lt_mul (by positivity), ← Nat.pow_add]
  exact Nat.lt_log2_self.trans_le (Nat.pow_le_pow_right (by decide) enough)

theorem kept_full (fits : exponent ≤ target mantissa exponent) :
    2 ^ 52 ≤ kept mantissa exponent ∨ target mantissa exponent = -1074 := by
  by_cases least : target mantissa exponent = -1074
  · exact .inr least
  · left
    have digits : mantissa.log2 = 52 + (target mantissa exponent - exponent).toNat := by
      unfold target at fits least ⊢
      omega
    have some : mantissa ≠ 0 := by
      rintro rfl
      rw [Nat.log2_zero] at digits
      omega
    rw [kept, Nat.le_div_iff_mul_le (by positivity), ← Nat.pow_add, ← digits]
    exact Nat.log2_self_le some

theorem size_eq_at_target (fits : exponent ≤ target mantissa exponent) (number : Nat) :
    size number (target mantissa exponent) =
      size (number * 2 ^ (target mantissa exponent - exponent).toNat) exponent := by
  rw [← size_shift]
  congr 1
  omega

theorem size_kept_le (fits : exponent ≤ target mantissa exponent) :
    size (kept mantissa exponent) (target mantissa exponent) ≤ size mantissa exponent := by
  rw [size_eq_at_target fits, size_le_iff_mantissa]
  exact Nat.div_mul_le_self _ _

theorem size_succ_le_kept (fits : exponent ≤ target mantissa exponent) :
    size (mantissa + 1) exponent ≤ size (kept mantissa exponent + 1) (target mantissa exponent) := by
  rw [size_eq_at_target fits, size_le_iff_mantissa]
  exact Nat.lt_mul_of_div_lt (Nat.lt_succ_self _) (by positivity)

def withSign (sign : Sign) (shifted : ExtendedMantissa × Int) : UnpackedFloat :=
  if none : shifted.1.mantissa = 0 then .zero sign
  else .finite sign shifted.1.mantissa shifted.2 (Nat.pos_of_ne_zero none)

theorem roundWithAccuracy_eq (sign : Sign) (mantissa : Nat) (exponent : Int) (accuracy : Accuracy) :
    roundWithAccuracy Format.binary64 sign mantissa exponent accuracy =
      withSign sign (shiftToTargetExponent Format.binary64
        (shiftToTargetExponent Format.binary64 mantissa exponent accuracy).1.roundedMantissa
        (shiftToTargetExponent Format.binary64 mantissa exponent accuracy).2 .exact) := rfl

/-- A rounded mantissa once a carry is taken up. -/
theorem hasPlace_carried (sign : Sign) (short : mantissa ≤ 2 ^ 53) (least : -1074 ≤ exponent)
    (full : 2 ^ 52 ≤ mantissa ∨ exponent = -1074) :
    HasPlace sign (withSign sign (shiftToTargetExponent Format.binary64 mantissa exponent .exact))
      (place mantissa exponent) := by
  rcases Nat.lt_or_eq_of_le short with small | rfl
  · rw [shiftToTargetExponent_small small least]
    unfold withSign
    split
    · rename_i none
      have zero : mantissa = 0 := none
      have low : exponent = -1074 := full.resolve_left (by omega)
      rw [zero, low]
      exact .zero
    · exact .finite _ ⟨small, least, full⟩
  · have next : place (2 ^ 53) exponent = place (2 ^ 52) (exponent + 1) := by
      unfold place
      push_cast
      ring
    have some : 2 ^ 52 ≠ 0 := by decide
    have canonical : Canonical (2 ^ 52) (exponent + 1) := ⟨by decide, by omega, .inl (Nat.le_refl _)⟩
    rw [shiftToTargetExponent_carry least, next, withSign, dif_neg some]
    exact .finite _ canonical

/-- Rounding gives a value at the place of what is kept, or the next one. -/
theorem exists_place (sign : Sign) (accuracy : Accuracy) (fits : exponent ≤ target mantissa exponent) :
    ∃ rounded, HasPlace sign (roundWithAccuracy Format.binary64 sign mantissa exponent accuracy)
        (place rounded (target mantissa exponent)) ∧
      kept mantissa exponent ≤ rounded ∧ rounded ≤ kept mantissa exponent + 1 ∧
      (accuracy = .exact → mantissa % 2 ^ (target mantissa exponent - exponent).toNat = 0 →
        rounded = kept mantissa exponent) := by
  have same : exponent + (target mantissa exponent - exponent).toNat = target mantissa exponent := by
    omega
  -- The first shift brings the mantissa to the target, the second one takes up a carry.
  generalize shifted : ExtendedMantissa.ofMantissaAndAccuracy mantissa accuracy >>>
    (target mantissa exponent - exponent).toNat = extended
  have own : extended.mantissa = kept mantissa exponent := by
    rw [← shifted, mantissa_shiftRight, mantissa_ofMantissaAndAccuracy, kept]
  obtain ⟨lower, upper⟩ := roundedMantissa_bounds extended
  rw [own] at lower upper
  refine ⟨extended.roundedMantissa, ?_, lower, upper, fun isExact divides => ?_⟩
  · rw [roundWithAccuracy_eq, shiftToTargetExponent_eq mantissa exponent, shifted, same]
    exact hasPlace_carried sign (upper.trans (kept_lt mantissa exponent)) (le_max_right _ _)
      ((kept_full fits).imp (·.trans lower) id)
  · rw [isExact] at shifted
    rw [← shifted]
    exact congrArg ExtendedMantissa.roundedMantissa (shiftRight_exact divides)

/-- What a mantissa with an accuracy says of the exact magnitude. -/
structure Approximates (mantissa : Nat) (exponent : Int) (accuracy : Accuracy) (exact : ℚ) : Prop where
  lower : size mantissa exponent ≤ exact
  upper : exact < size (mantissa + 1) exponent
  strict : accuracy ≠ .exact → size mantissa exponent < exact

theorem approximates_exact (mantissa : Nat) (exponent : Int) :
    Approximates mantissa exponent .exact (size mantissa exponent) where
  lower := le_refl _
  upper := by
    rw [← not_le, size_le_iff_mantissa]
    omega
  strict inexact := (inexact rfl).elim

theorem canonical_kept (fits : exponent ≤ target mantissa exponent) :
    Canonical (kept mantissa exponent) (target mantissa exponent) :=
  ⟨kept_lt mantissa exponent, le_max_right _ _, kept_full fits⟩

/-- Where the exact magnitude is the one that is kept, nothing was cut off. -/
theorem Approximates.eq_kept {exact : ℚ} (approximates : Approximates mantissa exponent accuracy exact)
    (fits : exponent ≤ target mantissa exponent)
    (equal : exact = size (kept mantissa exponent) (target mantissa exponent)) :
    accuracy = .exact ∧ mantissa % 2 ^ (target mantissa exponent - exponent).toNat = 0 := by
  subst equal
  constructor
  · by_contra inexact
    exact (approximates.strict inexact).not_ge (size_kept_le fits)
  · have most := approximates.lower
    rw [size_eq_at_target fits, size_le_iff_mantissa] at most
    have product : mantissa = kept mantissa exponent * _ :=
      Nat.le_antisymm most (Nat.div_mul_le_self _ _)
    exact Nat.mod_eq_zero_of_dvd ⟨_, product.trans (Nat.mul_comm _ _)⟩

/-- A magnitude that is not above the exact one is not above the rounded one, and one that is not below
the exact one is not below the rounded one. -/
theorem exists_faithful (sign : Sign) (fits : exponent ≤ target mantissa exponent) {exact : ℚ}
    (approximates : Approximates mantissa exponent accuracy exact) :
    ∃ position, HasPlace sign (roundWithAccuracy Format.binary64 sign mantissa exponent accuracy)
        position ∧
      (∀ {mantissa' exponent'}, Canonical mantissa' exponent' →
        size mantissa' exponent' ≤ exact → place mantissa' exponent' ≤ position) ∧
      (∀ {mantissa' exponent'}, Canonical mantissa' exponent' →
        exact ≤ size mantissa' exponent' → position ≤ place mantissa' exponent') := by
  obtain ⟨rounded, placed, lower, upper, whole⟩ := exists_place sign accuracy fits
  have own := canonical_kept fits
  have above : exact < size (kept mantissa exponent + 1) (target mantissa exponent) :=
    approximates.upper.trans_le (size_succ_le_kept fits)
  have below : size (kept mantissa exponent) (target mantissa exponent) ≤ exact :=
    (size_kept_le fits).trans approximates.lower
  refine ⟨_, placed, fun {mantissa' exponent'} canonical notAbove => ?_,
    fun {mantissa' exponent'} canonical notBelow => ?_⟩
  · have notBehind : ¬ place (kept mantissa exponent) (target mantissa exponent) <
        place mantissa' exponent' :=
      fun less => (notAbove.trans_lt above).not_ge (size_succ_le own canonical less)
    unfold place at notBehind ⊢
    omega
  · have places := (size_le_iff own canonical).mp (below.trans notBelow)
    rcases below.lt_or_eq with less | equal
    · have before : ¬ place mantissa' exponent' ≤
          place (kept mantissa exponent) (target mantissa exponent) :=
        fun atMost => (less.trans_le notBelow).not_ge ((size_le_iff canonical own).mpr atMost)
      unfold place at before ⊢
      omega
    · obtain ⟨isExact, divides⟩ := approximates.eq_kept fits equal.symm
      rw [whole isExact divides]
      exact places

end Rounding

/-! ## Values with signs -/

def amount : UnpackedFloat → ℚ
  | .finite sign mantissa exponent _ => (sign.apply mantissa : ℤ) * 2 ^ exponent
  | _ => 0

section Signs

variable {mantissa : Nat} {exponent : Int}

theorem amount_positive (some : 0 < mantissa) :
    amount (.finite .positive mantissa exponent some) = size mantissa exponent := by
  rw [amount, Sign.apply, Int.cast_natCast, size]

theorem amount_negative (some : 0 < mantissa) :
    amount (.finite .negative mantissa exponent some) = -size mantissa exponent := by
  rw [amount, Sign.apply, Int.cast_neg, Int.cast_natCast, neg_mul, size]

theorem size_pos (some : 0 < mantissa) : 0 < size mantissa exponent := by
  unfold size
  positivity

theorem place_pos (some : 0 < mantissa) (canonical : Canonical mantissa exponent) :
    0 < place mantissa exponent := by
  have least := canonical.least
  unfold place
  omega

end Signs

theorem amount_neg (value : UnpackedFloat) : amount value.neg = -amount value := by
  cases value with
  | finite sign mantissa exponent some =>
      cases sign with
      | negative => exact (amount_positive some).trans (by rw [amount_negative, neg_neg])
      | positive => exact (amount_negative some).trans (by rw [amount_positive])
  | _ => exact neg_zero.symm

theorem rank_neg (value : UnpackedFloat) : rank value.neg = -rank value := by
  cases value with
  | finite sign mantissa exponent some =>
      cases sign with
      | negative => exact (Int.neg_neg _).symm
      | positive => rfl
  | infinity sign => cases sign <;> rfl
  | _ => rfl

theorem Representable.neg {value : UnpackedFloat} (representable : Representable value) :
    Representable value.neg := by
  cases value <;> exact representable

def signed : Sign → ℚ → ℚ
  | .positive, exact => exact
  | .negative, exact => -exact

theorem amount_finite (sign : Sign) {mantissa : Nat} {exponent : Int} (some : 0 < mantissa) :
    amount (.finite sign mantissa exponent some) = signed sign (size mantissa exponent) := by
  cases sign with
  | negative => exact amount_negative some
  | positive => exact amount_positive some

@[simp] theorem amount_zero (sign : Sign) : amount (.zero sign) = 0 := rfl

theorem canonical_zero : Canonical 0 (-1074) := ⟨by decide, by decide, .inr rfl⟩

theorem size_zero (exponent : Int) : size 0 exponent = 0 := by rw [size, Nat.cast_zero, zero_mul]

/-- A finite value is a magnitude with a sign, in its place and in what it stands for. -/
theorem exists_magnitude {value : UnpackedFloat} (representable : Representable value)
    (isFinite : value.isFinite = true) : ∃ (sign : Sign) (mantissa : Nat) (exponent : Int),
      Canonical mantissa exponent ∧ place mantissa exponent < top ∧
      rank value = sign.apply (place mantissa exponent) ∧
      amount value = signed sign (size mantissa exponent) := by
  cases value with
  | notANumber => cases isFinite
  | infinity sign => cases isFinite
  | zero sign => exact ⟨.positive, 0, -1074, canonical_zero, by decide, rfl, (size_zero _).symm⟩
  | finite sign mantissa exponent some =>
      exact ⟨sign, mantissa, exponent, representable.1, (place_bounds some representable).2, rfl,
        amount_finite sign some⟩

section Order

variable {mantissa mantissa' : Nat} {exponent exponent' : Int} (canonical : Canonical mantissa exponent)
include canonical

theorem place_nonneg : 0 ≤ place mantissa exponent := by
  have least := canonical.least
  unfold place
  omega

theorem size_le_zero_iff : size mantissa exponent ≤ 0 ↔ place mantissa exponent ≤ 0 := by
  have order := size_le_iff canonical canonical_zero
  rwa [size_zero] at order

theorem signed_le_iff (canonicalToo : Canonical mantissa' exponent') (sign other : Sign) :
    sign.apply (place mantissa exponent) ≤ other.apply (place mantissa' exponent') ↔
      signed sign (size mantissa exponent) ≤ signed other (size mantissa' exponent') := by
  have nonneg := place_nonneg canonical
  have nonnegToo := place_nonneg canonicalToo
  have sizes := size_nonneg mantissa exponent
  have sizesToo := size_nonneg mantissa' exponent'
  cases sign with
  | negative =>
      cases other with
      | negative => exact Int.neg_le_neg_iff.trans ((size_le_iff canonicalToo canonical).symm.trans
          neg_le_neg_iff.symm)
      | positive =>
          simp only [Sign.apply, signed]
          exact iff_of_true (by omega) (by linarith)
  | positive =>
      cases other with
      | negative =>
          -- A number of each sign: both are zero.
          have least := size_le_zero_iff canonical
          have leastToo := size_le_zero_iff canonicalToo
          simp only [Sign.apply, signed]
          constructor
          · intro atMost
            linarith [least.mpr (by omega), leastToo.mpr (by omega)]
          · intro atMost
            have first := least.mp (by linarith)
            have second := leastToo.mp (by linarith)
            omega
      | positive => exact (size_le_iff canonical canonicalToo).symm

end Order

/-- Finite values follow each other as the rational numbers that they stand for. -/
theorem rank_le_iff {first second : UnpackedFloat} (representable : Representable first)
    (representableToo : Representable second) (isFinite : first.isFinite = true)
    (isFiniteToo : second.isFinite = true) : rank first ≤ rank second ↔ amount first ≤ amount second := by
  obtain ⟨sign, mantissa, exponent, canonical, -, place, size⟩ := exists_magnitude representable isFinite
  obtain ⟨other, mantissa', exponent', canonicalToo, -, placeToo, sizeToo⟩ :=
    exists_magnitude representableToo isFiniteToo
  rw [place, size, placeToo, sizeToo]
  exact signed_le_iff canonical canonicalToo sign other

theorem signed_mul (sign other : Sign) (first second : ℚ) :
    signed (sign * other) (first * second) = signed sign first * signed other second := by
  cases sign <;> cases other
  · exact (neg_mul_neg _ _).symm
  · exact (neg_mul _ _).symm
  · exact (mul_neg _ _).symm
  · rfl

/-- A value that is no further from an exact number than any finite value on either side of it. -/
structure Near (exact : ℚ) (value : UnpackedFloat) : Prop where
  number : value ≠ .notANumber
  above : ∀ {other}, Representable other → other.isFinite = true → amount other ≤ exact →
    rank other ≤ rank value
  below : ∀ {other}, Representable other → other.isFinite = true → exact ≤ amount other →
    rank value ≤ rank other

theorem Near.neg {exact : ℚ} {value : UnpackedFloat} (near : Near exact value) :
    Near (-exact) value.neg where
  number same := by
    cases value with
    | notANumber => exact near.number rfl
    | _ => cases same
  above {other} representable isFinite notAbove := by
    have finite : other.neg.isFinite = true := by cases other <;> exact isFinite
    have bound := near.below representable.neg finite (by rw [amount_neg]; linarith)
    rw [rank_neg] at bound ⊢
    omega
  below {other} representable isFinite notBelow := by
    have finite : other.neg.isFinite = true := by cases other <;> exact isFinite
    have bound := near.above representable.neg finite (by rw [amount_neg]; linarith)
    rw [rank_neg] at bound ⊢
    omega

theorem near_self {value : UnpackedFloat} (representable : Representable value)
    (isFinite : value.isFinite = true) : Near (amount value) value where
  number same := by
    rw [same] at isFinite
    cases isFinite
  above other finite notAbove := (rank_le_iff other representable finite isFinite).mpr notAbove
  below other finite notBelow := (rank_le_iff representable other isFinite finite).mpr notBelow

theorem capped_of_representable {value : UnpackedFloat} (representable : Representable value) :
    capped value = value := by
  cases value with
  | finite sign mantissa exponent positive => exact if_pos representable.2
  | _ => rfl

section Packing

variable {sign : Sign} {value : UnpackedFloat} {position : Int}

theorem HasPlace.nonneg (placed : HasPlace sign value position) : 0 ≤ position := by
  cases placed with
  | zero => exact Int.le_refl 0
  | finite positive canonical => exact (place_pos positive canonical).le

theorem HasPlace.unpack_pack (placed : HasPlace sign value position) :
    (Float.Model.pack value).unpack = capped value := by
  cases placed with
  | zero => exact unpack_packedZero
  | finite positive canonical => exact unpack_pack_finite sign positive canonical

theorem HasPlace.capped_ne (placed : HasPlace sign value position) : capped value ≠ .notANumber := by
  cases placed with
  | zero => exact UnpackedFloat.noConfusion
  | finite positive canonical =>
      rw [capped]
      split <;> exact UnpackedFloat.noConfusion

theorem HasPlace.rank_capped (placed : HasPlace sign value position) :
    rank (capped value) = sign.apply (min position top) := by
  cases placed with
  | zero =>
      have least : min 0 top = 0 := by decide
      rw [least]
      cases sign <;> rfl
  | @finite mantissa exponent positive canonical =>
      have short := canonical.short
      rw [capped]
      split
      · rename_i inRange
        rw [min_eq_left (place_bounds positive ⟨canonical, inRange⟩).2.le, rank]
      · rename_i beyond
        have full : 2 ^ 52 ≤ mantissa := canonical.full.resolve_right (by omega)
        have least : top ≤ place mantissa exponent := by
          unfold top place
          omega
        rw [min_eq_right least, rank]

theorem neg_neg_value (value : UnpackedFloat) : value.neg.neg = value := by
  cases value with
  | finite side mantissa exponent some => cases side <;> rfl
  | infinity side => cases side <;> rfl
  | zero side => cases side <;> rfl
  | notANumber => rfl

/-- A rounded magnitude with a sign, once it is packed. -/
theorem near_of_place {exact : ℚ} (placed : HasPlace sign value position) (notNegative : 0 ≤ exact)
    (above : ∀ {mantissa exponent}, Canonical mantissa exponent → size mantissa exponent ≤ exact →
      place mantissa exponent ≤ position)
    (below : ∀ {mantissa exponent}, Canonical mantissa exponent → exact ≤ size mantissa exponent →
      position ≤ place mantissa exponent) :
    Near (signed sign exact) (Float.Model.pack value).unpack := by
  rw [placed.unpack_pack]
  have nonneg := placed.nonneg
  have topPositive : 0 < top := by decide
  -- Both signs follow from the magnitude alone.
  have magnitude : ∀ {value}, value ≠ .notANumber → rank value = min position top → Near exact value := by
    intro value number same
    refine ⟨number, fun {other} representable isFinite notAbove => ?_,
      fun {other} representable isFinite notBelow => ?_⟩
    · obtain ⟨side, mantissa, exponent, canonical, less, ranked, sized⟩ :=
        exists_magnitude representable isFinite
      rw [ranked, same]
      rw [sized] at notAbove
      have least := place_nonneg canonical
      cases side with
      | negative => exact (Int.neg_nonpos_of_nonneg least).trans (le_min nonneg topPositive.le)
      | positive => exact le_min (above canonical notAbove) less.le
    · obtain ⟨side, mantissa, exponent, canonical, -, ranked, sized⟩ :=
        exists_magnitude representable isFinite
      rw [ranked, same]
      rw [sized] at notBelow
      refine (min_le_left _ _).trans ?_
      cases side with
      | negative =>
          simp only [Sign.apply, signed] at notBelow ⊢
          have none := (size_le_zero_iff canonical).mp (by linarith)
          have atMost := below canonical (by linarith [size_nonneg mantissa exponent])
          omega
      | positive => exact below canonical notBelow
  have ranked := placed.rank_capped
  have number := placed.capped_ne
  cases sign with
  | positive => exact magnitude number ranked
  | negative =>
      have numberToo : (capped value).neg ≠ .notANumber := by
        intro same
        have twice := neg_neg_value (capped value)
        rw [same] at twice
        exact number twice.symm
      have back := magnitude numberToo (by rw [rank_neg, ranked]; exact Int.neg_neg _)
      exact neg_neg_value (capped value) ▸ back.neg

end Packing

/-! ## Operations -/

theorem near_zero (sign : Sign) : Near 0 (Float.Model.pack (.zero sign)).unpack := by
  have same : (Float.Model.pack (.zero sign)).unpack = .zero sign := unpack_packedZero
  rw [same]
  exact near_self (show Representable (.zero sign) from trivial) rfl

theorem near_packed {value : UnpackedFloat} (representable : Representable value)
    (isFinite : value.isFinite = true) : Near (amount value) (Float.Model.pack value).unpack := by
  have same : (Float.Model.pack value).unpack = value := by
    refine (unpack_pack fun sign mantissa exponent positive isFinite => ?_).trans
      (capped_of_representable representable)
    rw [isFinite] at representable
    exact representable.1
  rw [same]
  exact near_self representable isFinite

theorem near_roundWithAccuracy {mantissa : Nat} {exponent : Int} {accuracy : Accuracy} {exact : ℚ}
    (sign : Sign) (fits : exponent ≤ target mantissa exponent)
    (approximates : Approximates mantissa exponent accuracy exact) :
    Near (signed sign exact)
      (Float.Model.pack (roundWithAccuracy Format.binary64 sign mantissa exponent accuracy)).unpack := by
  obtain ⟨position, placed, above, below⟩ := exists_faithful sign fits approximates
  exact near_of_place placed ((size_nonneg _ _).trans approximates.lower) above below

theorem size_decreaseExponent (mantissa : Nat) (exponent target : Int) :
    size (decreaseExponent mantissa exponent target).1 (decreaseExponent mantissa exponent target).2 =
      size mantissa exponent := by
  rw [decreaseExponent, Nat.shiftLeft_eq, ← size_shift]
  congr 1
  omega

theorem near_round {mantissa : Nat} (some : 0 < mantissa) (exponent : Int) (sign : Sign) :
    Near (signed sign (size mantissa exponent))
      (Float.Model.pack (UnpackedFloat.round Format.binary64 sign mantissa exponent)).unpack := by
  rw [UnpackedFloat.round, targetExponent_eq]
  have same := size_decreaseExponent mantissa exponent (target mantissa exponent)
  have fits : (decreaseExponent mantissa exponent (target mantissa exponent)).2 ≤
      target (decreaseExponent mantissa exponent (target mantissa exponent)).1
        (decreaseExponent mantissa exponent (target mantissa exponent)).2 := by
    have digits : (mantissa <<< (exponent - target mantissa exponent).toNat).log2 =
        mantissa.log2 + (exponent - target mantissa exponent).toNat := by
      refine (Nat.log2_eq_iff (by rw [Nat.shiftLeft_eq]; positivity)).mpr ⟨?_, ?_⟩
      · rw [Nat.shiftLeft_eq, Nat.pow_add]
        exact Nat.mul_le_mul_right _ (Nat.log2_self_le (by omega))
      · rw [Nat.shiftLeft_eq, Nat.add_right_comm, Nat.pow_add]
        exact Nat.mul_lt_mul_of_pos_right Nat.lt_log2_self (by positivity)
    simp only [decreaseExponent]
    unfold target at digits ⊢
    rw [digits]
    omega
  rw [← same]
  exact near_roundWithAccuracy sign fits (approximates_exact _ _)

theorem near_normalize (mantissa exponent : Int) (zeroSign : Sign) :
    Near (mantissa * 2 ^ exponent)
      (Float.Model.pack (UnpackedFloat.normalize Format.binary64 mantissa exponent zeroSign)).unpack := by
  unfold UnpackedFloat.normalize
  split
  · rename_i negative
    have less : mantissa < 0 := compare_lt_iff_lt.mp negative
    have magnitude : ((-mantissa).toNat : ℚ) = -mantissa := by
      rw [← Int.cast_natCast, Int.toNat_of_nonneg (by omega), Int.cast_neg]
    have near := near_round (show 0 < (-mantissa).toNat by omega) exponent .negative
    rwa [signed, size, magnitude, neg_mul, neg_neg] at near
  · rename_i none
    rw [compare_eq_iff_eq.mp none, Int.cast_zero, zero_mul]
    exact near_zero zeroSign
  · rename_i positive
    have greater : 0 < mantissa := compare_gt_iff_gt.mp positive
    have magnitude : (mantissa.toNat : ℚ) = mantissa := by
      rw [← Int.cast_natCast, Int.toNat_of_nonneg (by omega)]
    have near := near_round (show 0 < mantissa.toNat by omega) exponent .positive
    rwa [signed, size, magnitude] at near

theorem amount_aligned {exponent target : Int} (least : target ≤ exponent) (sign : Sign)
    (mantissa : Nat) :
    ((sign.apply (decreaseExponent mantissa exponent target).1 : Int) : ℚ) * 2 ^ target =
      (sign.apply mantissa : Int) * 2 ^ exponent := by
  have same := size_decreaseExponent mantissa exponent target
  have reached : (decreaseExponent mantissa exponent target).2 = target := by
    simp only [decreaseExponent]
    omega
  rw [reached, size, size] at same
  cases sign with
  | negative =>
      simp only [Sign.apply, Int.cast_neg, Int.cast_natCast, neg_mul]
      rw [same]
  | positive => simpa only [Sign.apply, Int.cast_natCast] using same

/-- A difference is a sum with the second value turned around. -/
theorem sub_eq_add (first second : UnpackedFloat) :
    UnpackedFloat.sub Format.binary64 first second =
      UnpackedFloat.add Format.binary64 first second.neg := by
  have turned : ∀ (sign other : Sign) (mantissa mantissa' : Nat),
      sign.apply mantissa - other.apply mantissa' = sign.apply mantissa + (-other).apply mantissa' := by
    intro sign other mantissa mantissa'
    cases other with
    | negative => exact Int.sub_neg _ _
    | positive => exact Int.sub_eq_add_neg
  cases first with
  | finite sign mantissa exponent some =>
      cases second with
      | finite other mantissa' exponent' some' =>
          exact congrArg (UnpackedFloat.normalize Format.binary64 · _ _) (turned _ _ _ _)
      | _ => rfl
  | _ => cases second <;> rfl

section Operations

variable {first second : UnpackedFloat} (representable : Representable first)
  (representableToo : Representable second) (isFinite : first.isFinite = true)
  (isFiniteToo : second.isFinite = true)

include representable representableToo isFinite isFiniteToo

theorem near_add :
    Near (amount first + amount second)
      (Float.Model.pack (UnpackedFloat.add Format.binary64 first second)).unpack := by
  cases first with
  | notANumber => cases isFinite
  | infinity sign => cases isFinite
  | zero sign =>
      rw [amount_zero, zero_add]
      cases second with
      | notANumber => cases isFiniteToo
      | infinity other => cases isFiniteToo
      | zero other => cases sign <;> cases other <;> exact near_zero _
      | finite other mantissa exponent some => exact near_packed representableToo isFiniteToo
  | finite sign mantissa exponent some =>
      cases second with
      | notANumber => cases isFiniteToo
      | infinity other => cases isFiniteToo
      | zero other =>
          rw [amount_zero, add_zero]
          exact near_packed representable isFinite
      | finite other mantissa' exponent' some' =>
          have near := near_normalize
            (sign.apply (decreaseExponent mantissa exponent (min exponent exponent')).1 +
              other.apply (decreaseExponent mantissa' exponent' (min exponent exponent')).1)
            (min exponent exponent') .positive
          rw [Int.cast_add, add_mul, amount_aligned (min_le_left _ _),
            amount_aligned (min_le_right _ _)] at near
          exact near

theorem near_mul :
    Near (amount first * amount second)
      (Float.Model.pack (UnpackedFloat.mul Format.binary64 first second)).unpack := by
  cases first with
  | notANumber => cases isFinite
  | infinity sign => cases isFinite
  | zero sign =>
      rw [amount_zero, zero_mul]
      cases second with
      | notANumber => cases isFiniteToo
      | infinity other => cases isFiniteToo
      | zero other => exact near_zero _
      | finite other mantissa exponent some => exact near_zero _
  | finite sign mantissa exponent some =>
      cases second with
      | notANumber => cases isFiniteToo
      | infinity other => cases isFiniteToo
      | zero other =>
          rw [amount_zero, mul_zero]
          exact near_zero _
      | finite other mantissa' exponent' some' =>
          have full : exponent + exponent' ≤ -1074 ∨ 2 ^ 52 ≤ mantissa * mantissa' := by
            rcases representable.1.full with full | least
            · exact .inr (full.trans (Nat.le_mul_of_pos_right _ some'))
            · rcases representableToo.1.full with full | leastToo
              · exact .inr (full.trans (Nat.le_mul_of_pos_left _ some))
              · left
                omega
          have product : size (mantissa * mantissa') (exponent + exponent') =
              size mantissa exponent * size mantissa' exponent' := by
            unfold size
            rw [zpow_add₀ two_ne_zero]
            push_cast
            ring
          have near := near_roundWithAccuracy (sign * other) (fits_of_full full)
            (approximates_exact _ _)
          rw [product] at near
          rw [amount_finite, amount_finite, ← signed_mul]
          exact near

theorem near_sub :
    Near (amount first - amount second)
      (Float.Model.pack (UnpackedFloat.sub Format.binary64 first second)).unpack := by
  have finite : second.neg.isFinite = true := by cases second <;> exact isFiniteToo
  have near := near_add representable representableToo.neg isFinite finite
  rw [amount_neg, ← sub_eq_add_neg] at near
  rwa [sub_eq_add]

end Operations

/-! ## Quotients -/

section Quotients

variable (numerator denominator : Nat) (order order' : Int)

def quotientTarget : Int :=
  min (order - order')
    (max (numerator.log2 + order - (denominator.log2 + order') - 53) (-1074))

/-- The numerator with enough digits for the quotient. -/
def widened : Nat :=
  numerator * 2 ^ (order - order' - quotientTarget numerator denominator order order').toNat

theorem divCore_eq :
    divCore Format.binary64 numerator order denominator order' =
      (widened numerator denominator order order' / denominator,
        quotientTarget numerator denominator order order',
        accuracyOfFraction (widened numerator denominator order order' % denominator) denominator) := by
  have digits : (Format.binary64.mantissaBits : Int) = 53 := rfl
  have least : Format.binary64.minExponent = -1074 := rfl
  have same : Format.binary64.targetExponent
      (totalExponent numerator order - totalExponent denominator order') =
        max (numerator.log2 + order - (denominator.log2 + order') - 53) (-1074) := by
    unfold Format.targetExponent totalExponent
    rw [digits, least]
    congr 1
    omega
  rw [divCore, same, ← quotientTarget, Nat.shiftLeft_eq, ← widened]

variable {numerator denominator order order'}

theorem size_widened (someToo : 0 < denominator) : size (widened numerator denominator order order')
    (quotientTarget numerator denominator order order') =
      size numerator order / size denominator order' * denominator := by
  have reached : order - order' = quotientTarget numerator denominator order order' +
      (order - order' - quotientTarget numerator denominator order order').toNat := by
    have notAbove : quotientTarget numerator denominator order order' ≤ order - order' :=
      min_le_left _ _
    omega
  rw [widened, ← size_shift, ← reached]
  have positive : (denominator : ℚ) ≠ 0 := by exact_mod_cast someToo.ne'
  unfold size
  rw [zpow_sub₀ two_ne_zero]
  field_simp

theorem fits_quotient (some : 0 < numerator) (someToo : 0 < denominator) :
    quotientTarget numerator denominator order order' ≤
    target (widened numerator denominator order order' / denominator)
      (quotientTarget numerator denominator order order') := by
  refine fits_of_full ?_
  by_cases low : quotientTarget numerator denominator order order' ≤ -1074
  · exact .inl low
  · right
    have enough : denominator.log2 + 1 + 52 ≤ numerator.log2 +
        (order - order' - quotientTarget numerator denominator order order').toNat := by
      unfold quotientTarget at low ⊢
      omega
    have numeratorDigits : 2 ^ numerator.log2 ≤ numerator := Nat.log2_self_le (by omega)
    have denominatorDigits : denominator < 2 ^ (denominator.log2 + 1) := Nat.lt_log2_self
    rw [Nat.le_div_iff_mul_le someToo]
    calc 2 ^ 52 * denominator
        ≤ 2 ^ 52 * 2 ^ (denominator.log2 + 1) := Nat.mul_le_mul_left _ denominatorDigits.le
      _ = 2 ^ (denominator.log2 + 1 + 52) := by rw [← Nat.pow_add, Nat.add_comm]
      _ ≤ 2 ^ (numerator.log2 + _) := Nat.pow_le_pow_right (by decide) enough
      _ ≤ widened numerator denominator order order' := by
          rw [Nat.pow_add, widened]
          exact Nat.mul_le_mul_right _ numeratorDigits

theorem approximates_quotient (someToo : 0 < denominator) :
    Approximates (widened numerator denominator order order' / denominator)
      (quotientTarget numerator denominator order order')
      (accuracyOfFraction (widened numerator denominator order order' % denominator) denominator)
      (size numerator order / size denominator order') := by
  have positive : (0 : ℚ) < denominator := by exact_mod_cast someToo
  have times : ∀ count exponent, size count exponent * denominator =
      size (count * denominator) exponent := by
    intro count exponent
    unfold size
    push_cast
    ring
  have whole := @size_widened numerator denominator order order' someToo
  have split := Nat.div_add_mod (widened numerator denominator order order') denominator
  have small := Nat.mod_lt (widened numerator denominator order order') someToo
  refine ⟨?_, ?_, fun inexact => ?_⟩
  · rw [← mul_le_mul_iff_left₀ positive, times, ← whole, size_le_iff_mantissa]
    exact Nat.div_mul_le_self _ _
  · rw [← mul_lt_mul_iff_left₀ positive, times, ← whole, ← not_le, size_le_iff_mantissa, not_le]
    rw [Nat.add_mul, Nat.one_mul, Nat.mul_comm]
    omega
  · have rest : widened numerator denominator order order' % denominator ≠ 0 := by
      intro none
      rw [accuracyOfFraction, if_pos none] at inexact
      exact inexact rfl
    rw [← mul_lt_mul_iff_left₀ positive, times, ← whole, ← not_le, size_le_iff_mantissa, not_le,
      Nat.mul_comm]
    omega

end Quotients

theorem signed_div (sign other : Sign) (first second : ℚ) :
    signed (sign / other) (first / second) = signed sign first / signed other second := by
  cases sign <;> cases other
  · exact (neg_div_neg_eq _ _).symm
  · exact (neg_div _ _).symm
  · exact (div_neg _).symm
  · rfl

theorem near_div {first second : UnpackedFloat} (isFinite : first.isFinite = true)
    (some : amount second ≠ 0) :
    Near (amount first / amount second)
      (Float.Model.pack (UnpackedFloat.div Format.binary64 first second)).unpack := by
  cases second with
  | notANumber => exact (some rfl).elim
  | infinity other => exact (some rfl).elim
  | zero other => exact (some rfl).elim
  | finite other denominator order' someToo =>
      cases first with
      | notANumber => cases isFinite
      | infinity sign => cases isFinite
      | zero sign =>
          rw [amount_zero, zero_div]
          exact near_zero _
      | finite sign numerator order some =>
          rw [amount_finite, amount_finite, ← signed_div]
          have near := near_roundWithAccuracy (sign / other)
            (@fits_quotient numerator denominator order order' some someToo)
            (approximates_quotient someToo)
          rw [UnpackedFloat.div, divCore_eq]
          exact near

end SlidePress.Binary64

namespace SlidePress.Number

open Binary64 Float.Model

/-! ## Numbers -/

section Operations

variable {first second : Number}

theorem near_add (isFinite : first.unpacked.isFinite = true)
    (isFiniteToo : second.unpacked.isFinite = true) :
    Near (amount first.unpacked + amount second.unpacked) (first + second).unpacked :=
  Binary64.near_add first.representable_unpacked second.representable_unpacked isFinite isFiniteToo

theorem near_sub (isFinite : first.unpacked.isFinite = true)
    (isFiniteToo : second.unpacked.isFinite = true) :
    Near (amount first.unpacked - amount second.unpacked) (first - second).unpacked :=
  Binary64.near_sub first.representable_unpacked second.representable_unpacked isFinite isFiniteToo

theorem near_mul (isFinite : first.unpacked.isFinite = true)
    (isFiniteToo : second.unpacked.isFinite = true) :
    Near (amount first.unpacked * amount second.unpacked) (first * second).unpacked :=
  Binary64.near_mul first.representable_unpacked second.representable_unpacked isFinite isFiniteToo

theorem near_div (isFinite : first.unpacked.isFinite = true) (some : amount second.unpacked ≠ 0) :
    Near (amount first.unpacked / amount second.unpacked) (first / second).unpacked :=
  Binary64.near_div isFinite some

end Operations

end SlidePress.Number
