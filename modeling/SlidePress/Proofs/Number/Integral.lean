import SlidePress.Number.Integral
import SlidePress.Proofs.Number.Rounding

/-! Rounding to integers. The exact meaning of a number and the value that is computed with are read
from the same bits, so that a number that was rounded to an integer can be computed with again. -/

namespace SlidePress.Binary64

open Float.Model UnpackedFloat

/-! ## Fields -/

theorem toNat_unpackExponent (bits : BitVec 64) :
    (@unpackExponent Format.binary64 bits).toNat = bits.toNat / 2 ^ 52 % 2048 := by
  simp only [unpackExponent, BitVec.toNat_cast, BitVec.extractLsb_toNat, Nat.shiftRight_eq_div_pow]

theorem toNat_unpackMantissa (bits : BitVec 64) :
    (@unpackMantissa Format.binary64 bits).toNat = bits.toNat % 2 ^ 52 := by
  simp only [unpackMantissa, BitVec.toNat_cast, BitVec.extractLsb_toNat, Nat.shiftRight_zero]

theorem toNat_unpackSign (bits : BitVec 64) :
    (@unpackSign Format.binary64 bits).toNat = bits.toNat / 2 ^ 63 % 2 := by
  simp only [unpackSign, BitVec.toNat_cast, BitVec.extractLsb_toNat, Nat.shiftRight_eq_div_pow]

def signOf (bits : Nat) : Sign := if bits / 2 ^ 63 = 1 then .negative else .positive

theorem unpack_eq (bits : BitVec 64) : unpack Format.binary64 bits =
    fields (signOf bits.toNat) (bits.toNat / 2 ^ 52 % 2048) (bits.toNat % 2 ^ 52) := by
  have small := bits.isLt
  have sign : Sign.ofBitVec (@unpackSign Format.binary64 bits) = signOf bits.toNat := by
    have own := toNat_unpackSign bits
    unfold Sign.ofBitVec signOf
    by_cases negative : bits.toNat / 2 ^ 63 = 1
    · rw [if_pos negative, if_neg]
      intro none
      rw [none, negative] at own
      cases own
    · rw [if_neg negative, if_pos]
      refine BitVec.eq_of_toNat_eq (own.trans ?_)
      change bits.toNat / 2 ^ 63 % 2 = 0
      omega
  rw [unpack_fields, toNat_unpackExponent, toNat_unpackMantissa, sign]

def isNegative : Sign → Bool
  | .negative => true
  | .positive => false

def meant : UnpackedFloat → Meaning
  | .notANumber => .notANumber
  | .infinity sign => .infinite (isNegative sign)
  | .zero sign => .finite (isNegative sign) 0 (-1074)
  | .finite sign mantissa exponent _ => .finite (isNegative sign) mantissa exponent

theorem meaning_eq (value : Float) : meaning value = meant value.toModel.unpack := by
  have own : value.toModel.unpack = fields (signOf value.toBits.toNat)
      (value.toBits.toNat / 2 ^ 52 % 2048) (value.toBits.toNat % 2 ^ 52) :=
    unpack_eq value.toModel.toBits.toBitVec
  have sign : isNegative (signOf value.toBits.toNat) = (value.toBits.toNat / 2 ^ 63 == 1) := by
    unfold signOf
    split
    · rename_i negative
      rw [negative]
      rfl
    · rename_i positive
      exact (beq_eq_false_iff_ne.mpr positive).symm
  rw [own]
  unfold meaning fields
  simp only [Nat.pow_eq, beq_iff_eq, ← sign]
  split
  · split <;> rfl
  · split
    · split
      · rfl
      · rename_i none
        rw [Nat.eq_zero_of_not_pos none]
        rfl
    · rfl

/-! ## Values put together -/

theorem unpack_ofBits (bits : UInt64) :
    (Float.ofBits bits).toModel.unpack = unpack Format.binary64 bits.toBitVec := by
  change (Float.Model.pack (unpack Format.binary64 bits.toBitVec)).unpack = _
  have representable := representable_unpack bits.toBitVec
  refine (unpack_pack fun sign mantissa exponent positive same => ?_).trans
    (capped_of_representable representable)
  rw [same] at representable
  exact representable.1

theorem unpack_ofBits_sum (negative : Bool) (biased fraction : Nat) (small : biased < 2048)
    (short : fraction < 2 ^ 52) :
    (Float.ofBits ((if negative then 2 ^ 63 else 0) + (biased * 2 ^ 52 + fraction)).toUInt64).toModel.unpack =
      fields (if negative then .negative else .positive) biased fraction := by
  rw [unpack_ofBits, unpack_eq]
  have value : ((if negative then 2 ^ 63 else 0) + (biased * 2 ^ 52 + fraction)).toUInt64.toBitVec.toNat =
      (if negative then 2 ^ 63 else 0) + (biased * 2 ^ 52 + fraction) := by
    rw [UInt64.toNat_toBitVec, Nat.toUInt64_eq, UInt64.toNat_ofNat']
    refine Nat.mod_eq_of_lt ?_
    split <;> omega
  rw [value, signOf]
  cases negative with
  | false =>
      rw [if_neg Bool.false_ne_true, if_neg Bool.false_ne_true, if_neg (by omega)]
      congr 1 <;> omega
  | true =>
      rw [if_pos rfl, if_pos rfl, if_pos (by omega)]
      congr 1 <;> omega

theorem unpack_assemble (negative : Bool) {mantissa : Nat} {exponent : Int} (some : 0 < mantissa)
    (canonical : Canonical mantissa exponent) :
    (assemble negative mantissa exponent).toModel.unpack =
      capped (.finite (if negative then .negative else .positive) mantissa exponent some) := by
  have short := canonical.short
  have least := canonical.least
  unfold assemble
  simp only [Nat.pow_eq, beq_iff_eq, if_neg (by omega : ¬ mantissa = 2 ^ 53)]
  by_cases normal : mantissa < 2 ^ 52
  · have low := canonical.full.resolve_left (by omega)
    have sum := unpack_ofBits_sum negative 0 mantissa (by decide) normal
    rw [Nat.zero_mul, Nat.zero_add] at sum
    subst low
    rw [if_pos normal, sum, fields, if_neg (show (0 : Nat) ≠ 2047 by decide), if_pos rfl, dif_pos some,
      capped, if_pos (show (-1074 : Int) ≤ 971 by decide)]
  · rw [if_neg normal]
    by_cases beyond : 2047 ≤ (exponent + 1075).toNat
    · have sum := unpack_ofBits_sum negative 2047 0 (by decide) (by decide)
      rw [Nat.add_zero] at sum
      rw [if_pos beyond, sum, fields, if_pos rfl, if_pos rfl, capped,
        if_neg (show ¬ exponent ≤ 971 by omega)]
    · have sum := unpack_ofBits_sum negative (exponent + 1075).toNat (mantissa - 2 ^ 52) (by omega)
        (by omega)
      rw [if_neg beyond, sum, fields, if_neg (show (exponent + 1075).toNat ≠ 2047 by omega),
        if_neg (show (exponent + 1075).toNat ≠ 0 by omega), capped,
        if_pos (show exponent ≤ 971 by omega)]
      exact finite_congr (by omega) (by omega)

theorem assemble_carry (negative : Bool) (exponent : Int) :
    assemble negative (2 ^ 53) exponent = assemble negative (2 ^ 52) (exponent + 1) := rfl

/-! ## Natural numbers as values -/

theorem roundQuotient_bounds (tie : Tie) (numerator denominator : Nat) :
    numerator / denominator ≤ roundQuotient tie numerator denominator ∧
      roundQuotient tie numerator denominator ≤ numerator / denominator + 1 := by
  unfold roundQuotient
  dsimp only
  split
  · omega
  · split
    · omega
    · cases tie with
      | toEven => dsimp only; omega
      | away => dsimp only; omega

theorem binaryOrder_natural {number : Nat} (some : 0 < number) :
    binaryOrder number 1 = number.log2 := by
  have least : 1 * 2 ^ number.log2 ≤ number * 1 := by
    have digits := Nat.log2_self_le (n := number) (by omega)
    omega
  have order : ((number.log2 : Int) - (Nat.log2 1 : Int)) = number.log2 := by
    rw [show Nat.log2 1 = 0 from rfl]
    omega
  rw [binaryOrder, order, scaled, if_pos (by omega)]
  dsimp only
  rw [Int.toNat_natCast, Nat.pow_eq, if_pos least]

/-- The mantissa of a natural number has 53 digits, or one more after it was rounded. -/
theorem mantissaAt_natural {number : Nat} (some : 0 < number) :
    2 ^ 52 ≤ (mantissaAt number 1 (number.log2 - 52)).1 ∧
      (mantissaAt number 1 (number.log2 - 52)).1 ≤ 2 ^ 53 := by
  have least : 2 ^ number.log2 ≤ number := Nat.log2_self_le (by omega)
  have most : number < 2 ^ (number.log2 + 1) := Nat.lt_log2_self
  by_cases large : (0 : Int) ≤ (number.log2 : Int) - 52
  · rw [mantissaAt, scaled, if_pos large]
    dsimp only
    obtain ⟨more, same⟩ : ∃ more, number.log2 = 52 + more := ⟨number.log2 - 52, by omega⟩
    have shift : ((number.log2 : Int) - 52).toNat = more := by omega
    have bounds := roundQuotient_bounds .toEven (number * 1) (1 * 2 ^ more)
    rw [Nat.mul_one, Nat.one_mul] at bounds
    rw [shift, Nat.pow_eq, Nat.mul_one, Nat.one_mul]
    rw [same] at least most
    have lower : 2 ^ 52 ≤ number / 2 ^ more := by
      rw [Nat.le_div_iff_mul_le (by positivity), ← Nat.pow_add]
      exact least
    have upper : number / 2 ^ more < 2 ^ 53 := by
      rw [Nat.div_lt_iff_lt_mul (by positivity), ← Nat.pow_add]
      exact most.trans_le (Nat.pow_le_pow_right (by decide) (by omega))
    omega
  · rw [mantissaAt, scaled, if_neg large]
    dsimp only
    have shift : (-((number.log2 : Int) - 52)).toNat = 52 - number.log2 := by omega
    rw [shift, Nat.pow_eq]
    have whole : roundQuotient .toEven (number * 2 ^ (52 - number.log2)) 1 =
        number * 2 ^ (52 - number.log2) := by
      rw [roundQuotient, Nat.mod_one, Nat.div_one]
      exact if_pos (by decide)
    rw [whole]
    constructor
    · calc 2 ^ 52 = 2 ^ number.log2 * 2 ^ (52 - number.log2) := by
            rw [← Nat.pow_add]
            congr 1
            omega
        _ ≤ number * 2 ^ (52 - number.log2) := Nat.mul_le_mul_right _ least
    · calc number * 2 ^ (52 - number.log2)
          ≤ 2 ^ (number.log2 + 1) * 2 ^ (52 - number.log2) := Nat.mul_le_mul_right _ most.le
        _ = 2 ^ 53 := by
            rw [← Nat.pow_add]
            congr 1
            omega

/-- The value of a natural number is at least one. -/
theorem exists_nearest {number : Nat} (some : 0 < number) (negative : Bool) :
    ∃ (mantissa : Nat) (exponent : Int) (positive : 0 < mantissa),
      2 ^ 52 ≤ mantissa ∧ -52 ≤ exponent ∧
      (nearest negative number 1).value.toModel.unpack =
        capped (.finite (if negative then .negative else .positive) mantissa exponent positive) := by
  obtain ⟨full, most⟩ := mantissaAt_natural some
  have value : (nearest negative number 1).value =
      assemble negative (mantissaAt number 1 (number.log2 - 52)).1 (number.log2 - 52) := by
    have least : max ((number.log2 : Int) - 52) (-1074) = number.log2 - 52 := by omega
    rw [nearest, if_neg (by simpa using some.ne')]
    dsimp only
    rw [binaryOrder_natural some, least]
  generalize (mantissaAt number 1 (number.log2 - 52)).1 = mantissa at full most value
  rcases Nat.lt_or_eq_of_le most with short | carry
  · refine ⟨mantissa, number.log2 - 52, by omega, full, by omega, ?_⟩
    rw [value, unpack_assemble negative (by omega) ⟨short, by omega, .inl full⟩]
  · refine ⟨2 ^ 52, number.log2 - 52 + 1, by decide, Nat.le_refl _, by omega, ?_⟩
    rw [value, carry, assemble_carry,
      unpack_assemble negative (by decide) ⟨by decide, by omega, .inl (Nat.le_refl _)⟩]

theorem size_scaled (number : Nat) (exponent : Int) :
    (scaled number exponent).1 = size number exponent * (scaled number exponent).2 ∧
      0 < (scaled number exponent).2 := by
  unfold scaled size
  split
  · rename_i large
    refine ⟨?_, Nat.one_pos⟩
    obtain ⟨count, rfl⟩ := Int.eq_ofNat_of_zero_le large
    dsimp only
    rw [Int.toNat_natCast, Nat.pow_eq, zpow_natCast]
    push_cast
    ring
  · rename_i small
    obtain ⟨count, same⟩ := Int.eq_ofNat_of_zero_le (a := -exponent) (by omega)
    obtain rfl : exponent = -(count : Int) := by omega
    dsimp only
    rw [Int.neg_neg, Int.toNat_natCast, Nat.pow_eq, zpow_neg, zpow_natCast]
    refine ⟨?_, by positivity⟩
    push_cast
    field_simp

/-- A magnitude is rounded to nothing exactly below one half. -/
theorem roundQuotient_scaled (number : Nat) (exponent : Int) :
    roundQuotient .away (scaled number exponent).1 (scaled number exponent).2 = 0 ↔
      size number exponent < 1 / 2 := by
  obtain ⟨same, positive⟩ := size_scaled number exponent
  generalize (scaled number exponent).1 = numerator at same ⊢
  generalize (scaled number exponent).2 = denominator at same positive ⊢
  have unit : (0 : ℚ) < denominator := by exact_mod_cast positive
  have half : size number exponent < 1 / 2 ↔ 2 * numerator < denominator := by
    have cast : (2 * numerator < denominator) ↔ (2 * numerator : ℚ) < denominator := by
      exact_mod_cast Iff.rfl
    rw [cast, same, ← mul_lt_mul_iff_left₀ unit]
    constructor <;> intro less <;> linarith
  rw [half]
  have split := Nat.div_add_mod numerator denominator
  have small := Nat.mod_lt numerator positive
  unfold roundQuotient
  generalize numerator / denominator = quotient at split ⊢
  generalize numerator % denominator = rest at split small ⊢
  dsimp only
  constructor
  · intro none
    split at none
    · rename_i low
      rw [none, Nat.mul_zero, Nat.zero_add] at split
      rwa [← split]
    · split at none
      · cases none
      · cases none
  · intro less
    have none : quotient = 0 := by
      by_contra some
      have more : denominator ≤ denominator * quotient :=
        Nat.le_mul_of_pos_right _ (Nat.pos_of_ne_zero some)
      omega
    rw [none, Nat.mul_zero, Nat.zero_add] at split
    rw [split, if_pos less, none]

end SlidePress.Binary64

namespace SlidePress.Number

open Binary64 Float.Model

variable {number : Number} {sign : UnpackedFloat.Sign} {mantissa : Nat} {exponent : Int}

theorem meaning_unpacked (number : Number) : number.meaning = meant number.unpacked :=
  meaning_eq number.value

theorem round_infinity (isInfinite : number.unpacked = .infinity sign) : number.round = number := by
  rw [round, meaning_unpacked, isInfinite]
  rfl

theorem unpacked_nothing (negative : Bool) :
    (ofFloat (nearest negative 0 1).value).unpacked = .zero (if negative then .negative else .positive) := by
  cases negative <;> rfl

theorem ite_isNegative (sign : UnpackedFloat.Sign) :
    (if isNegative sign then UnpackedFloat.Sign.negative else .positive) = sign := by
  cases sign <;> rfl

theorem round_zero (isZero : number.unpacked = .zero sign) : number.round.unpacked = .zero sign := by
  have small : size 0 (-1074) < 1 / 2 := by
    rw [size, Nat.cast_zero, zero_mul]
    norm_num
  rw [round, meaning_unpacked, isZero]
  dsimp only [meant]
  rw [(roundQuotient_scaled 0 (-1074)).mpr small, unpacked_nothing, ite_isNegative]

section Rounding

variable {some : 0 < mantissa} (isFinite : number.unpacked = .finite sign mantissa exponent some)

include isFinite

theorem round_small (small : size mantissa exponent < 1 / 2) : number.round.unpacked = .zero sign := by
  rw [round, meaning_unpacked, isFinite]
  dsimp only [meant]
  rw [(roundQuotient_scaled mantissa exponent).mpr small, unpacked_nothing, ite_isNegative]

/-- A magnitude of one half or more becomes one of one or more. -/
theorem exists_round (large : 1 / 2 ≤ size mantissa exponent) :
    ∃ (rounded : Nat) (order : Int) (positive : 0 < rounded), 2 ^ 52 ≤ rounded ∧ -52 ≤ order ∧
      number.round.unpacked = capped (.finite sign rounded order positive) := by
  have one : 0 < roundQuotient .away (scaled mantissa exponent).1 (scaled mantissa exponent).2 := by
    refine Nat.pos_of_ne_zero fun none => ?_
    exact (not_lt.mpr large) ((roundQuotient_scaled mantissa exponent).mp none)
  obtain ⟨rounded, order, positive, full, least, same⟩ := exists_nearest one (isNegative sign)
  refine ⟨rounded, order, positive, full, least, ?_⟩
  rw [ite_isNegative] at same
  rw [round, meaning_unpacked, isFinite]
  exact same

end Rounding

end SlidePress.Number
