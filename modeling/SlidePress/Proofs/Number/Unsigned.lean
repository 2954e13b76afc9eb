import SlidePress.Proofs.Number.Signs
import SlidePress.Proofs.Text.Case
import SlidePress.Proofs.Text.Entries
import SlidePress.Proofs.Text.Marks

/-! Numbers without a minus sign. What is read from a numeral without one is not below zero, as rounding
leaves the sign alone, and a number above zero is written without one. -/

namespace SlidePress.Binary64

open Float.Model UnpackedFloat

section Orders

variable {numerator denominator : Nat}

theorem lt_binaryOrder (some : 0 < denominator) :
    (numerator : ℚ) < size denominator (binaryOrder numerator denominator + 1) := by
  obtain ⟨factor, unit⟩ :=
    size_scaled denominator ((numerator.log2 : Int) - denominator.log2)
  unfold binaryOrder
  dsimp only
  split
  · have most : (numerator : ℚ) < 2 ^ (numerator.log2 + 1) := by exact_mod_cast Nat.lt_log2_self
    have least : (2 : ℚ) ^ denominator.log2 ≤ denominator := by
      exact_mod_cast Nat.log2_self_le (Nat.ne_of_gt some)
    calc (numerator : ℚ) < 2 ^ (numerator.log2 + 1) := most
      _ = 2 ^ denominator.log2 * 2 ^ ((numerator.log2 : Int) - denominator.log2 + 1) := by
          rw [← zpow_natCast, ← zpow_natCast, ← zpow_add₀ two_ne_zero]
          congr 1
          push_cast
          ring
      _ ≤ size denominator _ := mul_le_mul_of_nonneg_right least (by positivity)
  · rename_i less
    rw [Int.sub_add_cancel, ← mul_lt_mul_iff_left₀ (Nat.cast_pos.mpr unit), ← factor]
    exact_mod_cast Nat.lt_of_not_le less

theorem mantissaAt_le (some : 0 < denominator) {exponent : Int}
    (fits : binaryOrder numerator denominator - 52 ≤ exponent) :
    (mantissaAt numerator denominator exponent).1 ≤ 2 ^ 53 := by
  obtain ⟨factor, unit⟩ := size_scaled denominator exponent
  have positive : (0 : ℚ) < (scaled denominator exponent).2 := by exact_mod_cast unit
  have above : (numerator : ℚ) < size denominator exponent * 2 ^ 53 := by
    calc (numerator : ℚ) < size denominator (binaryOrder numerator denominator + 1) := lt_binaryOrder some
      _ ≤ size denominator (exponent + 53) :=
          mul_le_mul_of_nonneg_left (zpow_le_zpow_right₀ one_le_two (by omega)) (Nat.cast_nonneg _)
      _ = size denominator exponent * 2 ^ 53 := by
          rw [size, size, zpow_add₀ two_ne_zero, ← mul_assoc]
          norm_num
  have short : numerator * (scaled denominator exponent).2 < 2 ^ 53 * (scaled denominator exponent).1 := by
    have scaledUp := mul_lt_mul_of_pos_right above positive
    have swapped : size denominator exponent * 2 ^ 53 * (scaled denominator exponent).2 =
        2 ^ 53 * (scaled denominator exponent).1 := by
      rw [factor]
      ring
    rw [swapped] at scaledUp
    exact_mod_cast scaledUp
  have some : 0 < (scaled denominator exponent).1 := by
    by_contra none
    rw [Nat.eq_zero_of_not_pos none, Nat.mul_zero] at short
    exact Nat.not_lt_zero _ short
  have quotient := (Nat.div_lt_iff_lt_mul some).mpr short
  have bounds := roundQuotient_bounds .toEven (numerator * (scaled denominator exponent).2)
    (scaled denominator exponent).1
  rw [mantissaAt]
  dsimp only
  omega

end Orders

def Unsigned (value : UnpackedFloat) : Prop :=
  ∃ biased fraction, value = fields .positive biased fraction

theorem unsigned_ofBits {biased fraction : Nat} (small : biased < 2048) (short : fraction < 2 ^ 52) :
    Unsigned (Float.ofBits (0 + (biased * 2 ^ 52 + fraction)).toUInt64).toModel.unpack :=
  ⟨biased, fraction, unpack_ofBits_sum false biased fraction small short⟩

theorem unsigned_assemble {mantissa : Nat} (short : mantissa ≤ 2 ^ 53) (exponent : Int) :
    Unsigned (assemble false mantissa exponent).toModel.unpack := by
  have full {mantissa : Nat} {exponent : Int} (short : mantissa < 2 ^ 53) (full : 2 ^ 52 ≤ mantissa) :
      Unsigned (assemble false mantissa exponent).toModel.unpack := by
    unfold assemble
    simp only [Nat.pow_eq, beq_iff_eq, if_neg (by omega : ¬ mantissa = 2 ^ 53), if_neg Bool.false_ne_true,
      if_neg (by omega : ¬ mantissa < 2 ^ 52)]
    split
    · have infinite := unsigned_ofBits (by decide : 2047 < 2048) (by decide : 0 < 2 ^ 52)
      rw [Nat.add_zero] at infinite
      exact infinite
    · exact unsigned_ofBits (by omega) (by omega)
  rcases Nat.lt_or_eq_of_le short with less | rfl
  · rcases Nat.lt_or_ge mantissa (2 ^ 52) with small | large
    · have plain := unsigned_ofBits (by decide : 0 < 2048) small
      rw [Nat.zero_mul, Nat.zero_add] at plain
      unfold assemble
      simp only [Nat.pow_eq, if_neg Bool.false_ne_true, if_pos small]
      exact plain
    · exact full less large
  · rw [assemble_carry]
    exact full (by decide) (by decide)

theorem rank_nonneg_of_unsigned {value : UnpackedFloat} (unsigned : Unsigned value) : 0 ≤ rank value := by
  obtain ⟨biased, fraction, rfl⟩ := unsigned
  unfold fields
  split
  · split
    · exact show 0 ≤ top by decide
    · exact le_refl 0
  · split
    · split
      · rw [rank, Sign.apply, place]
        omega
      · exact le_refl 0
    · rw [rank, Sign.apply, place]
      omega

end SlidePress.Binary64

namespace SlidePress.Number

open Binary64

theorem notNegative_of_unsigned {value : Float} (unsigned : Unsigned value.toModel.unpack) :
    (ofFloat value).NotNegative :=
  notNegative_iff.mpr (.inr (rank_nonneg_of_unsigned unsigned))

theorem notNegative_nearest (numerator : Nat) {denominator : Nat} (some : 0 < denominator) :
    (ofFloat (nearest false numerator denominator).value).NotNegative := by
  refine notNegative_of_unsigned ?_
  unfold nearest
  split
  · exact unsigned_assemble (Nat.zero_le _) 0
  · exact unsigned_assemble (mantissaAt_le some (le_max_left _ _)) _

theorem notNegative_ofNat (number : Nat) : (ofNat number).NotNegative :=
  notNegative_nearest number Nat.one_pos

end SlidePress.Number

namespace SlidePress.Numeral

open Binary64 Number

def isNegative : Numeral → Bool
  | .decimal negative _ _ => negative
  | .binary negative _ _ => negative
  | .infinite negative => negative
  | .nan negative => negative

theorem notNegative_toNumber {numeral : Numeral} (unsigned : numeral.isNegative = false) :
    numeral.toNumber.1.NotNegative := by
  have zero : (ofFloat (assemble false 0 0)).NotNegative :=
    notNegative_of_unsigned (unsigned_assemble (Nat.zero_le _) 0)
  have infinite : (ofFloat (1.0 / 0.0)).NotNegative := by decide +kernel
  cases numeral with
  | nan negative => cases negative <;> decide +kernel
  | infinite negative =>
      obtain rfl : negative = false := unsigned
      exact infinite
  | decimal negative digits exponent =>
      obtain rfl : negative = false := unsigned
      unfold toNumber
      dsimp only
      split
      · exact zero
      · split
        · exact infinite
        · split
          · exact zero
          · split
            · exact notNegative_nearest _ Nat.one_pos
            · exact notNegative_nearest _ (Nat.pow_pos (by decide))
  | binary negative digits exponent =>
      obtain rfl : negative = false := unsigned
      unfold toNumber
      dsimp only
      split
      · exact zero
      · split
        · exact infinite
        · split
          · exact zero
          · exact notNegative_nearest _ (size_scaled digits exponent).2

def Starts (text : Text) : Prop :=
  ∃ byte rest, text = byte :: rest ∧ (Byte.isDigit byte = true ∨ byte = 'i'.toUInt8)

theorem solid_of_isDigit {byte : UInt8} (digit : Byte.isDigit byte = true) :
    Byte.isSpace byte = false := by
  simp only [Byte.isDigit, Bool.and_eq_true, decide_eq_true_eq, UInt8.le_iff_toNat_le] at digit
  simp only [Byte.isSpace, Bool.or_eq_false_iff, Bool.and_eq_false_iff, decide_eq_false_iff_not,
    beq_eq_false_iff_ne, ne_eq, ← UInt8.toNat_inj, UInt8.le_iff_toNat_le]
  change 48 ≤ byte.toNat ∧ byte.toNat ≤ 57 at digit
  change ¬ byte.toNat = 32 ∧ (¬ 9 ≤ byte.toNat ∨ ¬ byte.toNat ≤ 13)
  omega

theorem plain_of_starts {byte : UInt8} (start : Byte.isDigit byte = true ∨ byte = 'i'.toUInt8) :
    byte ≠ 0 ∧ Byte.isSpace byte = false ∧ byte ≠ '-'.toUInt8 ∧ byte ≠ '+'.toUInt8 ∧
      Byte.toLower byte = byte := by
  rcases start with digit | rfl
  · have apart {other : UInt8} (noDigit : Byte.isDigit other = false) : byte ≠ other := by
      rintro rfl
      exact Bool.false_ne_true (noDigit.symm.trans digit)
    exact ⟨apart (by decide), solid_of_isDigit digit, apart (by decide), apart (by decide),
      Byte.toLower_of_not_isUpper (Byte.isUpper_of_isDigit digit)⟩
  · decide

theorem Starts.append {text : Text} (starts : Starts text) (more : Text) : Starts (text ++ more) := by
  obtain ⟨byte, rest, rfl, start⟩ := starts
  exact ⟨byte, rest ++ more, rfl, start⟩

theorem Starts.keyword {text : Text} (starts : Starts text) : Starts (Text.keyword text) := by
  obtain ⟨byte, rest, rfl, start⟩ := starts
  obtain ⟨-, solid, -, -, same⟩ := plain_of_starts start
  refine ⟨byte, Text.lower (Text.trimRight rest), ?_, start⟩
  have trimmed : Text.trim (byte :: rest) = byte :: Text.trimRight rest :=
    Text.trim_append_cons solid [] rest
  rw [Text.keyword, trimmed, Text.lower, List.map_cons, same]
  rfl

theorem isNegative_of_readUnsigned? {negative : Bool} {text rest : Text} {numeral : Numeral}
    (read : readUnsigned? negative text = some (numeral, rest)) : numeral.isNegative = negative := by
  have decimal {text rest : Text} {numeral : Numeral}
      (read : readDecimal? negative text = some (numeral, rest)) : numeral.isNegative = negative := by
    obtain ⟨⟨whole, fraction, more⟩, -, same⟩ := Option.map_eq_some_iff.mp read
    obtain ⟨rfl, -⟩ := Prod.mk.inj same
    rfl
  unfold readUnsigned? at read
  split at read
  · obtain ⟨rfl, -⟩ := Prod.mk.inj (Option.some.inj read)
    rfl
  · split at read
    · obtain ⟨rfl, -⟩ := Prod.mk.inj (Option.some.inj read)
      rfl
    · split at read
      · obtain ⟨rfl, -⟩ := Prod.mk.inj (Option.some.inj read)
        rfl
      · split at read
        · rcases Option.or_eq_some_iff.mp read with binary | ⟨-, zero⟩
          · obtain ⟨⟨whole, fraction, more⟩, -, same⟩ := Option.map_eq_some_iff.mp binary
            obtain ⟨rfl, -⟩ := Prod.mk.inj same
            rfl
          · obtain ⟨rfl, -⟩ := Prod.mk.inj (Option.some.inj zero)
            rfl
        · exact decimal read

/-- Such a text is read without a sign. -/
theorem Starts.read {text rest : Text} {numeral : Numeral} (starts : Starts text)
    (read : read? text = some (numeral, rest)) : numeral.isNegative = false := by
  obtain ⟨byte, tail, rfl, start⟩ := starts
  obtain ⟨notEnd, solid, notMinus, notPlus, -⟩ := plain_of_starts start
  have kept : Text.trimLeft (Text.before 0 (byte :: tail)) = byte :: Text.before 0 tail := by
    rw [Text.before, List.takeWhile_cons_of_pos (by simpa using notEnd)]
    exact List.dropWhile_cons_of_neg (by simp [solid])
  have sign : readSign (byte :: Text.before 0 tail) = (false, byte :: Text.before 0 tail) := by
    rw [readSign, if_neg (by simpa using notMinus), if_neg (by simpa using notPlus)]
  rw [read?, kept, sign] at read
  exact isNegative_of_readUnsigned? read

end SlidePress.Numeral

namespace SlidePress.Number

open Binary64 Numeral

theorem exists_ofNat (number : Nat) :
    ∃ byte rest, Text.ofNat number = byte :: rest ∧ Byte.isDigit byte = true := by
  cases digits : Text.ofNat number with
  | nil => exact absurd digits (by simp [Text.ofNat])
  | cons byte rest =>
      refine ⟨byte, rest, rfl, @Text.isDigit_of_mem_ofNat number byte ?_⟩
      rw [digits]
      exact List.mem_cons_self

theorem starts_pointed {whole : Text} (starts : Starts whole) (fraction : Text) :
    Starts (pointed whole fraction) := by
  unfold pointed
  split
  · exact starts
  · rw [List.append_assoc]
    exact starts.append _

theorem starts_generalMagnitude (size numerator denominator : Nat) :
    Starts (generalMagnitude size numerator denominator) := by
  unfold generalMagnitude
  obtain ⟨byte, rest, digits, digit⟩ := exists_ofNat (significant size numerator denominator).1
  dsimp only
  rw [digits]
  split
  · exact (starts_pointed ⟨byte, [], rfl, .inl digit⟩ _).append _
  · split
    · exact starts_pointed ⟨'0'.toUInt8, [], rfl, .inl (by decide)⟩ _
    · exact starts_pointed ⟨byte, _, rfl, .inl digit⟩ _

/-- A number above zero is written without a sign. -/
theorem starts_general (size : Nat) {number : Number} (positive : 0.0 < number) :
    Starts (general size number) := by
  have above : 0 < Binary64.rank number.unpacked := (lt_iff.mp positive).2.2
  have meaning := number.meaning_unpacked
  rcases cases_of_rank_pos number.representable_unpacked above with
    isInfinite | ⟨mantissa, exponent, some, isFinite⟩
  · rw [isInfinite] at meaning
    rw [general, meaning]
    exact ⟨'i'.toUInt8, _, rfl, .inr rfl⟩
  · rw [isFinite] at meaning
    have notZero : (mantissa == 0) = false := beq_eq_false_iff_ne.mpr some.ne'
    rw [general, meaning]
    dsimp only [meant]
    rw [notZero, if_neg Bool.false_ne_true]
    exact starts_generalMagnitude _ _ _

end SlidePress.Number
