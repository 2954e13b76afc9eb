import Mathlib
import SlidePress.Number.Basic

/-! Numbers in their order. The magnitudes of binary64 follow each other without gaps in their bits:
the place of a magnitude is its biased exponent followed by the rest of its mantissa. Numbers compare as
their places with signs do, and places compare as the rational numbers that they stand for. -/

namespace SlidePress.Binary64

open Float.Model UnpackedFloat

/-- The form of a magnitude `mantissa * 2 ^ exponent`: as many digits as there can be. There is no
bound from above, where magnitudes become infinite. -/
structure Canonical (mantissa : Nat) (exponent : Int) : Prop where
  short : mantissa < 2 ^ 53
  least : -1074 ≤ exponent
  full : 2 ^ 52 ≤ mantissa ∨ exponent = -1074

def size (mantissa : Nat) (exponent : Int) : ℚ := mantissa * 2 ^ exponent

/-- The place of a magnitude among all, from zero on. -/
def place (mantissa : Nat) (exponent : Int) : Int := (exponent + 1074) * 2 ^ 52 + mantissa

theorem size_nonneg (mantissa : Nat) (exponent : Int) : 0 ≤ size mantissa exponent := by
  unfold size
  positivity

section Order

variable {mantissa mantissa' : Nat} {exponent exponent' : Int}

theorem size_le_of_exponent_lt (short : mantissa ≤ 2 ^ 53) (full : 2 ^ 52 ≤ mantissa')
    (less : exponent < exponent') : size mantissa exponent ≤ size mantissa' exponent' := by
  have least : (mantissa : ℚ) ≤ 2 ^ 53 := by exact_mod_cast short
  have most : (2 : ℚ) ^ 52 ≤ mantissa' := by exact_mod_cast full
  calc size mantissa exponent
      ≤ 2 ^ 53 * 2 ^ exponent := mul_le_mul_of_nonneg_right least (by positivity)
    _ = 2 ^ 52 * 2 ^ (exponent + 1) := by rw [zpow_add_one₀ two_ne_zero]; ring
    _ ≤ 2 ^ 52 * 2 ^ exponent' :=
        mul_le_mul_of_nonneg_left (zpow_le_zpow_right₀ one_le_two less) (by positivity)
    _ ≤ size mantissa' exponent' := mul_le_mul_of_nonneg_right most (by positivity)

theorem size_le_iff_mantissa : size mantissa exponent ≤ size mantissa' exponent ↔ mantissa ≤ mantissa' := by
  rw [size, size, mul_le_mul_iff_left₀ (by positivity : (0 : ℚ) < 2 ^ exponent), Nat.cast_le]

theorem size_lt_of_exponent_lt (short : mantissa < 2 ^ 53) (full : 2 ^ 52 ≤ mantissa')
    (less : exponent < exponent') : size mantissa exponent < size mantissa' exponent' := by
  have next : size mantissa exponent < size (2 ^ 53) exponent := by
    rw [← not_le, size_le_iff_mantissa, not_le]
    exact short
  exact next.trans_le (size_le_of_exponent_lt (Nat.le_refl _) full less)

theorem Canonical.full_of_lt (canonical : Canonical mantissa' exponent')
    (least : -1074 ≤ exponent) (less : exponent < exponent') : 2 ^ 52 ≤ mantissa' := by
  rcases canonical.full with full | same
  · exact full
  · omega

/-- Magnitudes follow each other as their places do. -/
theorem size_le_iff (canonical : Canonical mantissa exponent)
    (canonicalToo : Canonical mantissa' exponent') :
    size mantissa exponent ≤ size mantissa' exponent' ↔
      place mantissa exponent ≤ place mantissa' exponent' := by
  have short := canonical.short
  have shortToo := canonicalToo.short
  rcases lt_trichotomy exponent exponent' with less | rfl | greater
  · have full := canonicalToo.full_of_lt canonical.least less
    have sizes := size_lt_of_exponent_lt short full less
    refine iff_of_true sizes.le ?_
    unfold place
    omega
  · rw [size_le_iff_mantissa]
    unfold place
    omega
  · have full := canonical.full_of_lt canonicalToo.least greater
    have sizes := size_lt_of_exponent_lt shortToo full greater
    refine iff_of_false (not_le.mpr sizes) ?_
    unfold place
    omega

/-- The next place is that of the next mantissa, or of the least one with the next exponent. -/
theorem size_succ_le (canonical : Canonical mantissa exponent) (canonicalToo : Canonical mantissa' exponent')
    (less : place mantissa exponent < place mantissa' exponent') :
    size (mantissa + 1) exponent ≤ size mantissa' exponent' := by
  have short := canonical.short
  have least := canonical.least
  rcases Nat.lt_or_ge (mantissa + 1) (2 ^ 53) with small | large
  · have next : Canonical (mantissa + 1) exponent := by
      refine ⟨small, least, ?_⟩
      rcases canonical.full with full | same
      · exact .inl (Nat.le_succ_of_le full)
      · exact .inr same
    refine (size_le_iff next canonicalToo).mpr ?_
    unfold place at less ⊢
    omega
  · have next : Canonical (2 ^ 52) (exponent + 1) := ⟨by decide, by omega, .inl (Nat.le_refl _)⟩
    have carried : size (mantissa + 1) exponent = size (2 ^ 52) (exponent + 1) := by
      obtain rfl : mantissa = 2 ^ 53 - 1 := by omega
      unfold size
      rw [zpow_add_one₀ two_ne_zero]
      norm_num
      ring
    rw [carried, size_le_iff next canonicalToo]
    unfold place at less ⊢
    omega

theorem compare_places (canonical : Canonical mantissa exponent)
    (canonicalToo : Canonical mantissa' exponent') :
    (compare exponent exponent').then (compare mantissa mantissa') =
      compare (place mantissa exponent) (place mantissa' exponent') := by
  have short := canonical.short
  have shortToo := canonicalToo.short
  rcases lt_trichotomy exponent exponent' with less | rfl | greater
  · have full := canonicalToo.full_of_lt canonical.least less
    rw [compare_lt_iff_lt.mpr less]
    refine (compare_lt_iff_lt.mpr ?_).symm
    unfold place
    omega
  · rw [compare_eq_iff_eq.mpr rfl, Ordering.eq_then]
    rcases lt_trichotomy mantissa mantissa' with less | rfl | greater
    · rw [compare_lt_iff_lt.mpr less, eq_comm, compare_lt_iff_lt]
      unfold place
      omega
    · rw [compare_eq_iff_eq.mpr rfl, compare_eq_iff_eq.mpr rfl]
    · rw [compare_gt_iff_gt.mpr greater, eq_comm, compare_gt_iff_gt]
      unfold place
      omega
  · have full := canonical.full_of_lt canonicalToo.least greater
    rw [compare_gt_iff_gt.mpr greater]
    refine (compare_gt_iff_gt.mpr ?_).symm
    unfold place
    omega

end Order

/-! ## Values with signs -/

def top : Int := 2047 * 2 ^ 52

/-- The place of a value with its sign; that of a not-a-number has no meaning. -/
def rank : UnpackedFloat → Int
  | .notANumber => 0
  | .zero _ => 0
  | .infinity sign => sign.apply top
  | .finite sign mantissa exponent _ => sign.apply (place mantissa exponent)

def Representable : UnpackedFloat → Prop
  | .finite _ mantissa exponent _ => Canonical mantissa exponent ∧ exponent ≤ 971
  | _ => True

theorem place_bounds {mantissa : Nat} {exponent : Int} (positive : 0 < mantissa)
    (representable : Canonical mantissa exponent ∧ exponent ≤ 971) :
    0 < place mantissa exponent ∧ place mantissa exponent < top := by
  obtain ⟨canonical, most⟩ := representable
  have short := canonical.short
  have least := canonical.least
  unfold place top
  omega

/-- A value above zero is a magnitude or infinite. -/
theorem cases_of_rank_pos {value : UnpackedFloat} (representable : Representable value)
    (positive : 0 < rank value) :
    value = .infinity .positive ∨
      ∃ mantissa exponent some, value = .finite .positive mantissa exponent some := by
  cases value with
  | notANumber => exact (Int.lt_irrefl 0 positive).elim
  | zero sign => exact (Int.lt_irrefl 0 positive).elim
  | infinity sign =>
      cases sign with
      | negative => exact absurd positive (by decide)
      | positive => exact .inl rfl
  | finite sign mantissa exponent some =>
      have bounds := place_bounds some representable
      cases sign with
      | negative =>
          change 0 < -place mantissa exponent at positive
          omega
      | positive => exact .inr ⟨mantissa, exponent, some, rfl⟩

/-- Finite values lie between the infinite ones. -/
theorem rank_bounds {value : UnpackedFloat} (representable : Representable value)
    (isFinite : value.isFinite = true) : -top < rank value ∧ rank value < top := by
  cases value with
  | notANumber => cases isFinite
  | infinity sign => cases isFinite
  | zero sign => exact ⟨show -top < 0 by decide, show 0 < top by decide⟩
  | finite sign mantissa exponent some =>
      have bounds := place_bounds some representable
      cases sign with
      | positive => exact ⟨by rw [rank, Sign.apply]; omega, bounds.2⟩
      | negative =>
          rw [rank, Sign.apply]
          omega

theorem compare_neg_neg (first second : Int) :
    compare (-first) (-second) = (compare first second).swap := by
  rcases lt_trichotomy first second with less | rfl | greater
  · rw [compare_lt_iff_lt.mpr less]
    exact compare_gt_iff_gt.mpr (Int.neg_lt_neg less)
  · rw [compare_eq_iff_eq.mpr rfl, compare_eq_iff_eq.mpr rfl]
    rfl
  · rw [compare_gt_iff_gt.mpr greater]
    exact compare_lt_iff_lt.mpr (Int.neg_lt_neg greater)

section Comparing

variable {value : UnpackedFloat} (representable : Representable value) (isNumber : value ≠ .notANumber)

theorem lt_eq_compare {a b : Int} (less : a < b) : some Ordering.lt = some (compare a b) :=
  congrArg some (compare_lt_iff_lt.mpr less).symm

theorem gt_eq_compare {a b : Int} (greater : b < a) : some Ordering.gt = some (compare a b) :=
  congrArg some (compare_gt_iff_gt.mpr greater).symm

include representable isNumber

theorem compare_infinity (sign : Sign) :
    (infinity sign).compare value = some (compare (rank (.infinity sign)) (rank value)) := by
  cases value with
  | notANumber => exact (isNumber rfl).elim
  | infinity other => cases sign <;> cases other <;> decide
  | _ =>
      have bounds := rank_bounds representable rfl
      cases sign with
      | negative => exact lt_eq_compare bounds.1
      | positive => exact gt_eq_compare bounds.2

theorem compare_zero (sign : Sign) :
    (zero sign).compare value = some (compare (rank (.zero sign)) (rank value)) := by
  cases value with
  | notANumber => exact (isNumber rfl).elim
  | infinity other =>
      cases other with
      | negative => exact gt_eq_compare (show -top < 0 by decide)
      | positive => exact lt_eq_compare (show 0 < top by decide)
  | zero other => rfl
  | finite other mantissa exponent some =>
      have bounds := place_bounds some representable
      cases other with
      | negative => exact gt_eq_compare (Int.neg_neg_of_pos bounds.1)
      | positive => exact lt_eq_compare bounds.1

theorem compare_finite {sign : Sign} {mantissa : Nat} {exponent : Int} {some : 0 < mantissa}
    (representableToo : Representable (.finite sign mantissa exponent some)) :
    (finite sign mantissa exponent some).compare value =
      Option.some (compare (rank (.finite sign mantissa exponent some)) (rank value)) := by
  have bounds := place_bounds some representableToo
  have between := rank_bounds representableToo rfl
  cases value with
  | notANumber => exact (isNumber rfl).elim
  | infinity other =>
      cases other with
      | negative =>
          refine Eq.trans ?_ (gt_eq_compare between.1)
          cases sign <;> rfl
      | positive =>
          refine Eq.trans ?_ (lt_eq_compare between.2)
          cases sign <;> rfl
  | zero other =>
      cases sign with
      | negative => exact lt_eq_compare (Int.neg_neg_of_pos bounds.1)
      | positive => exact gt_eq_compare bounds.1
  | finite other mantissa' exponent' some' =>
      have boundsToo := place_bounds some' representable
      have places := compare_places representableToo.1 representable.1
      cases sign with
      | negative =>
          cases other with
          | negative =>
              change Option.some (Ordering.swap _) = Option.some (compare (-place _ _) (-place _ _))
              rw [places, compare_neg_neg]
          | positive => exact lt_eq_compare (show -place mantissa exponent < place _ _ by omega)
      | positive =>
          cases other with
          | negative => exact gt_eq_compare (show -place mantissa' exponent' < place _ _ by omega)
          | positive => exact congrArg Option.some places

end Comparing

/-- Values compare as their places with signs do. -/
theorem compare_eq {first second : UnpackedFloat} (representable : Representable first)
    (representableToo : Representable second) (isNumber : first ≠ .notANumber)
    (isNumberToo : second ≠ .notANumber) :
    first.compare second = some (compare (rank first) (rank second)) := by
  cases first with
  | notANumber => exact (isNumber rfl).elim
  | infinity sign => exact compare_infinity representableToo isNumberToo sign
  | zero sign => exact compare_zero representableToo isNumberToo sign
  | finite sign mantissa exponent some => exact compare_finite representableToo isNumberToo representable

/-! ## Bits -/

theorem toNat_implicit (fraction : BitVec 52) :
    (1#1 ++ fraction).toNat = 2 ^ 52 + fraction.toNat := by
  rw [BitVec.toNat_append, ← Nat.shiftLeft_add_eq_or_of_lt fraction.isLt, Nat.shiftLeft_eq]
  rfl

def fields (sign : Sign) (biased fraction : Nat) : UnpackedFloat :=
  if biased = 2047 then if fraction = 0 then .infinity sign else .notANumber
  else if biased = 0 then
    if some : 0 < fraction then .finite sign fraction (-1074) some else .zero sign
  else .finite sign (2 ^ 52 + fraction) (biased - 1075) (by positivity)

theorem finite_congr {sign : Sign} {mantissa mantissa' : Nat} {exponent exponent' : Int}
    {some : 0 < mantissa} {some' : 0 < mantissa'} (same : mantissa = mantissa')
    (sameToo : exponent = exponent') :
    finite sign mantissa exponent some = finite sign mantissa' exponent' some' := by
  subst same sameToo
  rfl

theorem unpack_fields (bits : BitVec 64) : unpack Format.binary64 bits =
    fields (Sign.ofBitVec (@unpackSign Format.binary64 bits))
      (@unpackExponent Format.binary64 bits).toNat
      (@unpackMantissa Format.binary64 bits).toNat := by
  have greatest : @unpackExponent Format.binary64 bits = -1#11 ↔
      (@unpackExponent Format.binary64 bits).toNat = 2047 :=
    ⟨fun same => by rw [same]; rfl, fun same => BitVec.eq_of_toNat_eq same⟩
  have least : @unpackExponent Format.binary64 bits = 0#11 ↔
      (@unpackExponent Format.binary64 bits).toNat = 0 :=
    ⟨fun same => by rw [same]; rfl, fun same => BitVec.eq_of_toNat_eq same⟩
  have none : @unpackMantissa Format.binary64 bits = 0#52 ↔
      (@unpackMantissa Format.binary64 bits).toNat = 0 :=
    ⟨fun same => by rw [same]; rfl, fun same => BitVec.eq_of_toNat_eq same⟩
  unfold UnpackedFloat.unpack fields
  dsimp only
  split
  · rename_i isGreatest
    rw [if_pos (greatest.mp isGreatest)]
    split
    · rename_i isNone
      rw [if_pos (none.mp isNone)]
    · rename_i some
      rw [if_neg fun isNone => some (none.mpr isNone)]
  · rename_i notGreatest
    rw [if_neg fun same => notGreatest (greatest.mpr same)]
    split
    · rename_i isLeast
      rw [if_pos (least.mp isLeast)]
      split
      · rename_i isNone
        rw [dif_neg (by rw [none.mp isNone]; decide)]
      · rename_i some
        rw [dif_pos (Nat.pos_of_ne_zero fun isNone => some (none.mpr isNone)), isLeast]
        rfl
    · rename_i notLeast
      rw [if_neg fun same => notLeast (least.mpr same)]
      exact finite_congr (toNat_implicit _) rfl

theorem unpack_packComponents (sign : Sign) (exponent : BitVec 11) (fraction : BitVec 52) :
    unpack Format.binary64 (packComponents Format.binary64 sign exponent fraction) =
      fields sign exponent.toNat fraction.toNat := by
  rw [unpack_fields, unpackExponent_packComponents, unpackMantissa_packComponents,
    unpackSign_packComponents, Sign.ofBitVec_toBitVec]

theorem unpack_infinity (sign : Sign) :
    unpack Format.binary64 (packedInfinity Format.binary64 sign) = .infinity sign := by
  cases sign <;> rfl

theorem representable_fields (sign : Sign) {biased fraction : Nat} (small : biased < 2048)
    (short : fraction < 2 ^ 52) : Representable (fields sign biased fraction) := by
  unfold fields
  split
  · split <;> trivial
  · split
    · split
      · exact ⟨⟨by omega, by decide, .inr rfl⟩, by decide⟩
      · trivial
    · exact ⟨⟨by omega, by omega, .inl (Nat.le_add_right _ _)⟩, by omega⟩

theorem representable_unpack (bits : BitVec 64) : Representable (unpack Format.binary64 bits) := by
  rw [unpack_fields]
  exact representable_fields _ (BitVec.isLt _) (BitVec.isLt _)

/-- A value that has grown too large is infinite when it is packed. -/
def capped : UnpackedFloat → UnpackedFloat
  | .finite sign mantissa exponent positive =>
      if exponent ≤ 971 then .finite sign mantissa exponent positive else .infinity sign
  | value => value

theorem unpack_pack_finite (sign : Sign) {mantissa : Nat} {exponent : Int} (positive : 0 < mantissa)
    (canonical : Canonical mantissa exponent) :
    (Float.Model.pack (.finite sign mantissa exponent positive)).unpack =
      capped (.finite sign mantissa exponent positive) := by
  have short := canonical.short
  have least := canonical.least
  change unpack Format.binary64 (pack Format.binary64 _) = _
  unfold UnpackedFloat.pack capped
  have biased : (exponent + (Format.binary64.exponentBias : Int) +
      (Format.binary64.mantissaBitsWithoutImplicit : Int)).toNat = (exponent + 1075).toNat := by
    congr 1
    change exponent + 1023 + 52 = exponent + 1075
    omega
  rw [biased]
  dsimp only
  by_cases inRange : exponent ≤ 971
  · rw [if_pos inRange, if_neg (by omega)]
    by_cases normal : 2 ^ 52 ≤ mantissa
    · have digits : mantissa.log2 = 52 :=
        (Nat.log2_eq_iff (by omega)).mpr ⟨normal, short⟩
      rw [digits, if_pos (by decide)]
      have exact : (BitVec.ofNat 11 (exponent + 1075).toNat).toNat = (exponent + 1075).toNat := by
        rw [BitVec.toNat_ofNat]
        omega
      have fraction : (BitVec.ofNat 52 mantissa).toNat = mantissa - 2 ^ 52 := by
        rw [BitVec.toNat_ofNat]
        omega
      rw [unpack_packComponents, exact, fraction, fields, if_neg (by omega), if_neg (by omega)]
      exact finite_congr (by omega) (by omega)
    · have fraction : (BitVec.ofNat 52 mantissa).toNat = mantissa := by
        rw [BitVec.toNat_ofNat]
        omega
      have digits : mantissa.log2 < 52 := (Nat.log2_lt (by omega)).mpr (by omega)
      rw [if_neg (by change ¬ mantissa.log2 + 1 = 53; omega), unpack_packComponents, fraction, fields]
      rw [if_neg (by decide), if_pos (by decide), dif_pos positive]
      exact finite_congr rfl (canonical.full.resolve_left normal).symm
  · rw [if_neg inRange, if_pos (by omega)]
    exact unpack_infinity sign

theorem unpack_pack {value : UnpackedFloat}
    (canonical : ∀ sign mantissa exponent positive,
      value = .finite sign mantissa exponent positive → Canonical mantissa exponent) :
    (Float.Model.pack value).unpack = capped value := by
  cases value with
  | notANumber => rfl
  | infinity sign => exact unpack_infinity sign
  | zero sign => exact unpack_packedZero
  | finite sign mantissa exponent positive =>
      exact unpack_pack_finite sign positive (canonical _ _ _ _ rfl)

end SlidePress.Binary64

namespace SlidePress.Number

open Binary64 Float.Model

def unpacked (number : Number) : UnpackedFloat := number.value.toModel.unpack

/-- The place of a number in the order; that of a not-a-number has no meaning. -/
def rank (number : Number) : Int := Binary64.rank number.unpacked

theorem representable_unpacked (number : Number) : Representable number.unpacked :=
  representable_unpack _

theorem isNaN_iff {number : Number} : number.isNaN = true ↔ number.unpacked = .notANumber := by
  change number.unpacked.isNaN = true ↔ _
  exact UnpackedFloat.isNaN_iff

section Comparisons

variable {first second : Number}

/-- Numbers compare by their places, and a not-a-number compares with nothing. -/
theorem compare_unpacked :
    first.unpacked.compare second.unpacked =
      if first.isNaN ∨ second.isNaN then none else some (compare first.rank second.rank) := by
  split
  · rename_i noNumber
    rcases noNumber with noNumber | noNumber
    · rw [isNaN_iff.mp noNumber]
      rfl
    · rw [isNaN_iff.mp noNumber]
      cases first.unpacked with
      | infinity sign => cases sign <;> rfl
      | zero sign => rfl
      | notANumber => rfl
      | finite sign mantissa exponent positive => cases sign <;> rfl
  · rename_i numbers
    rw [not_or] at numbers
    exact compare_eq (representable_unpacked first) (representable_unpacked second)
      (fun same => numbers.1 (isNaN_iff.mpr same)) (fun same => numbers.2 (isNaN_iff.mpr same))

theorem lt_iff : first < second ↔
    first.isNaN = false ∧ second.isNaN = false ∧ first.rank < second.rank := by
  have meaning : first < second ↔ (first.unpacked.compare second.unpacked == some .lt) = true :=
    ⟨fun less => of_decide_eq_true less, fun less => decide_eq_true less⟩
  rw [meaning, compare_unpacked, beq_iff_eq]
  cases first.isNaN <;> cases second.isNaN <;> simp [compare_lt_iff_lt]

theorem le_iff : first ≤ second ↔
    first.isNaN = false ∧ second.isNaN = false ∧ first.rank ≤ second.rank := by
  have meaning : first ≤ second ↔
      (first.unpacked.compare second.unpacked).any (·.isLE) = true :=
    ⟨fun less => of_decide_eq_true less, fun less => decide_eq_true less⟩
  rw [meaning, compare_unpacked]
  cases first.isNaN <;> cases second.isNaN <;> simp [Std.LawfulOrderOrd.isLE_compare]

theorem beq_iff : (first == second) = true ↔
    first.isNaN = false ∧ second.isNaN = false ∧ first.rank = second.rank := by
  have meaning : (first == second) = (first.unpacked.compare second.unpacked == some .eq) := rfl
  rw [meaning, compare_unpacked, beq_iff_eq]
  cases first.isNaN <;> cases second.isNaN <;> simp

end Comparisons

end SlidePress.Number
