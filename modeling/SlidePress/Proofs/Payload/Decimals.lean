import SlidePress.Proofs.Number.Integral
import SlidePress.Proofs.Payload.Sound

/-! The decimals of the numbers in a payload. A number is written with two decimal places and then cut to
its room, so that both places are there exactly when the digits before the point leave room for them.
From `2 ^ 53` on all numbers are integers and nothing is rounded, hence the limit lies exactly at a power
of ten. -/

namespace SlidePress.Payload

open Slide Source Json Binary64
open Style (Color)
open Float.Model (UnpackedFloat)

/-- A minus sign or none, at least one digit, a point and two digits; zero has no sign. -/
def TwoDecimals (written : Text) : Prop :=
  (∃ sign whole hundredths, written = sign ++ whole ++ '.'.toUInt8 :: hundredths ∧
    sign ∈ [[], ['-'.toUInt8]] ∧ Digits whole ∧ Digits hundredths ∧ hundredths.length = 2) ∧
  written ≠ "-0.00"

def unsigned (cut : Text) : Text := if cut == "-0.00" then "0.00" else cut

section Cutting

variable {sign whole hundredths : Text}

theorem point_not_mem (signed : sign ∈ [[], ['-'.toUInt8]]) (digits : Digits whole) :
    '.'.toUInt8 ∉ sign ++ whole := by
  intro member
  rcases List.mem_append.mp member with inSign | inWhole
  · simp only [List.mem_cons, List.not_mem_nil, or_false] at signed
    rcases signed with rfl | rfl
    · cases inSign
    · exact absurd inSign (by decide)
  · exact absurd (List.all_eq_true.mp digits.2 _ inWhole) (by decide)

theorem length_pointed (two : hundredths.length = 2) :
    (sign ++ whole ++ '.'.toUInt8 :: hundredths).length = sign.length + whole.length + 3 := by
  rw [List.length_append, List.length_append, List.length_cons, two]

theorem take_pointed (two : hundredths.length = 2) (short : sign.length + whole.length ≤ 60) :
    (sign ++ whole ++ '.'.toUInt8 :: hundredths).take numberRoom =
      sign ++ whole ++ '.'.toUInt8 :: hundredths := by
  refine List.take_of_length_le ?_
  rw [length_pointed two, numberRoom]
  omega

/-- A number keeps both decimal places exactly when they stand within its room. -/
theorem twoDecimals_cut (signed : sign ∈ [[], ['-'.toUInt8]]) (digits : Digits whole)
    (places : Digits hundredths) (two : hundredths.length = 2) {cut : Text}
    (isCut : cut = (sign ++ whole ++ '.'.toUInt8 :: hundredths).take numberRoom) :
    TwoDecimals (unsigned cut) ↔ sign.length + whole.length ≤ 60 := by
  constructor
  · intro decimals
    by_contra long
    have full : cut.length = 63 := by
      rw [isCut, List.length_take, length_pointed two, numberRoom]
      omega
    have notZero : (cut == "-0.00") = false := by
      refine beq_eq_false_iff_ne.mpr fun same => ?_
      rw [same] at full
      cases full
    rw [unsigned, notZero, if_neg Bool.false_ne_true] at decimals
    obtain ⟨⟨otherSign, otherWhole, others, same, -, -, -, short⟩, -⟩ := decimals
    -- the point of the other reading would stand among the first digits
    have front : cut.take 61 = otherSign ++ otherWhole ++ ['.'.toUInt8] := by
      have length : (otherSign ++ otherWhole).length = 60 := by
        have whole := congrArg List.length same
        rw [List.length_append, List.length_cons, short, full] at whole
        omega
      rw [same, show 61 = (otherSign ++ otherWhole).length + 1 by rw [length], List.take_length_add_append]
      rfl
    have digitsOnly : cut.take 61 = (sign ++ whole).take 61 := by
      rw [isCut, List.take_take, numberRoom, List.append_assoc, ← List.append_assoc]
      refine List.take_append_of_le_length ?_
      rw [List.length_append]
      omega
    have member : '.'.toUInt8 ∈ cut.take 61 := by
      rw [front]
      exact List.mem_append_right _ List.mem_cons_self
    rw [digitsOnly] at member
    exact point_not_mem signed digits (List.mem_of_mem_take member)
  · intro short
    have uncut := isCut.trans (take_pointed two short)
    by_cases isZero : cut = "-0.00"
    · rw [unsigned, if_pos (beq_iff_eq.mpr isZero)]
      exact ⟨⟨[], "0", "00", rfl, by decide, by decide, by decide, rfl⟩, by decide⟩
    · rw [unsigned, if_neg (by simpa using isZero)]
      exact ⟨⟨sign, whole, hundredths, uncut, signed, digits, places, two⟩, isZero⟩

theorem numberToken_cut (signed : sign ∈ [[], ['-'.toUInt8]]) (unpadded : WholePart whole)
    (places : Digits hundredths) (two : hundredths.length = 2)
    (short : sign.length + whole.length ≤ 60) {cut : Text}
    (isCut : cut = (sign ++ whole ++ '.'.toUInt8 :: hundredths).take numberRoom) :
    NumberToken (unsigned cut) := by
  rw [isCut, take_pointed two short, unsigned]
  split
  · exact ⟨[], "0", ".00", [], rfl, by decide, by decide, .inr ⟨"00", rfl, by decide⟩, .inl rfl⟩
  · exact ⟨sign, whole, '.'.toUInt8 :: hundredths, [], (List.append_nil _).symm, signed, unpadded,
      .inr ⟨hundredths, rfl, places⟩, .inl rfl⟩

end Cutting

section Magnitudes

/-- A magnitude in hundredths, as it is written. -/
def hundredthsOf (mantissa : Nat) (exponent : Int) : Nat :=
  roundQuotient .toEven ((scaled mantissa exponent).1 * 100) (scaled mantissa exponent).2

theorem hundredthsOf_integer (mantissa count : Nat) :
    hundredthsOf mantissa count = mantissa * 2 ^ count * 100 := by
  rw [hundredthsOf, scaled, if_pos (Int.natCast_nonneg count)]
  dsimp only
  rw [Int.toNat_natCast, Nat.pow_eq, roundQuotient, Nat.mod_one, Nat.div_one]
  exact if_pos (by decide)

theorem hundredthsOf_fraction (mantissa count : Nat) :
    hundredthsOf mantissa (-(count + 1 : Nat)) ≤ mantissa * 100 + 1 := by
  have bounds := roundQuotient_bounds .toEven (mantissa * 100) (2 ^ (count + 1))
  have quotient := Nat.div_le_self (mantissa * 100) (2 ^ (count + 1))
  rw [hundredthsOf, scaled, if_neg (by omega)]
  dsimp only
  rw [Int.neg_neg, Int.toNat_natCast, Nat.pow_eq]
  omega

/-- The digits before the point say whether a large power of ten is reached, as large numbers are
integers. -/
theorem whole_lt_iff {mantissa : Nat} {exponent : Int} (short : mantissa < 2 ^ 53) {digits : Nat}
    (large : 16 ≤ digits) :
    hundredthsOf mantissa exponent / 100 < 10 ^ digits ↔ Binary64.size mantissa exponent < 10 ^ digits := by
  have limit : 2 ^ 53 ≤ 10 ^ digits := (by decide : 2 ^ 53 ≤ 10 ^ 16).trans (Nat.pow_le_pow_right (by decide) large)
  rcases le_or_gt 0 exponent with integer | fraction
  · obtain ⟨count, rfl⟩ := Int.eq_ofNat_of_zero_le integer
    rw [hundredthsOf_integer, Nat.mul_div_cancel _ (by decide), Binary64.size, zpow_natCast]
    exact_mod_cast Iff.rfl
  · obtain ⟨count, rfl⟩ : ∃ count : Nat, exponent = -(count + 1 : Nat) :=
      ⟨(-exponent - 1).toNat, by omega⟩
    have most := hundredthsOf_fraction mantissa count
    refine iff_of_true (by omega) ?_
    have half : (2 : ℚ) ^ (-(count + 1 : Nat) : Int) ≤ 1 := zpow_le_one_of_nonpos₀ one_le_two (by omega)
    calc Binary64.size mantissa (-(count + 1 : Nat)) ≤ mantissa * 1 :=
          mul_le_mul_of_nonneg_left half (Nat.cast_nonneg _)
      _ = mantissa := mul_one _
      _ < 10 ^ digits := by exact_mod_cast short.trans_le limit

theorem digits_ofNat (number : Nat) : Digits (Text.ofNat number) := (wholePart_ofNat number).1

theorem length_ofNat_le_iff {number digits : Nat} (some : 0 < digits) :
    (Text.ofNat number).length ≤ digits ↔ number < 10 ^ digits := by
  rw [Text.ofNat, List.length_map]
  exact Nat.length_toDigits_le_iff (by decide) some

theorem places_padLeft {hundredths : Nat} (small : hundredths < 100) :
    Digits (Number.padLeft 2 (Text.ofNat hundredths)) ∧
      (Number.padLeft 2 (Text.ofNat hundredths)).length = 2 := by
  have short : (Text.ofNat hundredths).length ≤ 2 := (length_ofNat_le_iff (by decide)).mpr small
  have length : (Number.padLeft 2 (Text.ofNat hundredths)).length = 2 := by
    rw [Number.padLeft, List.length_append, List.length_replicate]
    omega
  refine ⟨⟨List.ne_nil_of_length_pos (by omega), List.all_eq_true.mpr fun byte member => ?_⟩, length⟩
  rcases List.mem_append.mp member with zero | digit
  · rw [List.eq_of_mem_replicate zero]
    decide
  · exact Text.isDigit_of_mem_ofNat digit

end Magnitudes

section Numbers

variable {number : Number}

def minus (negative : Bool) : Text := if negative then ['-'.toUInt8] else []

theorem fixed_finite {negative : Bool} {mantissa : Nat} {exponent : Int}
    (finite : number.meaning = .finite negative mantissa exponent) :
    Number.fixed 2 number = minus negative ++ Text.ofNat (hundredthsOf mantissa exponent / 100) ++
      '.'.toUInt8 :: Number.padLeft 2 (Text.ofNat (hundredthsOf mantissa exponent % 100)) := by
  rw [Number.fixed, finite]
  cases negative <;> simp [Number.signed, minus, hundredthsOf] <;> rfl

theorem length_minus (negative : Bool) : (minus negative).length = if negative then 1 else 0 := by
  cases negative <;> rfl

def FitsRoom (number : Number) : Prop :=
  -10 ^ 59 < amount number.unpacked ∧ amount number.unpacked < 10 ^ 60

theorem written_cut {negative : Bool} {mantissa : Nat} {exponent : Int}
    (finite : number.meaning = .finite negative mantissa exponent) :
    ∃ hundredths, Digits hundredths ∧ hundredths.length = 2 ∧ ∃ cut,
      cut = (minus negative ++ Text.ofNat (hundredthsOf mantissa exponent / 100) ++
        '.'.toUInt8 :: hundredths).take numberRoom ∧
      writtenNumber number = unsigned cut := by
  obtain ⟨places, two⟩ := places_padLeft (Nat.mod_lt (hundredthsOf mantissa exponent) (by decide : 100 > 0))
  refine ⟨_, places, two, _, rfl, ?_⟩
  rw [← fixed_finite finite]
  rfl

theorem minus_signed (negative : Bool) : minus negative ∈ [[], ['-'.toUInt8]] := by
  cases negative <;> simp [minus]

theorem twoDecimals_meaning {negative : Bool} {mantissa : Nat} {exponent : Int}
    (finite : number.meaning = .finite negative mantissa exponent) (short : mantissa < 2 ^ 53) :
    TwoDecimals (writtenNumber number) ↔
      Binary64.size mantissa exponent < 10 ^ (if negative then 59 else 60) := by
  obtain ⟨hundredths, places, two, cut, isCut, written⟩ := written_cut finite
  rw [written, twoDecimals_cut (minus_signed negative) (digits_ofNat _) places two isCut, length_minus]
  cases negative with
  | false =>
      rw [if_neg Bool.false_ne_true, if_neg Bool.false_ne_true, Nat.zero_add,
        length_ofNat_le_iff (by decide), whole_lt_iff short (by decide)]
  | true =>
      rw [if_pos rfl, if_pos rfl, Nat.add_comm, ← Nat.le_sub_iff_add_le (by decide),
        length_ofNat_le_iff (by decide), whole_lt_iff short (by decide)]

theorem numberToken_of_twoDecimals {negative : Bool} {mantissa : Nat} {exponent : Int}
    (finite : number.meaning = .finite negative mantissa exponent)
    (decimals : TwoDecimals (writtenNumber number)) : NumberToken (writtenNumber number) := by
  obtain ⟨hundredths, places, two, cut, isCut, written⟩ := written_cut finite
  rw [written, twoDecimals_cut (minus_signed negative) (digits_ofNat _) places two isCut] at decimals
  rw [written]
  exact numberToken_cut (minus_signed negative) (wholePart_ofNat _) places two decimals isCut

/-- A finite number is written with two decimals exactly when they fit its room. -/
theorem twoDecimals_iff (finite : number.isFinite = true) :
    TwoDecimals (writtenNumber number) ↔ FitsRoom number := by
  have representable := number.representable_unpacked
  have meaning := number.meaning_unpacked
  have unpacked : number.unpacked.isFinite = true := finite
  unfold FitsRoom
  cases same : number.unpacked with
  | notANumber => rw [same] at unpacked; cases unpacked
  | infinity sign => rw [same] at unpacked; cases unpacked
  | zero sign =>
      rw [same] at meaning
      rw [twoDecimals_meaning meaning (by decide), amount_zero, Binary64.size]
      refine iff_of_true ?_ (by norm_num)
      cases sign <;> norm_num [isNegative]
  | finite sign mantissa exponent some =>
      rw [same] at meaning representable
      have positive : 0 < Binary64.size mantissa exponent := size_pos some
      rw [twoDecimals_meaning meaning representable.1.short, amount_finite]
      cases sign with
      | positive =>
          refine ⟨fun less => ⟨?_, less⟩, fun within => within.2⟩
          exact lt_trans (by norm_num) positive
      | negative =>
          refine ⟨fun less => ⟨neg_lt_neg less, ?_⟩, fun within => neg_lt_neg_iff.mp within.1⟩
          exact lt_trans (neg_neg_of_pos positive) (by norm_num)

theorem meaning_of_isFinite (finite : number.isFinite = true) :
    ∃ negative mantissa exponent, number.meaning = .finite negative mantissa exponent := by
  have unpacked : number.unpacked.isFinite = true := finite
  rw [number.meaning_unpacked]
  cases same : number.unpacked with
  | notANumber => rw [same] at unpacked; cases unpacked
  | infinity sign => rw [same] at unpacked; cases unpacked
  | zero sign => exact ⟨_, _, _, rfl⟩
  | finite sign mantissa exponent some => exact ⟨_, _, _, rfl⟩

end Numbers

section Numerals

mutual

def Value.numerals : Value → List Text
  | .number written => [written]
  | .string _ | .boolean _ => []
  | .array items => itemNumerals items
  | .object members => memberNumerals members

def itemNumerals : List Value → List Text
  | [] => []
  | item :: rest => item.numerals ++ itemNumerals rest

def memberNumerals : List (Text × Value) → List Text
  | [] => []
  | (_, value) :: rest => value.numerals ++ memberNumerals rest

end

/-- The numerals are those of the numbers, in some order, and integers. -/
def Prints (numerals : List Text) (numbers : List Number) : Prop :=
  ∃ integers : List Int, numerals.Perm (numbers.map writtenNumber ++ integers.map Text.ofInt)

variable {numerals others : List Text} {numbers more : List Number}

theorem prints_nil : Prints [] [] := ⟨[], .nil⟩

theorem prints_number (number : Number) : Prints (ofNumber number).numerals [number] := ⟨[], .rfl⟩

theorem prints_ofNat (number : Nat) : Prints (Value.ofNat number).numerals [] :=
  ⟨[number], .of_eq (by simp [Value.ofNat, Value.numerals, Text.ofInt])⟩

theorem Prints.append (first : Prints numerals numbers) (second : Prints others more) :
    Prints (numerals ++ others) (numbers ++ more) := by
  obtain ⟨integers, printed⟩ := first
  obtain ⟨integersToo, printedToo⟩ := second
  refine ⟨integers ++ integersToo, (printed.append printedToo).trans ?_⟩
  rw [List.map_append, List.map_append, List.append_assoc, List.append_assoc]
  refine .append_left _ ?_
  rw [← List.append_assoc, ← List.append_assoc]
  exact .append_right _ List.perm_append_comm

theorem Prints.of_perm (prints : Prints numerals numbers) (same : numbers.Perm more) :
    Prints numerals more := by
  obtain ⟨integers, printed⟩ := prints
  exact ⟨integers, printed.trans (.append_right _ (same.map _))⟩

theorem memberNumerals_append (members other : List (Text × Value)) :
    memberNumerals (members ++ other) = memberNumerals members ++ memberNumerals other := by
  induction members with
  | nil => rfl
  | cons member rest ih =>
      rw [List.cons_append, memberNumerals, memberNumerals, ih, List.append_assoc]

theorem prints_members_nil : Prints (memberNumerals []) [] := prints_nil

theorem prints_member (name : Text) {value : Value} {members : List (Text × Value)}
    (first : Prints value.numerals numbers) (rest : Prints (memberNumerals members) more) :
    Prints (memberNumerals ((name, value) :: members)) (numbers ++ more) :=
  first.append rest

theorem prints_record_nil : Prints (Value.record []).numerals [] := prints_nil

theorem prints_record_cons {group : List (Text × Value)} {groups : List (List (Text × Value))}
    (first : Prints (memberNumerals group) numbers) (rest : Prints (Value.record groups).numerals more) :
    Prints (Value.record (group :: groups)).numerals (numbers ++ more) := by
  rw [Value.record, List.flatten_cons, Value.numerals, memberNumerals_append]
  exact first.append rest

theorem prints_optional {α : Type} (name : Text) {encode : α → Value} {held : α → List Number}
    (each : ∀ given, Prints (encode given).numerals (held given)) (value : Option α) :
    Prints (memberNumerals (optional name encode value)) (value.toList.flatMap held) := by
  cases value with
  | none => exact prints_nil
  | some given => exact prints_member name (each given) prints_nil

theorem prints_items {α : Type} {encode : α → Value} {held : α → List Number}
    (each : ∀ item, Prints (encode item).numerals (held item)) (items : List α) :
    Prints (Value.array (items.map encode)).numerals (items.flatMap held) := by
  change Prints (itemNumerals _) _
  induction items with
  | nil => exact prints_nil
  | cons item rest ih => exact (each item).append ih

end Numerals

section Encoders

theorem prints_ofColor (color : Color) : Prints (ofColor color).numerals [] :=
  ⟨[color.transparency], .rfl⟩

theorem prints_rectMembers (rect : Rect Number) :
    Prints (memberNumerals (rectMembers rect)) (rectNumbers rect) :=
  ⟨[], .rfl⟩

theorem prints_ofRect (rect : Rect Number) : Prints (ofRect rect).numerals (rectNumbers rect) :=
  prints_rectMembers rect

theorem prints_ofRef (ref : NodeRef) : Prints (ofRef ref).numerals [] := prints_ofNat ref.order

theorem prints_ofRun (run : TextRun) : Prints (ofRun run).numerals [] := by
  obtain ⟨text, bold, italic, underline, color, align, breakBefore, marker⟩ := run
  cases color with
  | none => exact prints_nil
  | some color => exact prints_ofColor color

theorem prints_ofFont (font : Font) : Prints (ofFont font).numerals [font.size, font.lineSpacing] :=
  (prints_number font.size).append ((prints_ofColor font.color).append (prints_number font.lineSpacing))

theorem prints_ofInsets (insets : Insets) :
    Prints (ofInsets insets).numerals [insets.left, insets.top, insets.right, insets.bottom] :=
  ⟨[], .rfl⟩

theorem prints_ofOutline (outline : Outline) : Prints (ofOutline outline).numerals [outline.width] :=
  (prints_ofColor outline.color).append (prints_number outline.width)

theorem prints_ofShadow (shadow : Shadow) : Prints (ofShadow shadow).numerals (shadowNumbers shadow) :=
  (prints_ofColor shadow.color).append ⟨[], .rfl⟩

theorem prints_bodyMembers (body : Body) :
    Prints (memberNumerals (bodyMembers body)) (bodyNumbers body) := by
  cases body with
  | text content =>
      have runs : Prints (Value.array (content.runs.map ofRun)).numerals [] := by
        have each := prints_items prints_ofRun content.runs
        rwa [List.flatMap_eq_nil_iff.mpr fun _ _ => rfl] at each
      exact (prints_ofFont content.font).append ((prints_ofInsets content.insets).append (runs.append prints_nil))
  | shape style =>
      obtain ⟨fill, outline, radius, shadow⟩ := style
      have filled := prints_optional "fill" prints_ofColor fill
      have outlined := prints_optional "outline" prints_ofOutline outline
      have rounded := prints_member "radius" (prints_number radius) prints_members_nil
      have cast := prints_optional "shadow" prints_ofShadow shadow
      rw [List.flatMap_eq_nil_iff.mpr fun _ _ => rfl] at filled
      rw [← List.map_eq_flatMap] at outlined
      have all := prints_record_cons filled (prints_record_cons outlined
        (prints_record_cons rounded (prints_record_cons cast prints_record_nil)))
      refine all.of_perm ?_
      rw [bodyNumbers, List.nil_append, List.append_nil, List.append_nil, List.cons_append]
      exact List.perm_middle
  | image source fitted => exact prints_ofRect fitted
  | placeholder => exact prints_nil

theorem prints_ofPrimitive (primitive : Primitive) :
    Prints (ofPrimitive primitive).numerals (primitiveNumbers primitive) := by
  have header : Prints (memberNumerals
      [("kind", .string primitive.kindName), ("id", .string primitive.header.id),
        ("frame", ofRect primitive.header.frame), ("z", .ofNat primitive.header.zOrder),
        ("source", ofRef primitive.header.source)]) (rectNumbers primitive.header.frame) :=
    (prints_ofRect _).append ((prints_ofNat _).append ((prints_ofRef _).append prints_nil))
  have all := prints_record_cons header (prints_record_cons (prints_bodyMembers primitive.body) prints_record_nil)
  rw [List.append_nil] at all
  exact all

theorem prints_ofOverage (overage : Overage) :
    Prints (ofOverage overage).numerals (overage.sides.map (·.2)) :=
  ⟨[], .rfl⟩

theorem prints_ofIssue (issue : Issue) : Prints (ofIssue issue).numerals (issueNumbers issue) := by
  have nodes : Prints (Value.array (issue.nodes.map ofRef)).numerals [] := by
    have each := prints_items prints_ofRef issue.nodes
    rwa [List.flatMap_eq_nil_iff.mpr fun _ _ => rfl] at each
  have header : Prints (memberNumerals
      [("kind", .string issue.kind.name), ("detail", .string issue.detail),
        ("nodes", .array (issue.nodes.map ofRef))]) [] := nodes.append prints_nil
  have sides := prints_optional "overage" prints_ofOverage issue.overage
  have all := prints_record_cons header (prints_record_cons sides prints_record_nil)
  rw [List.append_nil] at all
  exact all

theorem prints_ofPlaceholder (placeholder : Text × Rect Number) :
    Prints (ofPlaceholder placeholder).numerals (rectNumbers placeholder.2) :=
  prints_rectMembers placeholder.2

theorem prints_ofDeck (deck : Deck) : Prints (ofDeck deck).numerals (numbers (.slide deck)) := by
  have canvas : Prints (memberNumerals
      [("canvas", .object [("w", ofNumber deck.canvas.width), ("h", ofNumber deck.canvas.height)])])
      [deck.canvas.width, deck.canvas.height] := ⟨[], .rfl⟩
  have background := prints_optional "background" prints_ofColor deck.background
  rw [List.flatMap_eq_nil_iff.mpr fun _ _ => rfl] at background
  have primitives := prints_items prints_ofPrimitive deck.primitives
  have placeholders := prints_items prints_ofPlaceholder deck.placeholders.entries
  have lists := prints_member "primitives" primitives
    (prints_member "placeholders" placeholders prints_members_nil)
  have all := prints_record_cons canvas (prints_record_cons background
    (prints_record_cons lists prints_record_nil))
  rw [List.append_nil, List.append_nil, List.nil_append, ← List.append_assoc] at all
  exact all

theorem prints_ofOutcome (outcome : Outcome) : Prints (ofOutcome outcome).numerals (numbers outcome) := by
  cases outcome with
  | slide deck => exact prints_ofDeck deck
  | rejected issues =>
      have all := (prints_items prints_ofIssue issues).append prints_members_nil
      rw [List.append_nil] at all
      exact all

end Encoders

/-- What a payload prints as numbers are the numbers of the outcome and integers, and a finite number has
its two decimals exactly when it lies between `-10 ^ 59` and `10 ^ 60`. When all do, all are written as JSON
writes numbers. -/
theorem decimals_of_numbers (outcome : Outcome)
    (finite : ∀ number ∈ numbers outcome, number.isFinite = true) :
    Prints (ofOutcome outcome).numerals (numbers outcome) ∧
      (∀ number ∈ numbers outcome, TwoDecimals (writtenNumber number) ↔ FitsRoom number) ∧
      ((∀ number ∈ numbers outcome, FitsRoom number) → Printed (numbers outcome)) := by
  refine ⟨prints_ofOutcome outcome, fun number inside => twoDecimals_iff (finite number inside),
    fun fits number inside => ?_⟩
  obtain ⟨negative, mantissa, exponent, meaning⟩ := meaning_of_isFinite (finite number inside)
  exact numberToken_of_twoDecimals meaning ((twoDecimals_iff (finite number inside)).mpr (fits number inside))

def roundedDeck (radius : Number) : Deck where
  primitives := [⟨{ id := "s", frame := ⟨0, 0, 10, 10⟩ }, .shape { cornerRadius := radius }⟩]
  placeholders := {}
  canvas := ⟨720, 405⟩
  background := none

theorem decimals_of_numbers_rounded :
    (∀ number ∈ numbers (.slide (roundedDeck 1e59)), number.isFinite = true) ∧
      Prints (ofOutcome (.slide (roundedDeck 1e59))).numerals (numbers (.slide (roundedDeck 1e59))) ∧
      (∀ number ∈ numbers (.slide (roundedDeck 1e59)),
        TwoDecimals (writtenNumber number) ↔ FitsRoom number) ∧
      ((∀ number ∈ numbers (.slide (roundedDeck 1e59)), FitsRoom number) →
        Printed (numbers (.slide (roundedDeck 1e59)))) := by
  have finite : ∀ number ∈ numbers (.slide (roundedDeck 1e59)), number.isFinite = true := by
    decide +kernel
  exact ⟨finite, decimals_of_numbers _ finite⟩

/-- The decimals of a number of 71 digits are cut off, and some of its digits with them. -/
theorem not_decimals_of_numbers :
    ¬ ∀ outcome : Outcome, (∀ number ∈ numbers outcome, number.isFinite = true) →
      ∀ number ∈ numbers outcome, TwoDecimals (writtenNumber number) := by
  intro all
  have finite : ∀ number ∈ numbers (.slide (roundedDeck 1e70)), number.isFinite = true := by
    decide +kernel
  have inside : (1e70 : Number) ∈ numbers (.slide (roundedDeck 1e70)) := by
    simp [numbers, roundedDeck, primitiveNumbers, bodyNumbers]
  have meaning : (1e70 : Number).meaning = .finite false 6525304467998525 180 := by decide +kernel
  have less := (twoDecimals_meaning meaning (by decide)).mp (all _ finite _ inside)
  rw [Binary64.size] at less
  norm_num at less

end SlidePress.Payload
