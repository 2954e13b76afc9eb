import Mathlib.Data.List.Forall2
import Mathlib.Data.List.Infix
import Mathlib.Data.Nat.Digits.Defs
import SlidePress.Proofs.Html.Writer
import SlidePress.Proofs.Text.Case
import SlidePress.Proofs.Text.Utf8

/-! References among other text. A reference is replaced by its character wherever it stands, but for
one case: an ampersand shortly before it, with no semicolon between the two, takes the reference for
part of its own body, and then both stay as they are written. -/

namespace SlidePress.Html.Reference

/-- What stands between the ampersand and the semicolon of a reference to a code point: a name, or
the number of the code point in decimal or hexadecimal digits. -/
inductive Refers : Text → Nat → Prop where
  | name {name : Text} {point : Nat} (listed : (name, point) ∈ namedCharacters) : Refers name point
  | decimal {digits : Text} {values : List Nat} (nonempty : digits ≠ [])
      (read : List.Forall₂ (fun byte value => Byte.hexDigit? byte = some value ∧ value < 10)
        digits values) :
      Refers ('#'.toUInt8 :: digits) (Nat.ofDigits 10 values.reverse)
  | hexadecimal {mark : UInt8} {digits : Text} {values : List Nat}
      (marked : mark = 'x'.toUInt8 ∨ mark = 'X'.toUInt8) (nonempty : digits ≠ [])
      (read : List.Forall₂ (fun byte value => Byte.hexDigit? byte = some value) digits values) :
      Refers ('#'.toUInt8 :: mark :: digits) (Nat.ofDigits 16 values.reverse)

/-- The body of a reference that is recognised on its own. -/
structure Recognized (body : Text) (point : Nat) : Prop where
  refers : Refers body point
  writable : 0 < point ∧ point.isValidChar
  short : body.length ≤ longestBody

/-- Every named character is recognised. -/
theorem recognized_of_listed {name : Text} {point : Nat}
    (listed : (name, point) ∈ namedCharacters) : Recognized name point := by
  have each : ∀ entry ∈ namedCharacters,
      (0 < entry.2 ∧ entry.2.isValidChar) ∧ entry.1.length ≤ longestBody := by
    unfold Nat.isValidChar
    decide +kernel
  obtain ⟨writable, short⟩ := each _ listed
  exact ⟨.name listed, writable, short⟩

/-! ## Digits -/

section Digits

variable {base : Nat} {digit? : UInt8 → Option Nat}

/-- A digit of a value below ten is a decimal one. -/
theorem decimalDigit?_of_lt {byte : UInt8} {value : Nat}
    (digit : Byte.hexDigit? byte = some value ∧ value < 10) :
    Byte.isDigit byte = true ∧ decimalDigit? byte = some value := by
  obtain ⟨read, small⟩ := digit
  have digit : Byte.isDigit byte = true := by
    by_contra other
    rw [Byte.hexDigit?, if_neg other] at read
    simp only [Bool.and_eq_true, decide_eq_true_eq, UInt8.le_iff_toNat_le] at read
    split at read
    · rename_i lower
      have value_eq := Option.some.inj read
      have above : 97 ≤ byte.toNat := lower.1
      omega
    · split at read
      · rename_i upper
        have value_eq := Option.some.inj read
        have above : 65 ≤ byte.toNat := upper.1
        omega
      · cases read
  exact ⟨digit, by rw [decimalDigit?, if_pos digit, read]⟩

theorem foldlM_digits {digits : Text} {values : List Nat}
    (read : List.Forall₂ (fun byte value => digit? byte = some value) digits values)
    (start : Nat) :
    digits.foldlM (fun number byte => (digit? byte).map (base * number + ·)) start =
      some (values.foldl (fun number value => base * number + value) start) := by
  induction read generalizing start with
  | nil => rfl
  | cons same _ ih => rw [List.foldlM_cons, same, Option.map_some, List.foldl_cons, ← ih]; rfl

/-- Digits are read as the number they write in their base. -/
theorem digits?_of_read {digits : Text} {values : List Nat} (nonempty : digits ≠ [])
    (read : List.Forall₂ (fun byte value => digit? byte = some value) digits values) :
    digits? base digit? digits = some (Nat.ofDigits base values.reverse) := by
  rw [digits?, if_neg (by simpa using nonempty), foldlM_digits read, Nat.ofDigits_eq_foldr,
    List.foldr_reverse]
  simp only [Nat.cast_id, Nat.add_comm]

/-- Only digits are read as a number. -/
theorem isSome_of_digits? {digits : Text} {number : Nat}
    (read : digits? base digit? digits = some number) :
    ∀ byte ∈ digits, (digit? byte).isSome = true := by
  have each : ∀ start, digits.foldlM (fun number byte => (digit? byte).map (base * number + ·))
      start = some number → ∀ byte ∈ digits, (digit? byte).isSome = true := by
    clear read
    induction digits with
    | nil => exact fun _ _ => nofun
    | cons first rest ih =>
        intro start folded
        rw [List.foldlM_cons] at folded
        obtain ⟨next, value, others⟩ := Option.bind_eq_some_iff.mp folded
        obtain ⟨own, same, _⟩ := Option.map_eq_some_iff.mp value
        rw [List.forall_mem_cons]
        exact ⟨by rw [same]; rfl, ih next others⟩
  rw [digits?] at read
  split at read
  · cases read
  · exact each 0 read

end Digits

/-! ## Bodies -/

theorem find?_listed {name : Text} {point : Nat} (listed : (name, point) ∈ namedCharacters) :
    namedCharacters.find? (·.1 == name) = some (name, point) := by
  have each : ∀ entry ∈ namedCharacters,
      namedCharacters.find? (·.1 == entry.1) = some entry := by decide +kernel
  exact each _ listed

/-- No name begins with a number sign. -/
theorem find?_number (digits : Text) :
    namedCharacters.find? (·.1 == '#'.toUInt8 :: digits) = none := by
  have each : ∀ entry ∈ namedCharacters, entry.1.head? ≠ some '#'.toUInt8 := by decide +kernel
  refine List.find?_eq_none.mpr fun entry listed same => each entry listed ?_
  rw [beq_iff_eq.mp same]
  rfl

theorem codePoint?_decimal {digits : Text} {values : List Nat} (nonempty : digits ≠ [])
    (read : List.Forall₂ (fun byte value => Byte.hexDigit? byte = some value ∧ value < 10)
      digits values) :
    codePoint? ('#'.toUInt8 :: digits) = some (Nat.ofDigits 10 values.reverse) := by
  have number : digits? 10 decimalDigit? digits = some (Nat.ofDigits 10 values.reverse) :=
    digits?_of_read nonempty (read.imp fun _ _ digit => (decimalDigit?_of_lt digit).2)
  cases read with
  | nil => exact (nonempty rfl).elim
  | @cons byte _ rest _ first _ =>
      have digit := (decimalDigit?_of_lt first).1
      have unmarked : (Byte.toLower byte == 'x'.toUInt8) = false := by
        rw [Byte.toLower_of_not_isUpper (Byte.isUpper_of_isDigit digit), beq_eq_false_iff_ne]
        rintro rfl
        cases digit
      simp only [codePoint?, unmarked, beq_self_eq_true, if_true, Bool.false_eq_true, if_false]
      exact number

theorem codePoint?_hexadecimal {mark : UInt8} {digits : Text} {values : List Nat}
    (marked : mark = 'x'.toUInt8 ∨ mark = 'X'.toUInt8) (nonempty : digits ≠ [])
    (read : List.Forall₂ (fun byte value => Byte.hexDigit? byte = some value) digits values) :
    codePoint? ('#'.toUInt8 :: mark :: digits) = some (Nat.ofDigits 16 values.reverse) := by
  have isMark : (Byte.toLower mark == 'x'.toUInt8) = true := by
    rcases marked with rfl | rfl <;> decide
  simp only [codePoint?, isMark, beq_self_eq_true, if_true]
  exact digits?_of_read nonempty read

/-- A recognised body is read as the character it refers to. -/
theorem character?_of_recognized {body : Text} {point : Nat} (recognized : Recognized body point) :
    character? body = some (String.utf8EncodeChar (Char.ofNat point)) := by
  obtain ⟨refers, valid, _⟩ := recognized
  have writable := Utf8.isWritable_iff.mpr valid
  rw [← Utf8.encode_eq writable, character?]
  cases refers with
  | name listed => rw [find?_listed listed]
  | decimal nonempty read =>
      rw [find?_number, codePoint?_decimal nonempty read]
      exact if_pos writable
  | hexadecimal marked nonempty read =>
      rw [find?_number, codePoint?_hexadecimal marked nonempty read]
      exact if_pos writable

theorem not_mem_of_digits {digits : Text} {values : List Nat} {mark : UInt8}
    (read : List.Forall₂ (fun byte value => Byte.hexDigit? byte = some value) digits values)
    (noDigit : Byte.hexDigit? mark = none) : mark ∉ digits := by
  induction read with
  | nil => exact List.not_mem_nil
  | cons same _ ih =>
      rw [List.mem_cons, not_or]
      refine ⟨?_, ih⟩
      rintro rfl
      rw [noDigit] at same
      cases same

/-- A recognised body ends at its semicolon. -/
theorem closed_of_refers {body : Text} {point : Nat} (refers : Refers body point) :
    ';'.toUInt8 ∉ body := by
  have noDigit : Byte.hexDigit? ';'.toUInt8 = none := by decide
  cases refers with
  | name listed =>
      have each : ∀ entry ∈ namedCharacters, ';'.toUInt8 ∉ entry.1 := by decide +kernel
      exact each _ listed
  | decimal _ read =>
      rw [List.mem_cons, not_or]
      exact ⟨by decide, not_mem_of_digits (read.imp fun _ _ digit => digit.1) noDigit⟩
  | hexadecimal marked _ read =>
      rw [List.mem_cons, List.mem_cons, not_or, not_or]
      refine ⟨by decide, ?_, not_mem_of_digits read noDigit⟩
      rcases marked with rfl | rfl <;> decide

/-- No number is read from digits with an ampersand among them. -/
theorem ampersand_not_mem_of_codePoint? {body : Text} {point : Nat}
    (read : codePoint? body = some point) : '&'.toUInt8 ∉ body := by
  intro member
  unfold codePoint? at read
  split at read
  · rename_i mark digits
    split at read
    · rename_i isNumber
      have inDigits : '&'.toUInt8 ∈ digits := by
        refine (List.mem_cons.mp member).resolve_left ?_
        rw [beq_iff_eq.mp isNumber]
        decide
      split at read
      · rename_i first rest
        split at read
        · rename_i marked
          have inRest : '&'.toUInt8 ∈ rest := by
            refine (List.mem_cons.mp inDigits).resolve_left ?_
            rintro rfl
            cases marked
          cases isSome_of_digits? read _ inRest
        · cases isSome_of_digits? read _ inDigits
      · cases read
    · cases read
  · cases read

/-- A body with an ampersand in it is not recognised. -/
theorem character?_of_ampersand {body : Text} (member : '&'.toUInt8 ∈ body) :
    character? body = none := by
  have unnamed : namedCharacters.find? (·.1 == body) = none := by
    have each : ∀ entry ∈ namedCharacters, '&'.toUInt8 ∉ entry.1 := by decide +kernel
    refine List.find?_eq_none.mpr fun entry listed same => each entry listed ?_
    rw [beq_iff_eq.mp same]
    exact member
  cases read : codePoint? body with
  | none => rw [character?, unnamed, read]
  | some point => exact (ampersand_not_mem_of_codePoint? read member).elim

/-! ## Ampersands -/

theorem decode_ampersand_long {body : Text} (closed : ';'.toUInt8 ∉ body)
    (long : longestBody < body.length) (rest : Text) :
    decode ('&'.toUInt8 :: (body ++ ';'.toUInt8 :: rest)) =
      '&'.toUInt8 :: decode (body ++ ';'.toUInt8 :: rest) := by
  rw [decode, if_pos (by simp)]
  split
  · rename_i inner more found
    rw [Text.splitAtByte?_append closed] at found
    cases found
    rw [if_neg (by omega)]
  · rfl

theorem decode_ampersand_open {rest : Text} (unclosed : ';'.toUInt8 ∉ rest) :
    decode ('&'.toUInt8 :: rest) = '&'.toUInt8 :: decode rest := by
  rw [decode, if_pos (by simp)]
  split
  · rename_i inner more found
    rw [Text.splitAtByte?_eq_none.mpr unclosed] at found
    cases found
  · rfl

/-- Without a semicolon there are no references. -/
theorem decode_unclosed {text : Text} (unclosed : ';'.toUInt8 ∉ text) : decode text = text := by
  induction text with
  | nil => exact decode_nil
  | cons byte rest ih =>
      have later := ih fun member => unclosed (List.mem_cons_of_mem _ member)
      by_cases same : byte = '&'.toUInt8
      · rw [same, decode_ampersand_open fun member => unclosed (List.mem_cons_of_mem _ member),
          later]
      · rw [decode_cons_of_ne same, later]

/-- An ampersand near the end of a text, with no semicolon behind it, so that what follows the text
belongs to its body, up to a semicolon after `room` bytes. -/
def HoldsBack (text : Text) (room : Nat) : Prop :=
  ∃ earlier between : Text, text = earlier ++ '&'.toUInt8 :: between ∧
    ';'.toUInt8 ∉ between ∧ between.length + room ≤ longestBody

section Ampersands

variable {room : Nat}

theorem not_holdsBack_nil : ¬ HoldsBack [] room := by
  rintro ⟨earlier, between, whole, _⟩
  cases earlier <;> cases whole

theorem holdsBack_cons_of_ne {byte : UInt8} (other : byte ≠ '&'.toUInt8) (rest : Text) :
    HoldsBack (byte :: rest) room ↔ HoldsBack rest room := by
  constructor
  · rintro ⟨earlier, between, whole, unclosed, near⟩
    cases earlier with
    | nil => exact (other (List.cons.inj whole).1).elim
    | cons first more => exact ⟨more, between, (List.cons.inj whole).2, unclosed, near⟩
  · rintro ⟨earlier, between, rfl, unclosed, near⟩
    exact ⟨byte :: earlier, between, rfl, unclosed, near⟩

/-- Only ampersands behind the last semicolon count. -/
theorem holdsBack_semicolon (first second : Text) :
    HoldsBack (first ++ ';'.toUInt8 :: second) room ↔ HoldsBack second room := by
  constructor
  · rintro ⟨earlier, between, whole, unclosed, near⟩
    rcases List.append_eq_append_iff.mp whole with ⟨more, rfl, behind⟩ | ⟨more, rfl, behind⟩
    · cases more with
      | nil => cases (List.cons.inj behind).1
      | cons head tail => exact ⟨tail, between, (List.cons.inj behind).2, unclosed, near⟩
    · cases more with
      | nil => cases (List.cons.inj behind).1
      | cons head tail =>
          obtain ⟨_, rfl⟩ := List.cons.inj behind
          exact (unclosed (List.mem_append_right _ List.mem_cons_self)).elim
  · rintro ⟨earlier, between, rfl, unclosed, near⟩
    exact ⟨first ++ ';'.toUInt8 :: earlier, between, by simp, unclosed, near⟩

theorem holdsBack_ampersand {rest : Text} (unclosed : ';'.toUInt8 ∉ rest)
    (far : longestBody < rest.length + room) :
    HoldsBack ('&'.toUInt8 :: rest) room ↔ HoldsBack rest room := by
  constructor
  · rintro ⟨earlier, between, whole, unclosed, near⟩
    cases earlier with
    | nil =>
        obtain ⟨_, rfl⟩ := List.cons.inj whole
        omega
    | cons first more => exact ⟨more, between, (List.cons.inj whole).2, unclosed, near⟩
  · rintro ⟨earlier, between, rfl, unclosed, near⟩
    exact ⟨'&'.toUInt8 :: earlier, between, rfl, unclosed, near⟩

end Ampersands

/-! ## References among other text -/

def reference (body : Text) : Text := '&'.toUInt8 :: (body ++ [';'.toUInt8])

/-- What becomes of a reference between two texts. -/
structure Settled (body before after : Text) (point : Nat) : Prop where
  read : ¬ HoldsBack before (body.length + 1) →
    decode (before ++ reference body ++ after) =
      decode before ++ String.utf8EncodeChar (Char.ofNat point) ++ decode after
  kept : HoldsBack before (body.length + 1) →
    decode (before ++ reference body ++ after) = decode before ++ reference body ++ decode after

namespace Settled

variable {body before rest after : Text} {point : Nat}

/-- What has been read before a text does not matter when it holds nothing back. -/
theorem extend (settled : Settled body rest after point) (lead : Text)
    (same : HoldsBack before (body.length + 1) ↔ HoldsBack rest (body.length + 1))
    (own : decode before = lead ++ decode rest)
    (whole : decode (before ++ reference body ++ after) =
      lead ++ decode (rest ++ reference body ++ after)) : Settled body before after point := by
  constructor
  · intro free
    rw [whole, own, settled.read (fun held => free (same.mpr held)), List.append_assoc,
      List.append_assoc, List.append_assoc]
  · intro held
    rw [whole, own, settled.kept (same.mp held), List.append_assoc, List.append_assoc,
      List.append_assoc]

/-- An ampersand that takes the reference for part of its body keeps it as it is written. -/
theorem of_near (closed : ';'.toUInt8 ∉ body) (unclosed : ';'.toUInt8 ∉ rest)
    (near : rest.length + (body.length + 1) ≤ longestBody) :
    Settled body ('&'.toUInt8 :: rest) after point := by
  constructor
  · exact fun free => (free ⟨[], rest, rfl, unclosed, near⟩).elim
  · intro _
    have own : decode ('&'.toUInt8 :: rest) = '&'.toUInt8 :: rest := by
      rw [decode_ampersand_open unclosed, decode_unclosed unclosed]
    have closedToo : ';'.toUInt8 ∉ rest ++ '&'.toUInt8 :: body := by
      rw [List.mem_append, List.mem_cons, not_or, not_or]
      exact ⟨unclosed, by decide, closed⟩
    have short : (rest ++ '&'.toUInt8 :: body).length ≤ longestBody := by
      rw [List.length_append, List.length_cons]
      exact near
    have shape : '&'.toUInt8 :: rest ++ reference body ++ after =
        '&'.toUInt8 :: ((rest ++ '&'.toUInt8 :: body) ++ ';'.toUInt8 :: after) := by
      simp [reference]
    have mark : (";" : Text) = [';'.toUInt8] := by decide
    rw [own, shape, decode_body closedToo short, character?_of_ampersand (by simp),
      Option.getD_none, mark]
    simp [reference]

theorem of_recognized (recognized : Recognized body point) (before after : Text) :
    Settled body before after point := by
  have closed := closed_of_refers recognized.refers
  induction before using decode.induct with
  | case1 =>
      refine ⟨fun _ => ?_, fun held => (not_holdsBack_nil held).elim⟩
      have alone := decode_reference body closed recognized.short
        (character?_of_recognized recognized) after
      have shape : [] ++ reference body ++ after =
          '&'.toUInt8 :: (body ++ ';'.toUInt8 :: after) := by simp [reference]
      rw [shape, alone, decode_nil, List.nil_append]
  | case2 byte rest isAmpersand inner more found short ih =>
      obtain ⟨rfl, closedToo⟩ := Text.splitAtByte?_eq_some found
      obtain rfl := beq_iff_eq.mp isAmpersand
      refine ih.extend _ (holdsBack_semicolon ('&'.toUInt8 :: inner) more)
        (decode_body closedToo short more) ?_
      rw [← decode_body closedToo short]
      simp
  | case3 byte rest isAmpersand inner more found long ih =>
      obtain ⟨rfl, closedToo⟩ := Text.splitAtByte?_eq_some found
      obtain rfl := beq_iff_eq.mp isAmpersand
      have far := Nat.lt_of_not_le long
      refine ih.extend ['&'.toUInt8] ?_ (decode_ampersand_long closedToo far more) ?_
      · exact (holdsBack_semicolon ('&'.toUInt8 :: inner) more).trans
          (holdsBack_semicolon inner more).symm
      · have whole := decode_ampersand_long closedToo far (more ++ reference body ++ after)
        simpa using whole
  | case4 byte rest isAmpersand missing ih =>
      obtain rfl := beq_iff_eq.mp isAmpersand
      have unclosed := Text.splitAtByte?_eq_none.mp missing
      by_cases near : rest.length + (body.length + 1) ≤ longestBody
      · exact of_near closed unclosed near
      · have far := Nat.lt_of_not_le near
        refine ih.extend ['&'.toUInt8] (holdsBack_ampersand unclosed far)
          (decode_ampersand_open unclosed) ?_
        have closedToo : ';'.toUInt8 ∉ rest ++ '&'.toUInt8 :: body := by
          rw [List.mem_append, List.mem_cons, not_or, not_or]
          exact ⟨unclosed, by decide, closed⟩
        have long : longestBody < (rest ++ '&'.toUInt8 :: body).length := by
          rw [List.length_append, List.length_cons]
          exact far
        have whole := decode_ampersand_long closedToo long after
        simpa [reference] using whole
  | case5 byte rest other ih =>
      have solid : byte ≠ '&'.toUInt8 := fun same => other (beq_iff_eq.mpr same)
      exact ih.extend [byte] (holdsBack_cons_of_ne solid rest)
        (decode_cons_of_ne solid rest) (decode_cons_of_ne solid _)

end Settled

/-- A character and a reference differ between any two texts: no character is written with a
semicolon beside its ampersand. -/
theorem replaced_ne_kept (character : Char) (body first second : Text) :
    first ++ String.utf8EncodeChar character ++ second ≠ first ++ reference body ++ second := by
  intro same
  have inner : String.utf8EncodeChar character = reference body :=
    List.append_cancel_left (List.append_cancel_right same)
  have ampersand : '&'.toUInt8 ∈ String.utf8EncodeChar character := by rw [inner]; simp [reference]
  have semicolon : ';'.toUInt8 ∈ String.utf8EncodeChar character := by rw [inner]; simp [reference]
  have one := (Utf8.toNat_of_mem_utf8EncodeChar ampersand).resolve_right (by decide)
  have other := (Utf8.toNat_of_mem_utf8EncodeChar semicolon).resolve_right (by decide)
  exact absurd (one.trans other.symm) (by decide)

/-- A recognised reference between two texts is replaced by its character, and the texts are read as
they are alone, unless the text before holds it back; then the reference stays as it is written. -/
theorem decode_around_reference {body : Text} {point : Nat} (recognized : Recognized body point)
    (before after : Text) :
    (decode (before ++ reference body ++ after) =
        decode before ++ String.utf8EncodeChar (Char.ofNat point) ++ decode after ↔
      ¬ HoldsBack before (body.length + 1)) ∧
    (HoldsBack before (body.length + 1) →
      decode (before ++ reference body ++ after) =
        decode before ++ reference body ++ decode after) := by
  obtain ⟨read, kept⟩ := Settled.of_recognized recognized before after
  refine ⟨⟨fun replaced held => ?_, read⟩, kept⟩
  exact replaced_ne_kept _ body _ _ (replaced.symm.trans (kept held))

section Samples

instance (text : Text) (room : Nat) : Decidable (HoldsBack text room) :=
  decidable_of_iff
    (∃ tail ∈ text.tails, tail.head? = some '&'.toUInt8 ∧ ';'.toUInt8 ∉ tail.tail ∧
      tail.tail.length + room ≤ longestBody)
    (by
      constructor
      · rintro ⟨tail, isTail, first, unclosed, near⟩
        obtain ⟨earlier, rfl⟩ := (List.mem_tails _ _).mp isTail
        obtain ⟨between, rfl⟩ := List.head?_eq_some_iff.mp first
        exact ⟨earlier, between, rfl, unclosed, near⟩
      · rintro ⟨earlier, between, rfl, unclosed, near⟩
        exact ⟨_, (List.mem_tails _ _).mpr (List.suffix_append ..), rfl, unclosed, near⟩)

/-- The number of the bullet in hexadecimal digits. -/
theorem recognized_bullet : Recognized "#x2022" 0x2022 := by
  have read : Refers "#x2022" (Nat.ofDigits 16 [2, 0, 2, 2].reverse) :=
    .hexadecimal (.inl rfl) (List.cons_ne_nil _ _)
      (.cons rfl (.cons rfl (.cons rfl (.cons rfl .nil))))
  have number : Nat.ofDigits 16 [2, 0, 2, 2].reverse = 0x2022 := by decide
  rw [number] at read
  exact ⟨read, by unfold Nat.isValidChar; decide, by decide⟩

/-- An ampersand further away holds nothing back. -/
theorem decode_around_reference_bullet :
    Recognized "#x2022" 0x2022 ∧
      decode (("Fish & chips: " : Text) ++ reference "#x2022" ++ (" &amp; peas" : Text)) =
        decode "Fish & chips: " ++ String.utf8EncodeChar (Char.ofNat 0x2022) ++
          decode " &amp; peas" :=
  ⟨recognized_bullet,
    (decode_around_reference recognized_bullet "Fish & chips: " " &amp; peas").1.mpr
      (by decide +kernel)⟩

/-- Not every recognised reference is replaced: in `AT&T &amp;` the first ampersand holds it back. -/
theorem not_replaced_behind_ampersand :
    ¬ ∀ (before after body : Text) (point : Nat), Recognized body point →
      decode (before ++ reference body ++ after) =
        decode before ++ String.utf8EncodeChar (Char.ofNat point) ++ decode after := by
  intro all
  have recognized : Recognized "amp" 0x26 := recognized_of_listed (by decide +kernel)
  have held : HoldsBack "AT&T " 4 := by decide +kernel
  have kept := (Settled.of_recognized recognized "AT&T " []).kept held
  exact replaced_ne_kept _ _ _ _ ((all "AT&T " [] "amp" 0x26 recognized).symm.trans kept)

end Samples

end SlidePress.Html.Reference
