import SlidePress.Text.Utf8

/-! UTF-8 as it is written. The bytes of a code point that may be written are those of the character
with that code point, and bytes in the range of ASCII stand for themselves only. -/

namespace SlidePress.Utf8

theorem isWritable_iff {point : Nat} :
    isWritable point = true ↔ 0 < point ∧ point.isValidChar := by
  simp only [isWritable, Nat.isValidChar, Bool.and_eq_true, bne_iff_ne, ne_eq, decide_eq_true_eq,
    Bool.not_eq_true', Bool.and_eq_false_iff, decide_eq_false_iff_not]
  omega

theorem toNat_ofNat {point : Nat} (valid : point.isValidChar) :
    (Char.ofNat point).val.toNat = point := by
  rw [Char.ofNat, dif_pos valid]
  rfl

theorem encode_eq {point : Nat} (writable : isWritable point = true) :
    encode point = String.utf8EncodeChar (Char.ofNat point) := by
  have valid := (isWritable_iff.mp writable).2
  have greatest : point < 0x110000 := by
    rw [Nat.isValidChar] at valid
    omega
  rw [encode, String.utf8EncodeChar, toNat_ofNat valid]
  simp only [continuation, Nat.toUInt8_eq]
  -- The lead byte carries what is left of the number, which has no bits to cut off.
  by_cases one : point < 0x80
  · rw [if_pos one, if_pos (by omega : point ≤ 127)]
  · rw [if_neg one, if_neg (by omega : ¬ point ≤ 127)]
    by_cases two : point < 0x800
    · rw [if_pos two, if_pos (by omega : point ≤ 2047),
        Nat.mod_eq_of_lt (by omega : point / 64 < 32), Nat.add_comm, Nat.add_comm (point % 64)]
    · rw [if_neg two, if_neg (by omega : ¬ point ≤ 2047)]
      by_cases three : point < 0x10000
      · rw [if_pos three, if_pos (by omega : point ≤ 65535),
          Nat.mod_eq_of_lt (by omega : point / 4096 < 16), Nat.add_comm,
          Nat.add_comm (point / 64 % 64), Nat.add_comm (point % 64)]
      · rw [if_neg three, if_neg (by omega : ¬ point ≤ 65535),
          Nat.mod_eq_of_lt (by omega : point / 262144 < 8), Nat.add_comm,
          Nat.add_comm (point / 4096 % 64), Nat.add_comm (point / 64 % 64),
          Nat.add_comm (point % 64)]

theorem utf8EncodeChar_of_ascii {character : Char} (ascii : character.toNat < 128) :
    String.utf8EncodeChar character = [character.toNat.toUInt8] := by
  have small : character.val.toNat ≤ 127 := Nat.le_of_lt_succ ascii
  rw [String.utf8EncodeChar.eq_1, if_pos small]
  rfl

/-- A character is written as its own number or in bytes beyond ASCII. -/
theorem toNat_of_mem_utf8EncodeChar {character : Char} {byte : UInt8}
    (member : byte ∈ String.utf8EncodeChar character) :
    byte.toNat = character.toNat ∨ 128 ≤ byte.toNat := by
  have number : character.val.toNat = character.toNat := rfl
  rw [String.utf8EncodeChar.eq_1, number] at member
  -- One byte below 128, else two, three or four bytes with their highest bit set.
  split at member
  · left
    rw [List.mem_singleton] at member
    rw [member, UInt8.toNat_ofNat']
    omega
  · right
    split at member
    · simp only [List.mem_cons, List.not_mem_nil, or_false] at member
      rcases member with rfl | rfl <;> rw [UInt8.toNat_ofNat'] <;> omega
    · split at member
      · simp only [List.mem_cons, List.not_mem_nil, or_false] at member
        rcases member with rfl | rfl | rfl <;> rw [UInt8.toNat_ofNat'] <;> omega
      · simp only [List.mem_cons, List.not_mem_nil, or_false] at member
        rcases member with rfl | rfl | rfl | rfl <;> rw [UInt8.toNat_ofNat'] <;> omega

end SlidePress.Utf8
