import SlidePress.Proofs.Payload.Sound

/-! Cutting valid UTF-8. The bytes of a character are one byte of ASCII or bytes beyond it, so a text
that is cut beside a byte of ASCII is cut between two characters. Classes of bytes that make no
difference beyond ASCII cut in such places only. -/

namespace SlidePress.Utf8

open Payload (IsUtf8)

theorem isUtf8_iff {text : Text} :
    IsUtf8 text ↔ ∃ characters : List Char, text = characters.flatMap String.utf8EncodeChar := by
  constructor
  · rintro ⟨string, rfl⟩
    exact ⟨string.toList, Payload.ofString_eq_flatMap string⟩
  · rintro ⟨characters, rfl⟩
    refine ⟨String.ofList characters, ?_⟩
    rw [Payload.ofString_eq_flatMap, String.toList_ofList]

theorem isUtf8_nil : IsUtf8 [] := isUtf8_iff.mpr ⟨[], rfl⟩

theorem isUtf8_encoded (character : Char) : IsUtf8 (String.utf8EncodeChar character) :=
  isUtf8_iff.mpr ⟨[character], (List.append_nil _).symm⟩

theorem isUtf8_append {first second : Text} (valid : IsUtf8 first) (validToo : IsUtf8 second) :
    IsUtf8 (first ++ second) := by
  obtain ⟨characters, rfl⟩ := isUtf8_iff.mp valid
  obtain ⟨others, rfl⟩ := isUtf8_iff.mp validToo
  exact isUtf8_iff.mpr ⟨characters ++ others, List.flatMap_append.symm⟩

theorem encoded_ne_nil (character : Char) : String.utf8EncodeChar character ≠ [] := by
  rw [String.utf8EncodeChar.eq_1]
  split
  · exact List.cons_ne_nil _ _
  · split
    · exact List.cons_ne_nil _ _
    · split <;> exact List.cons_ne_nil _ _

/-- A character is one byte of ASCII, or all its bytes lie beyond ASCII. -/
theorem encoded_cases (character : Char) :
    (∃ byte : UInt8, byte.toNat < 128 ∧ String.utf8EncodeChar character = [byte]) ∨
      ∀ byte ∈ String.utf8EncodeChar character, 128 ≤ byte.toNat := by
  by_cases ascii : character.toNat < 128
  · refine .inl ⟨character.toNat.toUInt8, ?_, utf8EncodeChar_of_ascii ascii⟩
    rw [Nat.toUInt8_eq, UInt8.toNat_ofNat']
    omega
  · refine .inr fun byte member => ?_
    rcases toNat_of_mem_utf8EncodeChar member with same | beyond
    · omega
    · exact beyond

section Cutting

variable {first second text : Text} {mark : UInt8}

/-- What stands before and behind a byte of ASCII. -/
theorem isUtf8_around (valid : IsUtf8 (first ++ mark :: second)) (ascii : mark.toNat < 128) :
    IsUtf8 first ∧ IsUtf8 second := by
  obtain ⟨characters, whole⟩ := isUtf8_iff.mp valid
  clear valid
  induction characters generalizing first with
  | nil => exact (List.append_ne_nil_of_right_ne_nil _ (List.cons_ne_nil _ _) whole).elim
  | cons character others ih =>
      rw [List.flatMap_cons] at whole
      rcases List.append_eq_append_iff.mp whole.symm with ⟨more, rfl, behind⟩ | ⟨more, own, behind⟩
      · obtain ⟨inner, outer⟩ := ih behind.symm
        exact ⟨isUtf8_append (isUtf8_encoded character) inner, outer⟩
      · cases more with
        | nil =>
            rw [List.append_nil] at own
            obtain ⟨-, outer⟩ := @ih [] behind
            exact ⟨own ▸ isUtf8_encoded character, outer⟩
        | cons head tail =>
            obtain ⟨rfl, rfl⟩ := List.cons.inj behind
            have inside : mark ∈ String.utf8EncodeChar character := by
              rw [own]
              exact List.mem_append_right _ List.mem_cons_self
            rcases encoded_cases character with ⟨byte, _, single⟩ | beyond
            · rw [single] at own
              obtain ⟨rfl, rest⟩ : first = [] ∧ tail = [] := by
                cases first with
                | nil => exact ⟨rfl, (List.cons.inj own).2.symm⟩
                | cons start more => simp at own
              rw [rest]
              exact ⟨isUtf8_nil, isUtf8_iff.mpr ⟨others, rfl⟩⟩
            · exact (Nat.not_lt.mpr (beyond mark inside) ascii).elim

theorem isUtf8_tail (valid : IsUtf8 (mark :: second)) (ascii : mark.toNat < 128) : IsUtf8 second :=
  (isUtf8_around (show IsUtf8 ([] ++ mark :: second) from valid) ascii).2

/-- What stands on either side of a place in front of a byte of ASCII, or at the end. -/
theorem isUtf8_beside (valid : IsUtf8 (first ++ second))
    (ascii : ∀ byte, second.head? = some byte → byte.toNat < 128) :
    IsUtf8 first ∧ IsUtf8 second := by
  cases second with
  | nil => exact ⟨List.append_nil first ▸ valid, isUtf8_nil⟩
  | cons mark rest =>
      have small := ascii mark rfl
      obtain ⟨before, behind⟩ := isUtf8_around valid small
      have alone : IsUtf8 [mark] := Payload.isUtf8_of_ascii (by simpa using small)
      exact ⟨before, isUtf8_append alone behind⟩

/-- Runs of a class of bytes that makes no difference beyond ASCII. -/
theorem isUtf8_runs (inside : UInt8 → Bool)
    (blind : ∀ byte other : UInt8, 128 ≤ byte.toNat → 128 ≤ other.toNat → inside byte = inside other)
    (valid : IsUtf8 text) : IsUtf8 (text.takeWhile inside) ∧ IsUtf8 (text.dropWhile inside) := by
  obtain ⟨characters, rfl⟩ := isUtf8_iff.mp valid
  clear valid
  induction characters with
  | nil => exact ⟨isUtf8_nil, isUtf8_nil⟩
  | cons character others ih =>
      rw [List.flatMap_cons]
      -- All bytes of the first character lie on one side.
      have sided : ∃ side, ∀ byte ∈ String.utf8EncodeChar character, inside byte = side := by
        rcases encoded_cases character with ⟨byte, _, single⟩ | beyond
        · exact ⟨inside byte, by simp [single]⟩
        · obtain ⟨byte, member⟩ := List.exists_mem_of_ne_nil _ (encoded_ne_nil character)
          exact ⟨inside byte, fun other memberToo =>
            blind other byte (beyond other memberToo) (beyond byte member)⟩
      obtain ⟨side, same⟩ := sided
      cases side with
      | true =>
          rw [List.takeWhile_append_of_pos same, List.dropWhile_append_of_pos same]
          exact ⟨isUtf8_append (isUtf8_encoded character) ih.1, ih.2⟩
      | false =>
          obtain ⟨byte, rest, shape⟩ := List.exists_cons_of_ne_nil (encoded_ne_nil character)
          have outside := same byte (shape ▸ List.mem_cons_self)
          have whole := isUtf8_iff.mpr ⟨character :: others, List.flatMap_cons.symm⟩
          rw [shape, List.cons_append] at whole ⊢
          rw [List.takeWhile_cons_of_neg (by simp [outside]),
            List.dropWhile_cons_of_neg (by simp [outside])]
          exact ⟨isUtf8_nil, whole⟩

theorem isSpace_of_beyond {byte : UInt8} (beyond : 128 ≤ byte.toNat) : Byte.isSpace byte = false := by
  simp only [Byte.isSpace, Bool.or_eq_false_iff, Bool.and_eq_false_iff, decide_eq_false_iff_not,
    beq_eq_false_iff_ne, ne_eq, ← UInt8.toNat_inj, UInt8.le_iff_toNat_le, UInt8.toNat_ofNat]
  omega

theorem isUtf8_trimLeft (valid : IsUtf8 text) : IsUtf8 (Text.trimLeft text) :=
  (isUtf8_runs _ (fun _ _ beyond beyondToo => by
    rw [isSpace_of_beyond beyond, isSpace_of_beyond beyondToo]) valid).2

/-- What stands before and after the first place of a byte of ASCII. -/
theorem isUtf8_before_after (valid : IsUtf8 text) (ascii : mark.toNat < 128) :
    IsUtf8 (Text.before mark text) ∧ IsUtf8 (Text.after mark text) := by
  have other : ∀ byte : UInt8, 128 ≤ byte.toNat → (byte != mark) = true := by
    intro byte beyond
    rw [bne_iff_ne]
    rintro rfl
    omega
  obtain ⟨before, behind⟩ := isUtf8_runs (· != mark)
    (fun byte second beyond beyondToo => by rw [other byte beyond, other second beyondToo]) valid
  refine ⟨before, ?_⟩
  rw [Text.after]
  cases shape : text.dropWhile (· != mark) with
  | nil => exact isUtf8_nil
  | cons byte rest =>
      have same : byte = mark := by
        simpa [shape] using List.head?_dropWhile_not (· != mark) text
      rw [shape, same] at behind
      exact isUtf8_tail behind ascii

end Cutting

/-- Lowering keeps characters: only bytes of ASCII change, and they stay in ASCII. -/
theorem isUtf8_lower {text : Text} (valid : IsUtf8 text) : IsUtf8 (Text.lower text) := by
  obtain ⟨characters, rfl⟩ := isUtf8_iff.mp valid
  clear valid
  induction characters with
  | nil => exact isUtf8_nil
  | cons character others ih =>
      rw [List.flatMap_cons, Text.lower_append]
      refine isUtf8_append ?_ ih
      rcases encoded_cases character with ⟨byte, ascii, single⟩ | beyond
      · rw [single]
        refine Payload.isUtf8_of_ascii fun lowered member => ?_
        rw [List.mem_singleton.mp member, Byte.toLower]
        split
        · rename_i upper
          simp only [Byte.isUpper, Bool.and_eq_true, decide_eq_true_eq, UInt8.le_iff_toNat_le,
            UInt8.toNat_ofNat] at upper
          rw [UInt8.toNat_add]
          change (byte.toNat + 32) % 256 < 128
          omega
        · exact ascii
      · have same : Text.lower (String.utf8EncodeChar character) = String.utf8EncodeChar character := by
          refine (List.map_congr_left fun byte member => ?_).trans (List.map_id _)
          have large := beyond byte member
          refine Byte.toLower_of_not_isUpper ?_
          simp only [Byte.isUpper, Bool.and_eq_false_iff, decide_eq_false_iff_not,
            UInt8.le_iff_toNat_le, UInt8.toNat_ofNat]
          omega
        rw [same]
        exact isUtf8_encoded character

end SlidePress.Utf8
