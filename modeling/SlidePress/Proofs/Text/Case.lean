import SlidePress.Text.Basic

/-! Lower case. Lowering changes letters and makes letters of them, so a class of bytes without
letters sees no difference between a text and its lowered form. -/

namespace SlidePress.Byte

variable {byte mark : UInt8}

theorem isLower_toLower (upper : isUpper byte = true) : isLower (toLower byte) = true := by
  simp only [toLower, upper, if_true]
  simp only [isUpper, isLower, Bool.and_eq_true, decide_eq_true_eq, UInt8.le_iff_toNat_le,
    UInt8.toNat_add] at upper ⊢
  simp at upper ⊢
  omega

theorem toLower_of_not_isUpper (other : isUpper byte = false) : toLower byte = byte := by
  rw [toLower, if_neg (by simp [other])]

section Classes

variable {inside : UInt8 → Bool}

/-- A class that has the small letters loses nothing when bytes are lowered. -/
theorem class_toLower (letters : ∀ byte, isLower byte = true → inside byte = true)
    (member : inside byte = true) : inside (toLower byte) = true := by
  cases upper : isUpper byte with
  | true => exact letters _ (isLower_toLower upper)
  | false => rwa [toLower_of_not_isUpper upper]

/-- A class without letters has the same bytes before and after they are lowered. -/
theorem class_toLower_eq (noLetter : ∀ byte, isLetter byte = true → inside byte = false)
    (byte : UInt8) : inside (toLower byte) = inside byte := by
  cases upper : isUpper byte with
  | true =>
      rw [noLetter _ (by simp [isLetter, isLower_toLower upper]),
        noLetter byte (by simp [isLetter, upper])]
  | false => rw [toLower_of_not_isUpper upper]

end Classes

theorem isDigit_of_isLetter (byte : UInt8) (letter : isLetter byte = true) :
    isDigit byte = false := by
  rw [← Bool.not_eq_true]
  intro digit
  simp only [isLetter, isUpper, isLower, isDigit, Bool.or_eq_true, Bool.and_eq_true,
    decide_eq_true_eq, UInt8.le_iff_toNat_le, UInt8.toNat_ofNat] at letter digit
  omega

theorem isUpper_of_isDigit (digit : isDigit byte = true) : isUpper byte = false := by
  rw [← Bool.not_eq_true]
  intro upper
  rw [isDigit_of_isLetter byte (by simp [isLetter, upper])] at digit
  cases digit

theorem isSpace_of_isLetter (byte : UInt8) (letter : isLetter byte = true) :
    isSpace byte = false := by
  simp only [isLetter, isUpper, isLower, Bool.or_eq_true, Bool.and_eq_true, decide_eq_true_eq,
    UInt8.le_iff_toNat_le] at letter
  simp only [isSpace, Bool.or_eq_false_iff, Bool.and_eq_false_iff, decide_eq_false_iff_not,
    beq_eq_false_iff_ne, ne_eq, ← UInt8.toNat_inj, UInt8.le_iff_toNat_le]
  change (65 ≤ byte.toNat ∧ byte.toNat ≤ 90) ∨ (97 ≤ byte.toNat ∧ byte.toNat ≤ 122) at letter
  change ¬ byte.toNat = 32 ∧ (¬ 9 ≤ byte.toNat ∨ ¬ byte.toNat ≤ 13)
  omega

@[simp] theorem isSpace_toLower (byte : UInt8) : isSpace (toLower byte) = isSpace byte :=
  class_toLower_eq isSpace_of_isLetter byte

/-- What is no letter comes from nothing else. -/
theorem toLower_eq_iff (noLetter : isLetter mark = false) : toLower byte = mark ↔ byte = mark := by
  have apart : ∀ letter, isLetter letter = true → (letter == mark) = false := by
    intro letter isLetter
    rw [beq_eq_false_iff_ne]
    rintro rfl
    exact Bool.false_ne_true (noLetter.symm.trans isLetter)
  rw [← beq_iff_eq, class_toLower_eq apart byte, beq_iff_eq]

end SlidePress.Byte

namespace SlidePress.Text

variable {mark : UInt8}

theorem mem_lower_iff (noLetter : Byte.isLetter mark = false) {text : Text} :
    mark ∈ lower text ↔ mark ∈ text := by
  rw [lower, List.mem_map]
  constructor
  · rintro ⟨byte, member, same⟩
    rwa [← (Byte.toLower_eq_iff noLetter).mp same]
  · exact fun member => ⟨mark, member, (Byte.toLower_eq_iff noLetter).mpr rfl⟩

end SlidePress.Text
