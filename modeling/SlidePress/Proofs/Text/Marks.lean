import SlidePress.Text.Basic

/-! Marks in a text. A byte that does not occur in a piece of text shows where the piece ends, from
either side, and the first place of a word stays where it is when the text goes on. Numerals hold
nothing but digits, so that a number can be read back from its numeral and no other byte is ever part
of one. -/

namespace SlidePress.Text

theorem splitAtByte?_append {mark : UInt8} {first : Text} (absent : mark ∉ first)
    (second : Text) : splitAtByte? mark (first ++ mark :: second) = some (first, second) := by
  induction first with
  | nil => simp [splitAtByte?]
  | cons byte rest ih =>
      rw [List.mem_cons, not_or] at absent
      have other : (byte == mark) = false := by simpa using fun same : byte = mark => absent.1 same.symm
      simp only [List.cons_append, splitAtByte?, other, ih absent.2, Bool.false_eq_true, if_false,
        Option.map_some]

section Runs

variable {inside : UInt8 → Bool} {first second : Text}

/-- A run of bytes of a class ends where a byte outside the class follows, or nothing. -/
theorem takeWhile_append_stop (all : ∀ byte ∈ first, inside byte = true)
    (stop : ∀ byte, second.head? = some byte → inside byte = false) :
    (first ++ second).takeWhile inside = first := by
  rw [List.takeWhile_append_of_pos all]
  cases second with
  | nil => simp
  | cons byte rest => simp [stop byte rfl]

theorem dropWhile_append_stop (all : ∀ byte ∈ first, inside byte = true)
    (stop : ∀ byte, second.head? = some byte → inside byte = false) :
    (first ++ second).dropWhile inside = second := by
  rw [List.dropWhile_append_of_pos all]
  cases second with
  | nil => rfl
  | cons byte rest => simp [stop byte rfl]

end Runs

theorem ne_of_not_mem {mark : UInt8} {text : Text} (absent : mark ∉ text) :
    ∀ byte ∈ text, (byte != mark) = true := by
  intro byte member
  simp only [bne_iff_ne]
  rintro rfl
  exact absent member

theorem before_append {mark : UInt8} {first : Text} (absent : mark ∉ first) (second : Text) :
    before mark (first ++ mark :: second) = first :=
  takeWhile_append_stop (ne_of_not_mem absent) (by simp)

theorem after_append {mark : UInt8} {first : Text} (absent : mark ∉ first) (second : Text) :
    after mark (first ++ mark :: second) = second := by
  rw [after, dropWhile_append_stop (ne_of_not_mem absent) (by simp)]
  rfl

/-- The last place of a mark divides a text in one way. -/
theorem append_mark_inj {mark : UInt8} {first second tail other : Text} (absent : mark ∉ tail)
    (absentToo : mark ∉ other) (same : first ++ mark :: tail = second ++ mark :: other) :
    first = second ∧ tail = other := by
  have mirrored := congrArg List.reverse same
  rw [List.reverse_append, List.reverse_append, List.reverse_cons, List.reverse_cons,
    List.append_assoc, List.append_assoc] at mirrored
  have ends := congrArg (before mark) mirrored
  rw [List.singleton_append, List.singleton_append,
    before_append fun member => absent (List.mem_reverse.mp member),
    before_append fun member => absentToo (List.mem_reverse.mp member)] at ends
  have tails : tail = other := List.reverse_inj.mp ends
  rw [tails] at same
  exact ⟨List.append_cancel_right same, tails⟩

section Words

variable {word text first second : Text}

theorem splitAtWord?_eq_some (found : splitAtWord? word text = some (first, second)) :
    text = first ++ word ++ second := by
  induction text generalizing first with
  | nil =>
      rw [splitAtWord?] at found
      split at found
      · rename_i empty
        cases found
        rw [List.isEmpty_iff.mp empty]
        rfl
      · cases found
  | cons byte rest ih =>
      rw [splitAtWord?] at found
      split at found
      · rename_i begins
        obtain ⟨tail, whole⟩ := List.isPrefixOf_iff_prefix.mp begins
        cases found
        rw [← whole, List.drop_left, List.nil_append]
      · obtain ⟨⟨inner, tail⟩, inside, same⟩ := Option.map_eq_some_iff.mp found
        cases same
        rw [ih inside]
        rfl

/-- The first place of a word stays where it is when something follows. -/
theorem splitAtWord?_append (found : splitAtWord? word text = some (first, second)) (rest : Text) :
    splitAtWord? word (text ++ rest) = some (first, second ++ rest) := by
  induction text generalizing first with
  | nil =>
      rw [splitAtWord?] at found
      split at found
      · rename_i empty
        cases found
        rw [List.isEmpty_iff.mp empty]
        cases rest <;> rfl
      · cases found
  | cons byte more ih =>
      rw [splitAtWord?] at found
      rw [List.cons_append, splitAtWord?]
      split at found
      · rename_i begins
        obtain ⟨tail, whole⟩ := List.isPrefixOf_iff_prefix.mp begins
        cases found
        have longer : word ++ (tail ++ rest) = byte :: (more ++ rest) := by
          rw [← List.append_assoc, whole]
          rfl
        rw [← longer, if_pos (List.isPrefixOf_iff_prefix.mpr (List.prefix_append _ _)), ← whole,
          List.drop_left, List.drop_left]
      · rename_i later
        obtain ⟨⟨inner, tail⟩, inside, same⟩ := Option.map_eq_some_iff.mp found
        cases same
        -- The word fits into what stood here already, so that nothing new can begin it.
        have fits : word.length ≤ (byte :: more).length := by
          rw [splitAtWord?_eq_some inside]
          simp only [List.length_cons, List.length_append]
          omega
        have stillLater : ¬ word.isPrefixOf (byte :: (more ++ rest)) = true := by
          intro begins
          apply later
          apply List.isPrefixOf_iff_prefix.mpr
          exact List.prefix_of_prefix_length_le (List.isPrefixOf_iff_prefix.mp begins)
            (List.prefix_append (byte :: more) rest) fits
        rw [if_neg stillLater, ih inside]
        rfl

end Words

theorem toNat_of_mem_toDigits {number : Nat} {digit : Char} (member : digit ∈ Nat.toDigits 10 number) :
    digit.toUInt8.toNat = digit.toNat ∧ 48 ≤ digit.toNat ∧ digit.toNat ≤ 57 := by
  have decimal := Nat.isDigit_of_mem_toDigits (by decide) (by decide) member
  simp only [Char.isDigit, Bool.and_eq_true, decide_eq_true_eq] at decimal
  have low : 48 ≤ digit.toNat := UInt32.le_iff_toNat_le.mp decimal.1
  have high : digit.toNat ≤ 57 := UInt32.le_iff_toNat_le.mp decimal.2
  refine ⟨?_, low, high⟩
  rw [Char.toUInt8, UInt32.toNat_toUInt8]
  exact Nat.mod_eq_of_lt (Nat.lt_of_le_of_lt high (by decide))

/-- A numeral holds nothing but digits. -/
theorem isDigit_of_mem_ofNat {number : Nat} {byte : UInt8} (member : byte ∈ ofNat number) :
    Byte.isDigit byte = true := by
  obtain ⟨digit, isDigit, rfl⟩ := List.mem_map.mp member
  obtain ⟨value, low, high⟩ := toNat_of_mem_toDigits isDigit
  rw [Byte.isDigit, Bool.and_eq_true, decide_eq_true_eq, decide_eq_true_eq,
    UInt8.le_iff_toNat_le, UInt8.le_iff_toNat_le, value]
  exact ⟨low, high⟩

theorem map_ofNat (number : Nat) :
    (ofNat number).map (fun byte => Char.ofNat byte.toNat) = Nat.toDigits 10 number := by
  rw [ofNat, List.map_map]
  refine (List.map_congr_left ?_).trans (List.map_id _)
  intro digit member
  rw [Function.comp_apply, (toNat_of_mem_toDigits member).1, Char.ofNat_toNat]
  rfl

/-- A number can be read back from its numeral. -/
theorem ofNat_injective {first second : Nat} (same : ofNat first = ofNat second) :
    first = second := by
  calc first = Nat.ofDigitChars 10 (Nat.toDigits 10 first) 0 := Nat.ofDigitChars_ten_toDigits.symm
    _ = Nat.ofDigitChars 10 (Nat.toDigits 10 second) 0 := by rw [← map_ofNat, same, map_ofNat]
    _ = second := Nat.ofDigitChars_ten_toDigits

end SlidePress.Text
