import Mathlib.Logic.Basic
import SlidePress.Proofs.Text.ValidUtf8

/-! Excerpts of valid UTF-8. The first byte of a character tells how many bytes it has, so steps of that
many bytes go from one character to the next. An excerpt is cut after whole characters. -/

namespace SlidePress.Utf8

open Payload (IsUtf8)

/-- The first byte of a character tells the number of its bytes by the range that it is in. -/
theorem width_ofNat {number : Nat} (small : number < 0xF8) :
    width (UInt8.ofNat number) =
      if number < 0xC0 then 1 else if number < 0xE0 then 2 else if number < 0xF0 then 3 else 4 := by
  have ranges : ∀ number < 0xF8, width (UInt8.ofNat number) =
      if number < 0xC0 then 1 else if number < 0xE0 then 2 else if number < 0xF0 then 3 else 4 := by
    decide +kernel
  exact ranges number small

/-- A character has as many bytes as the first of them tells. -/
theorem exists_lead (character : Char) : ∃ lead rest,
    String.utf8EncodeChar character = lead :: rest ∧ width lead = rest.length + 1 := by
  rw [String.utf8EncodeChar.eq_1]
  generalize character.val.toNat = point
  split
  · refine ⟨_, _, rfl, ?_⟩
    rw [width_ofNat (by omega), if_pos (by omega)]
    rfl
  · split
    · refine ⟨_, _, rfl, ?_⟩
      rw [width_ofNat (by omega), if_neg (by omega), if_pos (by omega)]
      rfl
    · split
      · refine ⟨_, _, rfl, ?_⟩
        rw [width_ofNat (by omega), if_neg (by omega), if_neg (by omega), if_pos (by omega)]
        rfl
      · refine ⟨_, _, rfl, ?_⟩
        rw [width_ofNat (by omega), if_neg (by omega), if_neg (by omega), if_neg (by omega)]
        rfl

/-- One step takes a whole character. -/
theorem takeCharacters_encoded (limit : Nat) (character : Char) (text : Text) :
    takeCharacters (limit + 1) (String.utf8EncodeChar character ++ text) =
      (String.utf8EncodeChar character ++ (takeCharacters limit text).1,
        (takeCharacters limit text).2) := by
  obtain ⟨lead, rest, bytes, size⟩ := exists_lead character
  have size : width lead = (lead :: rest).length := size
  rw [bytes, List.cons_append, takeCharacters, size, ← List.cons_append, List.take_left,
    List.drop_left]

/-- Characters are taken one by one. -/
theorem takeCharacters_eq (limit : Nat) (characters : List Char) :
    takeCharacters limit (characters.flatMap String.utf8EncodeChar) =
      ((characters.take limit).flatMap String.utf8EncodeChar,
        (characters.drop limit).flatMap String.utf8EncodeChar) := by
  induction characters generalizing limit with
  | nil => cases limit <;> rfl
  | cons character others ih =>
      cases limit with
      | zero => rfl
      | succ limit =>
          rw [List.flatMap_cons, takeCharacters_encoded, ih, List.take_succ_cons,
            List.drop_succ_cons, List.flatMap_cons]

/-- Characters are nothing only where there are none. -/
theorem isEmpty_encoded (characters : List Char) :
    (characters.flatMap String.utf8EncodeChar).isEmpty = characters.isEmpty := by
  cases characters with
  | nil => rfl
  | cons character others =>
      obtain ⟨lead, rest, bytes, -⟩ := exists_lead character
      rw [List.flatMap_cons, bytes]
      rfl

/-- The excerpt of a valid text is the whole text if it has no more characters than the limit; else it is
the text of the first ones, as many as the limit, with three dots behind them. So it is valid too. -/
theorem excerpt_ofString (limit : Nat) (string : String) :
    excerpt limit string =
        (if string.length ≤ limit then (string : Text)
          else (String.ofList (string.toList.take limit) : Text) ++ "...") ∧
      IsUtf8 (excerpt limit string) := by
  have same : excerpt limit string =
      if string.length ≤ limit then (string : Text)
      else (String.ofList (string.toList.take limit) : Text) ++ "..." := by
    rw [excerpt, Payload.ofString_eq_flatMap string, takeCharacters_eq]
    refine if_congr ?_ rfl ?_
    · rw [isEmpty_encoded, List.isEmpty_iff, List.drop_eq_nil_iff, String.length_toList]
    · rw [Payload.ofString_eq_flatMap (String.ofList (string.toList.take limit)),
        String.toList_ofList]
  refine ⟨same, ?_⟩
  rw [same]
  split
  · exact Payload.isUtf8_ofString string
  · exact isUtf8_append (Payload.isUtf8_ofString _) (Payload.isUtf8_ofString _)

end SlidePress.Utf8
