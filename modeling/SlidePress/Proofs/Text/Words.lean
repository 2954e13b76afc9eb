import Mathlib.Data.List.DropRight
import SlidePress.Text.Basic

/-! The words of a text, and texts in which words stand with single blanks between them. -/

namespace SlidePress.Text

def dropBlanks (text : Text) : Text := (text.reverse.dropWhile (· == ' '.toUInt8)).reverse

theorem dropBlanks_append (first second : Text) :
    dropBlanks (first ++ second) =
      if dropBlanks second = [] then dropBlanks first else first ++ dropBlanks second := by
  rw [dropBlanks, dropBlanks, dropBlanks, List.reverse_append, List.dropWhile_append]
  simp only [List.isEmpty_iff, List.reverse_eq_nil_iff]
  split
  · rfl
  · rw [List.reverse_append, List.reverse_reverse]

theorem dropBlanks_dropBlanks (text : Text) : dropBlanks (dropBlanks text) = dropBlanks text := by
  rw [dropBlanks, dropBlanks, List.reverse_reverse, List.dropWhile_idempotent]

theorem dropBlanks_cons_of_ne {byte : UInt8} (solid : byte ≠ ' '.toUInt8) (rest : Text) :
    dropBlanks (byte :: rest) = byte :: dropBlanks rest := by
  have alone : dropBlanks [byte] = [byte] := by
    rw [dropBlanks, List.reverse_singleton, List.dropWhile_cons_of_neg (by simpa using solid)]
    rfl
  rw [← List.singleton_append, dropBlanks_append]
  split
  · rename_i empty
    rw [empty, alone]
  · rfl

/-- The words of a text with single blanks between them. -/
def settled (text : Text) : Text := join " " (words text)

def spaced (words : List Text) : Text := words.flatMap (' '.toUInt8 :: ·)

theorem join_cons (word : Text) (others : List Text) :
    join " " (word :: others) = word ++ spaced others := by
  induction others generalizing word with
  | nil => exact (List.append_nil word).symm
  | cons next rest ih =>
      rw [join, ih, List.append_assoc]
      · rfl
      · exact List.cons_ne_nil _ _

theorem words_eq (text : Text) :
    words text = if (wordsFrom text).1 = [] then (wordsFrom text).2
      else (wordsFrom text).1 :: (wordsFrom text).2 := by
  rw [words]
  simp only [List.isEmpty_iff]

theorem wordsFrom_space {byte : UInt8} (space : Byte.isSpace byte = true) (rest : Text) :
    wordsFrom (byte :: rest) = ([], words rest) := by
  rw [wordsFrom, words]
  simp only [space, if_true]

theorem wordsFrom_solid {byte : UInt8} (solid : Byte.isSpace byte = false) (rest : Text) :
    wordsFrom (byte :: rest) = (byte :: (wordsFrom rest).1, (wordsFrom rest).2) := by
  rw [wordsFrom]
  simp only [solid, Bool.false_eq_true, if_false]

theorem ne_blank_of_solid {byte : UInt8} (solid : Byte.isSpace byte = false) :
    byte ≠ ' '.toUInt8 := by
  rintro rfl
  exact Bool.false_ne_true (solid.symm.trans (by decide))

theorem words_ne_nil {text : Text} : ∀ word ∈ words text, word ≠ [] := by
  have each : (∀ word ∈ (wordsFrom text).2, word ≠ []) ∧ ∀ word ∈ words text, word ≠ [] := by
    induction text with
    | nil => exact ⟨nofun, nofun⟩
    | cons byte rest ih =>
        cases kind : Byte.isSpace byte with
        | true =>
            rw [words_eq, wordsFrom_space kind]
            exact ⟨ih.2, ih.2⟩
        | false =>
            rw [words_eq, wordsFrom_solid kind]
            refine ⟨ih.1, fun word member => ?_⟩
            rcases List.mem_cons.mp member with rfl | later
            · exact List.cons_ne_nil _ _
            · exact ih.1 word later
  exact each.2

end SlidePress.Text
