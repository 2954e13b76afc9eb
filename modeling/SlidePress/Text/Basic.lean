import SlidePress.Text.Byte

/-! Texts as byte sequences. A document may hold any bytes, and every width, limit and position
in it counts bytes, so a text is a list of bytes rather than of characters. The operations here
are those that the readers of markup, style and numerals share: trimming, lowering, searching
for a byte or a word, and cutting into words. -/
namespace SlidePress

abbrev Text := List UInt8

namespace Text

def ofString (string : String) : Text :=
  string.toUTF8.data.toList

instance : Coe String Text := ⟨ofString⟩

def ofNat (number : Nat) : Text :=
  (Nat.toDigits 10 number).map Char.toUInt8

def ofInt (number : Int) : Text :=
  if number < 0 then '-'.toUInt8 :: ofNat number.natAbs else ofNat number.natAbs

def lower (text : Text) : Text :=
  text.map Byte.toLower

def upper (text : Text) : Text :=
  text.map Byte.toUpper

def trimLeft (text : Text) : Text :=
  text.dropWhile Byte.isSpace

def trimRight (text : Text) : Text :=
  (text.reverse.dropWhile Byte.isSpace).reverse

def trim (text : Text) : Text :=
  trimRight (trimLeft text)

/-- Only white space, or nothing at all. -/
def isBlank (text : Text) : Bool :=
  text.all Byte.isSpace

/-- The canonical form in which keywords are compared. -/
def keyword (text : Text) : Text :=
  lower (trim text)

def splitAtByte? (mark : UInt8) : Text → Option (Text × Text)
  | [] => none
  | byte :: rest =>
      if byte == mark then some ([], rest)
      else (splitAtByte? mark rest).map fun (before, after) => (byte :: before, after)

def splitAtWord? (word : Text) : Text → Option (Text × Text)
  | [] => if word.isEmpty then some ([], []) else none
  | byte :: rest =>
      if word.isPrefixOf (byte :: rest) then some ([], (byte :: rest).drop word.length)
      else (splitAtWord? word rest).map fun (before, after) => (byte :: before, after)

def mentions (word text : Text) : Bool :=
  (splitAtWord? word text).isSome

/-- What stands before the first occurrence of a byte, or everything when there is none. -/
def before (mark : UInt8) (text : Text) : Text :=
  text.takeWhile (· != mark)

/-- What stands after the first occurrence of a byte, or nothing when there is none. -/
def after (mark : UInt8) (text : Text) : Text :=
  (text.dropWhile (· != mark)).drop 1

/-- The longest start of a text whose bytes lie in a class, and the rest. -/
def cut (inside : UInt8 → Bool) (text : Text) : Text × Text :=
  (text.takeWhile inside, text.dropWhile inside)

/-- A text between two equal quotation marks loses them; any other text stays. -/
def unquote (text : Text) : Text :=
  match text with
  | first :: (second :: rest) =>
      let inner := second :: rest
      if (first == Byte.doubleQuote || first == Byte.singleQuote) && inner.getLast? == some first then
        inner.dropLast
      else text
  | _ => text

/-- The maximal runs of bytes that are not white space, in order. The first component is the
word that the text begins with, empty when the text begins with white space or ends. -/
def wordsFrom : Text → Text × List Text
  | [] => ([], [])
  | byte :: rest =>
      let (word, others) := wordsFrom rest
      if Byte.isSpace byte then
        ([], if word.isEmpty then others else word :: others)
      else (byte :: word, others)

def words (text : Text) : List Text :=
  let (word, others) := wordsFrom text
  if word.isEmpty then others else word :: others

def join (between : Text) : List Text → Text
  | [] => []
  | [last] => last
  | first :: rest => first ++ between ++ join between rest

@[simp] theorem lower_nil : lower [] = [] := rfl

@[simp] theorem lower_append (first second : Text) :
    lower (first ++ second) = lower first ++ lower second := by
  simp [lower]

theorem lower_idem (text : Text) : lower (lower text) = lower text := by
  simp [lower, Function.comp_def, Byte.toLower_idem]

theorem splitAtByte?_eq_some {mark : UInt8} {text first second : Text}
    (found : splitAtByte? mark text = some (first, second)) :
    text = first ++ mark :: second ∧ mark ∉ first := by
  induction text generalizing first second with
  | nil => simp [splitAtByte?] at found
  | cons byte rest step =>
    simp only [splitAtByte?] at found
    split at found
    · rename_i same
      simp only [Option.some.injEq, Prod.mk.injEq] at found
      obtain ⟨rfl, rfl⟩ := found
      simpa using same
    · rename_i different
      obtain ⟨⟨inner, tail⟩, inside, equal⟩ := Option.map_eq_some_iff.mp found
      simp only [Prod.mk.injEq] at equal
      obtain ⟨rfl, rfl⟩ := equal
      obtain ⟨whole, absent⟩ := step inside
      simp only [beq_iff_eq] at different
      exact ⟨by simp [whole], by simp [absent]; exact fun same => different same.symm⟩

theorem splitAtByte?_eq_none {mark : UInt8} {text : Text} :
    splitAtByte? mark text = none ↔ mark ∉ text := by
  induction text with
  | nil => simp [splitAtByte?]
  | cons byte rest step =>
    simp only [splitAtByte?]
    split
    · rename_i same
      simp only [beq_iff_eq] at same
      simp [same]
    · rename_i different
      simp only [beq_iff_eq] at different
      simp only [Option.map_eq_none_iff, step, List.mem_cons, not_or]
      exact ⟨fun absent => ⟨fun same => different same.symm, absent⟩, fun both => both.2⟩

theorem length_splitAtWord?_le {word text first second : Text}
    (found : splitAtWord? word text = some (first, second)) : second.length ≤ text.length := by
  induction text generalizing first with
  | nil =>
    simp only [splitAtWord?] at found
    split at found
    · simp only [Option.some.injEq, Prod.mk.injEq] at found
      simp [← found.2]
    · cases found
  | cons byte rest step =>
    simp only [splitAtWord?] at found
    split at found
    · simp only [Option.some.injEq, Prod.mk.injEq] at found
      simp [← found.2]
    · obtain ⟨⟨inner, tail⟩, inside, equal⟩ := Option.map_eq_some_iff.mp found
      simp only [Prod.mk.injEq] at equal
      obtain ⟨_, rfl⟩ := equal
      exact Nat.le_succ_of_le (step inside)

end Text

end SlidePress
