import SlidePress.Style.Color
import SlidePress.Proofs.Text.Case
import SlidePress.Proofs.Text.Entries

/-! What a text looks like that is read as a color. In lower case, and without white space at its
ends, it is a word, a call of a function, or a number sign with hexadecimal digits. So it begins as
no length and no address does, and no comma in it stands outside of parentheses. -/

namespace SlidePress.Style.Color

def words : List Text :=
  "currentcolor" :: "transparent" :: (plainColors ++ grayColors ++ mixedColors).map (·.1)

def functions : List Text := ["rgba", "rgb", "hsla", "hsl"]

inductive Form : Text → Prop where
  | word {word : Text} (listed : word ∈ words) : Form word
  | call {name gap body tail : Text} (listed : name ∈ functions) (blankGap : gap.isBlank = true)
      (inner : ')'.toUInt8 ∉ body) (blankTail : tail.isBlank = true) :
      Form (name ++ gap ++ '('.toUInt8 :: (body ++ ')'.toUInt8 :: tail))
  | digits {digits : Text}
      (hexadecimal : ∀ digit ∈ digits, (Byte.hexDigit? digit).isSome = true) :
      Form ('#'.toUInt8 :: digits)

/-- A word that is no color in any spacing or letter case: it is not listed, and has none of the
bytes that open the arguments or the digits of a color. -/
def Foreign (word : Text) : Prop :=
  word ∉ words ∧ ∀ byte ∈ word,
    Byte.isSpace byte = false ∧ byte ≠ '('.toUInt8 ∧ byte ≠ '#'.toUInt8

instance (word : Text) : Decidable (Foreign word) := inferInstanceAs (Decidable (_ ∧ _))

/-! ## The form of a color -/

section Reading

variable {value : Text} {color : Color}

theorem form_of_named? (found : named? value = some color) : Form value := by
  rw [named?] at found
  split at found
  · rename_i transparent
    rw [beq_iff_eq.mp transparent]
    exact .word (List.mem_cons_of_mem _ List.mem_cons_self)
  · obtain ⟨entry, isEntry, -⟩ := Option.map_eq_some_iff.mp found
    have same : (entry.1 == value) = true :=
      List.find?_some (p := fun other : Text × Nat => other.1 == value) isEntry
    rw [← beq_iff_eq.mp same]
    have member := List.mem_map_of_mem (f := (·.1)) (List.mem_of_find?_eq_some isEntry)
    exact .word (List.mem_cons_of_mem _ (List.mem_cons_of_mem _ member))

theorem form_of_arguments? {name : Text} {arguments : List Text} (listed : name ∈ functions)
    (called : arguments? name value = some arguments) : Form value := by
  rw [arguments?] at called
  split at called
  · rename_i isPrefix
    obtain ⟨rest, rfl⟩ := List.isPrefixOf_iff_prefix.mp isPrefix
    rw [List.drop_left] at called
    obtain ⟨gap, blankGap, whole⟩ := Text.exists_gap rest
    split at called
    · rename_i byte more kept
      split at called
      · rename_i isOpen
        split at called
        · rename_i body tail closed
          split at called
          · rename_i blankTail
            obtain ⟨shape, inner⟩ := Text.splitAtByte?_eq_some closed
            rw [whole, kept, beq_iff_eq.mp isOpen, shape, ← List.append_assoc]
            exact .call listed blankGap inner blankTail
          · cases called
        · cases called
      · cases called
    · cases called
  · cases called

/-- A call of one of two functions. -/
theorem form_of_either {first second : Text} {arguments : List Text} (listed : first ∈ functions)
    (listedToo : second ∈ functions)
    (called : (arguments? first value).or (arguments? second value) = some arguments) :
    Form value := by
  rcases Option.or_eq_some_iff.mp called with one | ⟨-, other⟩
  · exact form_of_arguments? listed one
  · exact form_of_arguments? listedToo other

theorem form_of_parseChannels? (found : parseChannels? value = some color) : Form value := by
  obtain ⟨arguments, called, -⟩ := Option.bind_eq_some_iff.mp found
  exact form_of_either (by decide) (by decide) called

theorem form_of_parseHue? (found : parseHue? value = some color) : Form value := by
  obtain ⟨arguments, called, -⟩ := Option.bind_eq_some_iff.mp found
  exact form_of_either (by decide) (by decide) called

theorem isSome_of_mapM {digits : Text} {values : List Nat}
    (read : digits.mapM Byte.hexDigit? = some values) :
    ∀ digit ∈ digits, (Byte.hexDigit? digit).isSome = true := by
  induction digits generalizing values with
  | nil => exact List.forall_mem_nil _
  | cons digit rest ih =>
      rw [List.mapM_cons] at read
      obtain ⟨first, isFirst, more⟩ := Option.bind_eq_some_iff.mp read
      obtain ⟨others, areOthers, -⟩ := Option.bind_eq_some_iff.mp more
      exact List.forall_mem_cons.mpr ⟨Option.isSome_of_eq_some isFirst, ih areOthers⟩

theorem form_of_parseHex? (found : parseHex? value = some color) : Form value := by
  unfold parseHex? at found
  split at found
  · rename_i mark digits
    split at found
    · rename_i isMark
      split at found
      · rename_i read
        obtain ⟨values, areValues, -⟩ := Option.bind_eq_some_iff.mp read
        rw [beq_iff_eq.mp isMark]
        exact .digits (isSome_of_mapM areValues)
      · cases found
    · cases found
  · cases found

theorem form_of_parse? {text : Text} {current : Color} (accepted : parse? text current = some color) :
    Form (Text.keyword text) := by
  rw [parse?] at accepted
  split at accepted
  · cases accepted
  · split at accepted
    · rename_i isCurrent
      rw [beq_iff_eq.mp isCurrent]
      exact .word List.mem_cons_self
    · rcases Option.or_eq_some_iff.mp accepted with functional | ⟨-, hexadecimal⟩
      · rcases Option.or_eq_some_iff.mp functional with direct | ⟨-, hue⟩
        · rcases Option.or_eq_some_iff.mp direct with name | ⟨-, channels⟩
          · exact form_of_named? name
          · exact form_of_parseChannels? channels
        · exact form_of_parseHue? hue
      · exact form_of_parseHex? hexadecimal

theorem parse?_congr {text other : Text} (same : Text.keyword text = Text.keyword other)
    (current : Color) : parse? text current = parse? other current := by
  rw [parse?, parse?, same]

end Reading

/-! ## What a form tells -/

def otherStarts : List UInt8 := ['+'.toUInt8, '-'.toUInt8, '.'.toUInt8, 'u'.toUInt8]

theorem names_plain : ∀ name ∈ words ++ functions,
    (∃ first ∈ name.head?, Byte.isDigit first = false ∧ first ∉ otherStarts) ∧
      ','.toUInt8 ∉ name := by
  decide +kernel

namespace Form

variable {value : Text}

/-- A color begins with no digit, sign or point, and not as an address does. -/
theorem head (form : Form value) :
    ∃ first rest, value = first :: rest ∧ Byte.isDigit first = false ∧ first ∉ otherStarts := by
  cases form with
  | word listed =>
      obtain ⟨⟨first, begins, other⟩, -⟩ := names_plain _ (List.mem_append_left _ listed)
      obtain ⟨rest, shape⟩ := List.head?_eq_some_iff.mp begins
      exact ⟨first, rest, shape, other⟩
  | call listed =>
      obtain ⟨⟨first, begins, other⟩, -⟩ := names_plain _ (List.mem_append_right _ listed)
      obtain ⟨rest, rfl⟩ := List.head?_eq_some_iff.mp begins
      exact ⟨first, _, rfl, other⟩
  | digits => exact ⟨_, _, rfl, by decide⟩

/-- Every comma of a color separates arguments. -/
theorem comma_not_mem_outside (form : Form value) : ','.toUInt8 ∉ Text.outside 0 value := by
  cases form with
  | word listed =>
      obtain ⟨-, absent⟩ := names_plain _ (List.mem_append_left _ listed)
      exact fun member => absent (Text.mem_of_mem_outside member)
  | call listed blankGap inner blankTail =>
      obtain ⟨-, absent⟩ := names_plain _ (List.mem_append_right _ listed)
      intro member
      rcases Text.mem_outside_call inner member with inHead | inTail
      · rcases List.mem_append.mp inHead with inName | inGap
        · exact absent inName
        · exact Text.not_mem_of_blank (by decide) blankGap inGap
      · exact Text.not_mem_of_blank (by decide) blankTail inTail
  | digits hexadecimal =>
      intro member
      rcases List.mem_cons.mp (Text.mem_of_mem_outside member) with same | inDigits
      · exact absurd same (by decide)
      · exact absurd (hexadecimal _ inDigits) (by decide)

theorem ne_of_foreign (form : Form value) {word : Text} (foreign : Foreign word) :
    value ≠ word := by
  rintro rfl
  cases form with
  | word listed => exact foreign.1 listed
  | call => exact (foreign.2 _ (List.mem_append_right _ List.mem_cons_self)).2.1 rfl
  | digits => exact (foreign.2 _ List.mem_cons_self).2.2 rfl

end Form

/-! ## As it is written

A text whose white space stands inside of parentheses has none before the color, and some behind it
only where a parenthesis is left open. -/

section Written

variable {text : Text} (form : Form (Text.keyword text)) (unspaced : Text.Unspaced text)
include form

include unspaced in
theorem Form.head_lower : ∃ first rest, Text.lower text = first :: rest ∧
    Byte.isDigit first = false ∧ first ∉ otherStarts := by
  obtain ⟨first, rest, shape, plain⟩ := form.head
  obtain ⟨tail, -, whole⟩ := unspaced.exists_tail
  refine ⟨first, rest ++ Text.lower tail, ?_, plain⟩
  rw [Text.keyword] at shape
  rw [whole, Text.lower_append, shape, List.cons_append]

include unspaced in
theorem Form.comma_not_mem_written : ','.toUInt8 ∉ Text.outside 0 text := by
  obtain ⟨tail, blank, whole⟩ := unspaced.exists_tail
  rw [whole, Text.outside_append, List.mem_append, not_or]
  constructor
  · intro member
    refine form.comma_not_mem_outside ?_
    rw [Text.keyword, Text.outside_lower]
    exact (Text.mem_lower_iff (by decide)).mpr member
  · exact fun member => Text.not_mem_of_blank (by decide) blank (Text.mem_of_mem_outside member)

theorem Form.lower_ne_of_foreign {word : Text} (foreign : Foreign word) : Text.lower text ≠ word := by
  intro same
  have solid : ∀ byte ∈ text, Byte.isSpace byte = false := by
    intro byte member
    have inWord : Byte.toLower byte ∈ word := same ▸ List.mem_map_of_mem member
    rw [← Byte.isSpace_toLower]
    exact (foreign.2 _ inWord).1
  refine form.ne_of_foreign foreign ?_
  rw [Text.keyword, Text.trim_of_solid solid, same]

theorem Form.trim_ne_nil : Text.trim text ≠ [] := by
  intro empty
  obtain ⟨first, rest, shape, -⟩ := form.head
  rw [Text.keyword, empty] at shape
  cases shape

theorem Form.written_ne_nil : text ≠ [] :=
  fun empty => form.trim_ne_nil (by rw [empty]; rfl)

end Written

end SlidePress.Style.Color
