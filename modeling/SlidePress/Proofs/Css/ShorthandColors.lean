import SlidePress.Proofs.Css.Longhands
import SlidePress.Proofs.Style.ColorText

/-! Colors in shorthands. A border takes every color for what it is. A background looks for slashes
and gradients in a token before it takes it for a color, and looks inside of parentheses as well: a
color whose arguments are divided by a slash is lost there. -/

namespace SlidePress.Css

open Style (Color)

/-! ## Colors among the tokens -/

section Tokens

variable {text : Text} (form : Color.Form (Text.keyword text)) (unspaced : Text.Unspaced text)

theorem looksLikeLength_lower (text : Text) :
    looksLikeLength (Text.lower text) = looksLikeLength text := by
  cases text with
  | nil => rfl
  | cons first rest =>
      have split : Text.lower (first :: rest) = Byte.toLower first :: Text.lower rest := rfl
      have digits := Byte.class_toLower_eq Byte.isDigit_of_isLetter first
      have empty : (Text.lower rest).isEmpty = rest.isEmpty := by cases rest <;> rfl
      have mark : ∀ mark, Byte.isLetter mark = false →
          (Byte.toLower first == mark) = (first == mark) := fun mark noLetter => by
        rw [Bool.eq_iff_iff, beq_iff_eq, beq_iff_eq, Byte.toLower_eq_iff noLetter]
      rw [split, looksLikeLength, looksLikeLength, digits, empty, mark _ (by decide),
        mark _ (by decide), mark _ (by decide)]

include form unspaced

theorem not_looksLikeLength : looksLikeLength text = false := by
  obtain ⟨first, rest, shape, notDigit, other⟩ := form.head_lower unspaced
  have marks : ∀ mark ∈ Color.otherStarts, (first == mark) = false := by
    intro mark member
    rw [beq_eq_false_iff_ne]
    rintro rfl
    exact other member
  rw [← looksLikeLength_lower, shape, looksLikeLength, notDigit, marks '.'.toUInt8 (by decide),
    marks '-'.toUInt8 (by decide), marks '+'.toUInt8 (by decide)]
  rfl

theorem not_address : ("url(" : Text).isPrefixOf (Text.lower text) = false := by
  obtain ⟨first, rest, shape, -, other⟩ := form.head_lower unspaced
  rw [shape, ← Bool.not_eq_true]
  intro isPrefix
  have begins : 'u'.toUInt8 = first :=
    (List.cons_prefix_cons.mp (List.isPrefixOf_iff_prefix.mp isPrefix)).1
  exact other (begins ▸ by decide)

omit unspaced in
/-- A list of words that are no colors does not have the color. -/
theorem not_listed {list : List Text} (foreign : ∀ word ∈ list, Color.Foreign word) :
    list.contains (Text.lower text) = false := by
  rw [← Bool.not_eq_true, List.contains_iff_mem]
  exact fun member => form.lower_ne_of_foreign (foreign _ member) rfl

end Tokens

/-- No word of a border or a background is a color. -/
theorem foreign_words :
    ∀ word ∈ borderStyles ++ borderWidthNames ++ backgroundKeywords, Color.Foreign word := by
  decide +kernel

namespace Shorthand

/-! ## Borders -/

section Borders

variable {text : Text} (form : Color.Form (Text.keyword text)) (unspaced : Text.Unspaced text)
include form unspaced

theorem BorderParts.add_color (parts : BorderParts) :
    parts.add text = { parts with color := text } := by
  obtain ⟨bordering, -⟩ := List.forall_mem_append.mp foreign_words
  obtain ⟨styles, widths⟩ := List.forall_mem_append.mp bordering
  rw [BorderParts.add, not_listed form styles, not_looksLikeLength form unspaced,
    not_listed form widths]
  rfl

theorem borderParts_color :
    borderParts ("1px solid " ++ text) = { width := "1px", style := "solid", color := text } := by
  have tokens : Text.tokens ("1px solid " ++ text) =
      ("1px" : Text) :: ("solid" : Text) :: Text.tokens text := rfl
  rw [borderParts, tokens, unspaced.tokens form.written_ne_nil]
  exact BorderParts.add_color form unspaced { width := "1px", style := "solid" }

/-- Every side of a border gets its color as it is written. -/
theorem get?_border_color (side : Side) :
    (expand (Table.empty.insert "border" ("1px solid " ++ text))).get?
      (sideProperty "border" side "color") = some text := by
  have some : text.isEmpty = false := List.isEmpty_eq_false_iff.mpr form.written_ne_nil
  have onSide : (sideProperty "border" side "color", text) ∈
      borderLonghands ("1px solid " ++ text) side := by
    rw [borderLonghands, borderParts_color form unspaced]
    simp [some]
  have listed : borderRule ∈ rules := by simp [rules]
  have every := side.mem_all
  exact get?_expand_single listed (List.mem_flatMap.mpr ⟨side, every, onSide⟩)

end Borders

/-! ## Backgrounds -/

/-- A background takes the color for something else: for a size behind a slash, or for an image. -/
def mistaken (text : Text) : Bool :=
  Text.mentions "gradient(" (Text.keyword text) || (Text.trim text).contains '/'.toUInt8

section Backgrounds

variable {text : Text} (form : Color.Form (Text.keyword text)) (unspaced : Text.Unspaced text)
include form unspaced

theorem backgroundParts_color :
    (backgroundParts text).color = if mistaken text then [] else Text.trim text := by
  have trimmed : Color.Form (Text.keyword (Text.trim text)) := by
    rw [Text.keyword_trim]
    exact form
  have divides : Text.Divides ','.toUInt8 := ⟨by decide, by decide, by decide⟩
  -- There is one layer, and one token in it: the color without white space behind it.
  have single : (Text.entries ','.toUInt8 text).flatMap Text.tokens = [Text.trim text] := by
    rw [Text.entries_entry divides (form.comma_not_mem_written unspaced) form.trim_ne_nil,
      List.flatMap_singleton, unspaced.trim.tokens form.trim_ne_nil]
  obtain ⟨-, keywords⟩ := List.forall_mem_append.mp foreign_words
  rw [backgroundParts, single, List.foldl_cons, List.foldl_nil, BackgroundParts.add,
    not_address trimmed unspaced.trim, not_listed trimmed keywords,
    not_looksLikeLength trimmed unspaced.trim, mistaken, Text.keyword]
  cases Text.mentions "gradient(" (Text.lower (Text.trim text)) <;>
    cases (Text.trim text).contains '/'.toUInt8 <;> rfl

theorem get?_background_color :
    (expand (Table.empty.insert "background" text)).get? "background-color" =
      some (if mistaken text then ("transparent" : Text) else Text.trim text) := by
  have listed : backgroundRule ∈ rules := by simp [rules]
  have isGiven : (("background-color" : Text), orElse (backgroundParts text).color "transparent") ∈
      backgroundRule.longhands text := List.mem_cons_of_mem _ List.mem_cons_self
  refine (get?_expand_single listed isGiven).trans (congrArg some ?_)
  rw [backgroundParts_color form unspaced]
  split
  · rfl
  · rw [orElse, List.isEmpty_eq_false_iff.mpr form.trim_ne_nil]
    rfl

end Backgrounds

/-! ## The colors that come out -/

/-- A color survives as that of a border, and as that of a background unless it is taken for
something else there; a background without a color is transparent. -/
theorem color_of_shorthands {text : Text} {current color : Color}
    (accepted : Color.parse? text current = some color) (unspaced : Text.Unspaced text) :
    (∀ side, ((expand (Table.empty.insert "border" ("1px solid " ++ text))).get?
        (sideProperty "border" side "color")).bind (Color.parse? · current) = some color) ∧
      ((expand (Table.empty.insert "background" text)).get? "background-color").bind
          (Color.parse? · current) =
        some (if mistaken text then { Color.black with alpha := 0 } else color) := by
  have form := Color.form_of_parse? accepted
  constructor
  · intro side
    rw [get?_border_color form unspaced]
    exact accepted
  · rw [get?_background_color form unspaced, Option.bind_some]
    split
    · rfl
    · rw [Color.parse?_congr (Text.keyword_trim text)]
      exact accepted

theorem color_of_shorthands_green :
    (∀ side, ((expand (Table.empty.insert "border" ("1px solid " ++ "HSL(120, 50%, 25%)"))).get?
        (sideProperty "border" side "color")).bind (Color.parse? · .black) =
          some ⟨32, 96, 32, 1⟩) ∧
      ((expand (Table.empty.insert "background" "HSL(120, 50%, 25%)")).get?
          "background-color").bind (Color.parse? · .black) = some ⟨32, 96, 32, 1⟩ := by
  have parts : (Color.parse? "HSL(120, 50%, 25%)" .black).map (fun color =>
      (color.red, color.green, color.blue, color.alpha.value, color.alpha.nanNegative)) =
        some (32, 96, 32, (1 : Number).value, (1 : Number).nanNegative) := by decide +kernel
  obtain ⟨⟨red, green, blue, alpha⟩, accepted, same⟩ := Option.map_eq_some_iff.mp parts
  cases alpha
  simp only [Prod.mk.injEq] at same
  obtain ⟨rfl, rfl, rfl, rfl, rfl⟩ := same
  have plain : mistaken "HSL(120, 50%, 25%)" = false := by decide +kernel
  have both := color_of_shorthands accepted (by decide +kernel)
  rw [plain] at both
  exact both

/-- A background loses a color whose arguments are divided by a slash. -/
theorem not_color_of_background :
    ¬ ∀ (text : Text) (current color : Color), Color.parse? text current = some color →
      Text.Unspaced text →
        ((expand (Table.empty.insert "background" text)).get? "background-color").bind
          (Color.parse? · current) = some color := by
  intro survives
  have accepted : (Color.parse? "rgb(1 2 3 / 50%)" .black).map (·.red) = some 1 := by
    decide +kernel
  obtain ⟨color, isColor, red⟩ := Option.map_eq_some_iff.mp accepted
  have kept := survives "rgb(1 2 3 / 50%)" .black color isColor (by decide +kernel)
  have lost : ((((expand (Table.empty.insert "background" "rgb(1 2 3 / 50%)")).get?
      "background-color").bind (Color.parse? · .black))).map (·.red) = some 0 := by decide +kernel
  rw [kept, Option.map_some, red] at lost
  exact absurd lost (by decide)

end Shorthand

end SlidePress.Css
