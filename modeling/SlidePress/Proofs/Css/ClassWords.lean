import SlidePress.Proofs.Css.SelectorGrammar
import SlidePress.Proofs.Text.Words
import SlidePress.Source.Node

/-! Words of an attribute. A class is asked for in three ways: of an element, of a node of a source
tree, and by a selector that tests for a token. The first two find exactly the words of the class
attribute. The third reads the attribute as a style value, in which parentheses keep white space
together, so that it finds a word only where no parenthesis is open. -/

namespace SlidePress

namespace Text

/-! ## Words and tokens of a text -/

def Begins (word text : Text) : Prop :=
  ∃ after, text = word ++ after ∧ ∀ byte, after.head? = some byte → Byte.isSpace byte = true

/-- A word stands in a text right behind a part of it that is empty or ends in white space. -/
structure StandsBehind (before word text : Text) : Prop where
  gap : ∀ byte, before.getLast? = some byte → Byte.isSpace byte = true
  begins : ∃ rest, text = before ++ rest ∧ Begins word rest

def ClosesAll (text : Text) : Prop := text.foldl nesting 0 = 0

instance (text : Text) : Decidable (ClosesAll text) := inferInstanceAs (Decidable (_ = _))

variable {word : Text}

theorem standsBehind_nil {text : Text} : StandsBehind [] word text ↔ Begins word text := by
  constructor
  · rintro ⟨-, rest, rfl, begins⟩
    exact begins
  · intro begins
    exact ⟨nofun, text, rfl, begins⟩

/-- Behind the first byte alone a word stands if that byte is white space. -/
theorem standsBehind_singleton {byte : UInt8} {text : Text} :
    StandsBehind [byte] word (byte :: text) ↔ Byte.isSpace byte = true ∧ Begins word text := by
  constructor
  · rintro ⟨gap, rest, same, begins⟩
    cases same
    exact ⟨gap byte rfl, begins⟩
  · rintro ⟨space, begins⟩
    refine ⟨?_, text, rfl, begins⟩
    rintro _ ⟨rfl⟩
    exact space

/-- Further on the first byte makes no difference. -/
theorem standsBehind_cons {byte next : UInt8} {before text : Text} :
    StandsBehind (byte :: next :: before) word (byte :: text) ↔
      StandsBehind (next :: before) word text := by
  constructor
  · rintro ⟨gap, rest, same, begins⟩
    cases same
    exact ⟨gap, rest, rfl, begins⟩
  · rintro ⟨gap, rest, rfl, begins⟩
    exact ⟨gap, rest, rfl, begins⟩

/-- A word that stands behind the first byte of a text, and maybe more of it, with something known of
what stands before it. -/
theorem exists_standsBehind_cons {byte : UInt8} {text : Text} (known : Text → Prop) :
    (∃ before, before ≠ [] ∧ StandsBehind before word (byte :: text) ∧ known before) ↔
      (Byte.isSpace byte = true ∧ known [byte] ∧ Begins word text) ∨
        ∃ before, before ≠ [] ∧ StandsBehind before word text ∧ known (byte :: before) := by
  constructor
  · rintro ⟨before, some, stands, isKnown⟩
    obtain ⟨first, rest, rfl⟩ := List.exists_cons_of_ne_nil some
    obtain rfl : byte = first := by
      obtain ⟨-, tail, same, -⟩ := stands
      exact (List.cons.inj same).1
    cases rest with
    | nil =>
        obtain ⟨space, begins⟩ := standsBehind_singleton.mp stands
        exact .inl ⟨space, isKnown, begins⟩
    | cons next more => exact .inr ⟨next :: more, nofun, standsBehind_cons.mp stands, isKnown⟩
  · rintro (⟨space, isKnown, begins⟩ | ⟨before, some, stands, isKnown⟩)
    · exact ⟨[byte], nofun, standsBehind_singleton.mpr ⟨space, begins⟩, isKnown⟩
    · obtain ⟨next, more, rfl⟩ := List.exists_cons_of_ne_nil some
      exact ⟨byte :: next :: more, nofun, standsBehind_cons.mpr stands, isKnown⟩

/-- Whatever is known of what stands before a word, the word stands at the beginning or further
on. -/
theorem exists_standsBehind {text : Text} (known : Text → Prop) :
    (∃ before, StandsBehind before word text ∧ known before) ↔
      (Begins word text ∧ known []) ∨
        ∃ before, before ≠ [] ∧ StandsBehind before word text ∧ known before := by
  constructor
  · rintro ⟨before, stands, isKnown⟩
    by_cases empty : before = []
    · rw [empty] at stands isKnown
      exact .inl ⟨standsBehind_nil.mp stands, isKnown⟩
    · exact .inr ⟨before, empty, stands, isKnown⟩
  · rintro (⟨begins, isKnown⟩ | ⟨before, -, stands, isKnown⟩)
    · exact ⟨[], standsBehind_nil.mpr begins, isKnown⟩
    · exact ⟨before, stands, isKnown⟩

/-! ### Words -/

section Words

variable (solid : ∀ byte ∈ word, Byte.isSpace byte = false)
include solid

theorem wordsFrom_fst_eq_iff (text : Text) : (wordsFrom text).1 = word ↔ Begins word text := by
  have first : (wordsFrom text).1 = text.takeWhile fun byte => !Byte.isSpace byte := by
    induction text with
    | nil => rfl
    | cons byte rest ih =>
        cases kind : Byte.isSpace byte with
        | true => rw [wordsFrom_space kind, List.takeWhile_cons_of_neg (by simp [kind])]
        | false => rw [wordsFrom_solid kind, List.takeWhile_cons_of_pos (by simp [kind]), ih]
  rw [first]
  constructor
  · rintro rfl
    refine ⟨_, List.takeWhile_append_dropWhile.symm, fun byte isNext => ?_⟩
    have stopped := List.head?_dropWhile_not (fun byte => !Byte.isSpace byte) text
    rw [isNext] at stopped
    simpa using stopped
  · rintro ⟨after, rfl, ends⟩
    refine takeWhile_append_stop (fun byte member => ?_) fun byte isNext => ?_
    · rw [solid byte member]
      rfl
    · rw [ends byte isNext]
      rfl

variable (some : word ≠ [])
include some

theorem mem_words_iff_begins (text : Text) :
    word ∈ words text ↔ Begins word text ∨ word ∈ (wordsFrom text).2 := by
  rw [← wordsFrom_fst_eq_iff solid, words_eq]
  split
  · rename_i empty
    rw [empty, or_iff_right (Ne.symm some)]
  · rw [List.mem_cons, eq_comm]

/-- The words of a text are what stands in it between white space. -/
theorem mem_words_iff (text : Text) : word ∈ words text ↔ ∃ before, StandsBehind before word text := by
  have later : word ∈ (wordsFrom text).2 ↔
      ∃ before, before ≠ [] ∧ StandsBehind before word text ∧ True := by
    induction text with
    | nil =>
        refine ⟨nofun, ?_⟩
        rintro ⟨before, some, ⟨-, rest, empty, -⟩, -⟩
        exact absurd (List.append_eq_nil_iff.mp empty.symm).1 some
    | cons byte rest ih =>
        rw [exists_standsBehind_cons fun _ => True, ← ih]
        cases kind : Byte.isSpace byte with
        | true => simp [wordsFrom_space kind, mem_words_iff_begins solid some]
        | false => simp [wordsFrom_solid kind]
  have anywhere : (∃ before, StandsBehind before word text ∧ True) ↔ _ :=
    exists_standsBehind fun _ => True
  rw [mem_words_iff_begins solid some, later]
  simpa using anywhere.symm

end Words

/-! ### Tokens -/

section Tokens

/-- The first piece of a text ends where a separator follows, or nothing. -/
theorem exists_append_piecesFrom (separates : UInt8 → Bool) (depth : Nat) (text : Text) :
    ∃ after, text = (piecesFrom separates depth text).1 ++ after ∧
      ∀ byte, after.head? = some byte → separates byte = true := by
  induction text generalizing depth with
  | nil => exact ⟨[], rfl, nofun⟩
  | cons byte rest ih =>
      rw [piecesFrom]
      dsimp only
      split
      · rename_i cuts
        refine ⟨byte :: rest, rfl, ?_⟩
        rintro _ ⟨rfl⟩
        exact (Bool.and_eq_true_iff.mp cuts).2
      · obtain ⟨after, whole, ends⟩ := ih (nesting depth byte)
        exact ⟨after, congrArg (byte :: ·) whole, ends⟩

def Plain (text : Text) : Prop := '('.toUInt8 ∉ text ∧ ')'.toUInt8 ∉ text

variable (solid : ∀ byte ∈ word, Byte.isSpace byte = false) (plain : Plain word)
include solid plain

theorem piecesFrom_fst_eq_iff (text : Text) :
    (piecesFrom Byte.isSpace 0 text).1 = word ↔ Begins word text := by
  constructor
  · rintro rfl
    exact exists_append_piecesFrom Byte.isSpace 0 text
  · rintro ⟨after, rfl, ends⟩
    obtain ⟨balanced, all⟩ := balanced_of_plain plain.1 plain.2
    rw [piecesFrom_append (by decide) (by rwa [all]), foldl_nesting balanced]
    cases after with
    | nil => simp [piecesFrom]
    | cons byte rest =>
        have space := ends byte rfl
        have level : nesting 0 byte = 0 := by
          rw [nesting, if_neg, if_neg]
          · intro isClose
            rw [beq_iff_eq.mp isClose] at space
            exact absurd space (by decide)
          · intro isOpen
            rw [beq_iff_eq.mp isOpen] at space
            exact absurd space (by decide)
        simp [piecesFrom, level, space]

/-- Behind its first piece a text has the words before which every parenthesis is closed, counted from
some open ones on. -/
theorem mem_piecesFrom_snd_iff (depth : Nat) (text : Text) :
    word ∈ (piecesFrom Byte.isSpace depth text).2 ↔
      ∃ before, before ≠ [] ∧ StandsBehind before word text ∧ before.foldl nesting depth = 0 := by
  induction text generalizing depth with
  | nil =>
      refine ⟨nofun, ?_⟩
      rintro ⟨before, some, ⟨-, rest, empty, -⟩, -⟩
      exact absurd (List.append_eq_nil_iff.mp empty.symm).1 some
  | cons byte rest ih =>
      rw [exists_standsBehind_cons fun before => before.foldl nesting depth = 0]
      simp only [List.foldl_cons, List.foldl_nil]
      rw [← ih, piecesFrom]
      dsimp only
      split
      · rename_i cuts
        rw [Bool.and_eq_true, beq_iff_eq] at cuts
        rw [cuts.1, List.mem_cons, eq_comm, piecesFrom_fst_eq_iff solid plain]
        simp [cuts.2]
      · rename_i goesOn
        rw [Bool.and_eq_true, beq_iff_eq] at goesOn
        refine (or_iff_right ?_).symm
        rintro ⟨space, level, -⟩
        exact goesOn ⟨level, space⟩

/-- The tokens of a text without parentheses of their own are its words, as far as every parenthesis
before them is closed. -/
theorem mem_tokens_iff (some : word ≠ []) (text : Text) :
    word ∈ tokens text ↔ ∃ before, StandsBehind before word text ∧ ClosesAll before := by
  rw [exists_standsBehind ClosesAll, and_iff_left (show ClosesAll [] from rfl),
    ← piecesFrom_fst_eq_iff solid plain]
  have later := mem_piecesFrom_snd_iff solid plain 0 text
  rw [tokens, pieces, List.mem_filter, List.mem_cons, and_iff_left (by simpa using some), eq_comm]
  exact or_congr_right later

end Tokens

end Text

/-! ## The tests for a class -/

namespace Css

open Html (Element)

theorem IsName.not_mem {name : Text} (isName : IsName name) {byte : UInt8}
    (other : isIdentifierByte byte = false) : byte ∉ name :=
  fun member => Bool.false_ne_true (other.symm.trans (isName.bytes byte member))

theorem IsName.solid {name : Text} (isName : IsName name) :
    ∀ byte ∈ name, Byte.isSpace byte = false := by
  intro byte member
  cases kind : Byte.isSpace byte with
  | false => rfl
  | true =>
      have separates : isSeparatorByte byte = true := by rw [isSeparatorByte, kind, Bool.true_or]
      exact absurd member (isName.not_mem (isIdentifierByte_of_separator separates))

theorem IsName.plain {name : Text} (isName : IsName name) : Text.Plain name :=
  ⟨isName.not_mem (by decide), isName.not_mem (by decide)⟩

/-- A name begins with no quotation mark. -/
theorem IsName.unquote {name : Text} (isName : IsName name) : Text.unquote name = name := by
  rw [Text.unquote.eq_def]
  split
  · rename_i first second rest
    have isFirst := isName.bytes first List.mem_cons_self
    refine if_neg fun quoted => ?_
    rw [Bool.and_eq_true, Bool.or_eq_true, beq_iff_eq, beq_iff_eq] at quoted
    rcases quoted.1 with rfl | rfl
    · exact absurd isFirst (by decide)
    · exact absurd isFirst (by decide)
  · rfl

/-- The test for a token of the class attribute, as it is written between brackets. -/
theorem parse?_classToken {name : Text} (isName : IsName name) :
    AttributeTest.parse? ("class~=" ++ name) = some (.hasToken "class" name) := by
  have solid : ∀ byte ∈ ("class~=" : Text) ++ name, Byte.isSpace byte = false := by
    intro byte member
    rcases List.mem_append.mp member with fixed | own
    · exact (by decide +kernel : ∀ byte ∈ ("class~=" : Text), Byte.isSpace byte = false) byte fixed
    · exact isName.solid byte own
  have joined : ("class~=" : Text) ++ name = ("class~" : Text) ++ '='.toUInt8 :: name := by
    rw [show ("class~=" : Text) = "class~" ++ ['='.toUInt8] by decide +kernel, List.append_assoc]
    rfl
  have unsplit : '='.toUInt8 ∉ ("class~" : Text) := by decide +kernel
  have left : ("class~" : Text).getLast? = some '~'.toUInt8 := by decide +kernel
  have key : Text.keyword ("class~" : Text).dropLast = "class" := by decide +kernel
  have filled : ("class" : Text).isEmpty = false := by decide +kernel
  rw [AttributeTest.parse?, Text.trim_of_solid solid, joined, Text.splitAtByte?_append unsplit]
  dsimp only
  rw [AttributeTest.parseComparison?, left]
  simp only
  rw [if_pos (by decide), key, filled, Text.trim_of_solid isName.solid, isName.unquote]
  rfl

def classToken (name : Text) : Selector :=
  { subject := { attributes := [.hasToken "class" name] } }

theorem parse?_bracketed_classToken {name : Text} (isName : IsName name) :
    Selector.parse? ("[class~=" ++ name ++ "]") = some (classToken name) := by
  have unclosed : ']'.toUInt8 ∉ ("class~=" : Text) ++ name := by
    rw [List.mem_append, not_or]
    exact ⟨by decide +kernel, isName.not_mem (by decide)⟩
  have part := ReadsParts.cons (.test unclosed (parse?_classToken isName)) .nil
  have reads := Selector.Reads.last (Compound.Reads.mk .nothing part (by simp))
  rw [List.nil_append, List.append_nil] at reads
  have whole : ("[class~=" : Text) ++ name ++ "]" =
      '['.toUInt8 :: (("class~=" : Text) ++ name) ++ [']'.toUInt8] := by
    rw [show ("[class~=" : Text) = '['.toUInt8 :: "class~=" by decide +kernel,
      show ("]" : Text) = [']'.toUInt8] by decide +kernel]
    rfl
  have read := Selector.parse?_of_reads (reads.trim.2.symm ▸ reads)
  rw [whole, read]
  rfl

/-- An element without the attribute has no token, and no value either. -/
theorem selects_classToken (name : Text) (ancestors : List Element) (element : Element) :
    (classToken name).selects ancestors element = true ↔
      name ∈ Text.tokens (element.valueOf "class") := by
  have held : (classToken name).selects ancestors element =
      (element.hasAttribute "class" && (Text.tokens (element.valueOf "class")).contains name) := by
    simp [classToken, Selector.selects, Compound.holds, Selector.contextHolds, AttributeTest.holds]
  rw [held, Bool.and_eq_true, List.contains_iff_mem, and_iff_right_iff_imp]
  intro member
  rw [Element.hasAttribute, Table.contains]
  rw [Element.valueOf, Table.getD] at member
  cases value : element.attributes.get? "class" with
  | some text => rfl
  | none =>
      rw [value] at member
      cases member

/-- An element and a node of a source tree with the same class attribute have the same classes, the
words of the attribute. The selector that asks for a token finds those of them before which every
parenthesis is closed. -/
theorem class_tests_of_words (element : Element) (node : Source.Node) {name : Text}
    (isName : IsName name) (same : node.valueOf "class" = element.valueOf "class") :
    (element.hasClass name = true ↔
      ∃ before, Text.StandsBehind before name (element.valueOf "class")) ∧
    (node.hasClass name = true ↔
      ∃ before, Text.StandsBehind before name (element.valueOf "class")) ∧
    ∃ selector, Selector.parse? ("[class~=" ++ name ++ "]") = some selector ∧
      ∀ ancestors, selector.selects ancestors element = true ↔
        ∃ before, Text.StandsBehind before name (element.valueOf "class") ∧
          Text.ClosesAll before := by
  have words := Text.mem_words_iff isName.solid isName.some (element.valueOf "class")
  refine ⟨?_, ?_, classToken name, parse?_bracketed_classToken isName, fun ancestors => ?_⟩
  · rw [Element.hasClass, List.contains_iff_mem, words]
  · rw [Source.Node.hasClass, same, List.contains_iff_mem, words]
  · rw [selects_classToken, Text.mem_tokens_iff isName.solid isName.plain isName.some]

def parenthesized : Element := ⟨"p", Table.ofList [("class", "w(1 2) big f( wide")]⟩

def parenthesizedNode : Source.Node :=
  ⟨"p", parenthesized.attributes, [], .ofStyle ∅, ⟨0, 0, 0, 0⟩, [], 0, []⟩

theorem isName_big : IsName "big" := ⟨by decide +kernel, by decide +kernel⟩

theorem isName_wide : IsName "wide" := ⟨by decide +kernel, by decide +kernel⟩

/-- Behind the parenthesis that is closed a class is found in all three ways. -/
theorem class_tests_of_words_big :
    parenthesizedNode.valueOf "class" = parenthesized.valueOf "class" ∧
    parenthesized.hasClass "big" = true ∧ parenthesizedNode.hasClass "big" = true ∧
    ∃ selector, Selector.parse? ("[class~=" ++ "big" ++ "]") = some selector ∧
      selector.selects [] parenthesized = true := by
  obtain ⟨inElement, inNode, selector, read, selects⟩ :=
    class_tests_of_words parenthesized parenthesizedNode isName_big rfl
  have stands : Text.StandsBehind "w(1 2) " "big" (parenthesized.valueOf "class") :=
    ⟨by decide +kernel, "big f( wide", by decide +kernel, " f( wide", by decide +kernel,
      by decide +kernel⟩
  exact ⟨rfl, inElement.mpr ⟨_, stands⟩, inNode.mpr ⟨_, stands⟩, selector, read,
    (selects []).mpr ⟨_, stands, by decide +kernel⟩⟩

/-- Behind the parenthesis that is not closed the selector misses a class that the element has. -/
theorem not_class_tests_agree :
    ¬ ∀ (element : Element) (name : Text), IsName name →
      ∃ selector, Selector.parse? ("[class~=" ++ name ++ "]") = some selector ∧
        ∀ ancestors, selector.selects ancestors element = true ↔ element.hasClass name = true := by
  intro agree
  obtain ⟨selector, read, selects⟩ := agree parenthesized "wide" isName_wide
  have found : parenthesized.hasClass "wide" = true := by decide +kernel
  rw [parse?_bracketed_classToken isName_wide, Option.some.injEq] at read
  rw [← selects [], ← read] at found
  exact absurd found (by decide +kernel)

end Css

end SlidePress
