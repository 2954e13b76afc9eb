import Mathlib.Data.List.Chain
import Mathlib.Tactic.MkIffOfInductiveProp
import SlidePress.Css.Stylesheet
import SlidePress.Proofs.Text.Entries
import SlidePress.Proofs.Text.Marks

/-! Style sheets that are written and read again. A block is written with a comma between its
selectors and a semicolon between its declarations. Each stage of reading finds what belongs to it
again: there is no comment to strip, the braces show the block, separators inside of parentheses do
not cut a value, the first colon ends the property, and the last exclamation mark tells whether the
value is important. -/

namespace SlidePress.Css

/-! ## Writing -/

def Declaration.writeValue (declaration : Declaration) : Text :=
  declaration.value ++ if declaration.important then (" !important" : Text) else []

def Declaration.write (declaration : Declaration) : Text :=
  declaration.property ++ ": " ++ declaration.writeValue

structure Block where
  selectors : List Text
  declarations : List Declaration

def Block.write (block : Block) : Text :=
  Text.join ", " block.selectors ++ " \x7b " ++
    Text.join "; " (block.declarations.map Declaration.write) ++ " \x7d"

def writeSheet (between : Text) (blocks : List Block) : Text :=
  Text.join between (blocks.map Block.write)

/-! ## What can be written -/

def Uncommented (text : Text) : Prop :=
  text.IsChain fun first second => ¬ (first = '/'.toUInt8 ∧ second = '*'.toUInt8)

instance (text : Text) : Decidable (Uncommented text) :=
  inferInstanceAs (Decidable (List.IsChain _ _))

/-- The value ends in the mark of importance, in any letter case and spacing. -/
def EndsImportant (value : Text) : Prop :=
  ∃ before after, value = before ++ '!'.toUInt8 :: after ∧ Text.keyword after = "important"

/-- Bytes that are no part of a selector: they would end it, or begin a comment. -/
def selectorMarks : List UInt8 :=
  [','.toUInt8, Byte.openBrace, Byte.closeBrace, '('.toUInt8, ')'.toUInt8, '/'.toUInt8]

@[mk_iff]
structure WritableSelector (source : Text) : Prop where
  trimmed : Text.trim source = source
  readable : (Selector.parse? source).isSome = true
  plain : ∀ mark ∈ selectorMarks, mark ∉ source
  ordinary : source.head? ≠ some '@'.toUInt8

def propertyMarks : List UInt8 :=
  [':'.toUInt8, ';'.toUInt8, Byte.openBrace, Byte.closeBrace, '('.toUInt8, ')'.toUInt8,
    '/'.toUInt8]

@[mk_iff]
structure WritableProperty (property : Text) : Prop where
  some : property ≠ []
  trimmed : Text.trim property = property
  lowered : Text.lower property = property
  plain : ∀ mark ∈ propertyMarks, mark ∉ property

@[mk_iff]
structure WritableValue (value : Text) : Prop where
  trimmed : Text.trim value = value
  balanced : Text.Balanced value
  uncut : ';'.toUInt8 ∉ Text.outside 0 value
  unopened : Byte.openBrace ∉ value
  unclosed : Byte.closeBrace ∉ value
  uncommented : Uncommented value
  unmarked : ¬ EndsImportant value

theorem WritableSelector.ne_nil {source : Text} (writable : WritableSelector source) :
    source ≠ [] := by
  rintro rfl
  exact absurd writable.readable (by decide +kernel)

@[mk_iff]
structure Declaration.Writable (declaration : Declaration) : Prop where
  property : WritableProperty declaration.property
  value : WritableValue declaration.value

@[mk_iff]
structure Block.Writable (block : Block) : Prop where
  some : block.selectors ≠ []
  selectors : ∀ source ∈ block.selectors, WritableSelector source
  declarations : ∀ declaration ∈ block.declarations, declaration.Writable

/-! ## Importance -/

namespace Declaration

theorem splitAtLast?_append {mark : UInt8} {after : Text} (absent : mark ∉ after) (before : Text) :
    splitAtLast? mark (before ++ mark :: after) = some (before, after) := by
  have mirrored : (before ++ mark :: after).reverse = after.reverse ++ mark :: before.reverse := by
    simp
  have absentToo : mark ∉ after.reverse := fun member => absent (List.mem_reverse.mp member)
  rw [splitAtLast?, mirrored, Text.splitAtByte?_append absentToo]
  simp

theorem splitAtLast?_eq_some {mark : UInt8} {text before after : Text}
    (found : splitAtLast? mark text = some (before, after)) : text = before ++ mark :: after := by
  obtain ⟨⟨tail, head⟩, split, same⟩ := Option.map_eq_some_iff.mp found
  have mirrored := congrArg List.reverse (Text.splitAtByte?_eq_some split).1
  rw [Prod.mk.injEq] at same
  rw [← same.1, ← same.2, ← List.reverse_reverse text, mirrored]
  simp

theorem readImportance_marked {after : Text} (word : Text.keyword after = "important")
    (before : Text) :
    readImportance (before ++ '!'.toUInt8 :: after) = (Text.trim before, true) := by
  -- The word itself holds no mark, so this is the last one.
  have absent : '!'.toUInt8 ∉ after := by
    intro member
    have inside : '!'.toUInt8 ∈ Text.keyword after :=
      List.mem_map.mpr ⟨_, Text.mem_trim (by decide) member, by decide⟩
    rw [word] at inside
    exact absurd inside (by decide +kernel)
  rw [readImportance, splitAtLast?_append absent]
  simp only [word, beq_self_eq_true, if_true]

theorem readImportance_unmarked {value : Text} (unmarked : ¬ EndsImportant value) :
    readImportance value = (value, false) := by
  rw [readImportance]
  split
  · rename_i before after found
    split
    · rename_i word
      exact absurd ⟨before, after, splitAtLast?_eq_some found, beq_iff_eq.mp word⟩ unmarked
    · rfl
  · rfl

/-- A value is read as important exactly when it ends in the mark. -/
theorem readImportance_eq_true_iff {value : Text} :
    (readImportance value).2 = true ↔ EndsImportant value := by
  constructor
  · intro important
    by_contra unmarked
    rw [readImportance_unmarked unmarked] at important
    cases important
  · rintro ⟨before, after, rfl, word⟩
    rw [readImportance_marked word]

instance (value : Text) : Decidable (EndsImportant value) :=
  decidable_of_iff _ readImportance_eq_true_iff

/-- Marks are tried one by one. -/
instance (marks : List UInt8) (text : Text) : Decidable (∀ mark ∈ marks, mark ∉ text) :=
  List.decidableBAll (· ∉ text) marks

instance (source : Text) : Decidable (WritableSelector source) :=
  decidable_of_iff _ (writableSelector_iff source).symm

instance (property : Text) : Decidable (WritableProperty property) :=
  decidable_of_iff _ (writableProperty_iff property).symm

instance (value : Text) : Decidable (WritableValue value) :=
  decidable_of_iff _ (writableValue_iff value).symm

instance (declaration : Declaration) : Decidable declaration.Writable :=
  decidable_of_iff _ (writable_iff declaration).symm

instance (block : Block) : Decidable block.Writable :=
  decidable_of_iff _ (Block.writable_iff block).symm

/-! ## Declarations -/

section Declarations

variable {declaration : Declaration} (writable : declaration.Writable)
include writable

theorem trim_write : Text.trim declaration.write =
    declaration.property ++ ':'.toUInt8 :: Text.trimRight (" " ++ declaration.writeValue) := by
  have shape : declaration.write =
      declaration.property ++ ':'.toUInt8 :: (" " ++ declaration.writeValue) := by
    rw [write, List.append_assoc]
    rfl
  rw [shape, Text.trim_append_cons (by decide), Text.trimLeft_of_trim writable.property.trimmed]

/-- The mark that was written is the last one, so that marks inside of the value do not count. -/
theorem readImportance_writeValue :
    readImportance (Text.trim (" " ++ declaration.writeValue)) =
      (declaration.value, declaration.important) := by
  rw [Text.trim_blank_append Text.isBlank_space, writeValue]
  cases declaration.important with
  | false =>
      rw [if_neg Bool.false_ne_true, List.append_nil, writable.value.trimmed,
        readImportance_unmarked writable.value.unmarked]
  | true =>
      have shape : declaration.value ++ (" !important" : Text) =
          (declaration.value ++ " ") ++ '!'.toUInt8 :: "important" := by
        rw [List.append_assoc]
        rfl
      rw [if_pos rfl, shape, Text.trim_append_cons (by decide),
        readImportance_marked (by decide +kernel), Text.trim_trimLeft,
        Text.trim_append_blank Text.isBlank_space, writable.value.trimmed]

/-- A declaration is read back from its text. -/
theorem parse?_trim_write : parse? (Text.trim declaration.write) = some declaration := by
  have colon : ':'.toUInt8 ∉ declaration.property := writable.property.plain _ (by decide)
  have keyword : Text.keyword declaration.property = declaration.property := by
    rw [Text.keyword, writable.property.trimmed, writable.property.lowered]
  rw [trim_write writable, parse?, Text.splitAtByte?_append colon]
  simp only [keyword, Text.trim_trimRight, readImportance_writeValue writable, List.isEmpty_iff,
    writable.property.some, if_false]

theorem entry_write : Text.Entry ';'.toUInt8 declaration.write := by
  have plain := writable.property.plain
  have name : Text.Entry ';'.toUInt8 declaration.property :=
    .of_plain (plain _ (by decide)) (plain _ (by decide)) (plain _ (by decide))
  have colon : Text.Entry ';'.toUInt8 ": " :=
    .of_plain (by decide +kernel) (by decide +kernel) (by decide +kernel)
  have content : Text.Entry ';'.toUInt8 declaration.value :=
    ⟨writable.value.balanced, writable.value.uncut⟩
  refine (name.append colon).append (content.append ?_)
  split <;> exact .of_plain (by decide +kernel) (by decide +kernel) (by decide +kernel)

end Declarations

theorem parseBlock_write {declarations : List Declaration}
    (writable : ∀ declaration ∈ declarations, declaration.Writable) :
    parseBlock (" " ++ Text.join "; " (declarations.map write) ++ " ") = declarations := by
  have divides : Text.Divides ';'.toUInt8 := ⟨by decide, by decide, by decide⟩
  have blank := Text.isBlank_space
  have found : Text.entries ';'.toUInt8 (" " ++ Text.join "; " (declarations.map write) ++ " ") =
      (declarations.map write).map Text.trim := by
    refine Text.entries_join divides blank blank blank ?_ ?_
    · intro item member
      obtain ⟨declaration, listed, rfl⟩ := List.mem_map.mp member
      exact entry_write (writable declaration listed)
    · intro item member
      obtain ⟨declaration, listed, rfl⟩ := List.mem_map.mp member
      rw [trim_write (writable declaration listed)]
      exact List.append_ne_nil_of_right_ne_nil _ (List.cons_ne_nil _ _)
  rw [parseBlock, found, List.map_map, List.filterMap_map]
  calc declarations.filterMap (parse? ∘ Text.trim ∘ write)
      = declarations.filterMap some := List.filterMap_congr fun declaration listed =>
        parse?_trim_write (writable declaration listed)
    _ = declarations := List.filterMap_some

end Declaration

/-! ## Comments -/

theorem Stylesheet.stripComments_of_uncommented {text : Text} (uncommented : Uncommented text) :
    stripComments text = text := by
  induction text with
  | nil => rw [stripComments]
  | cons byte rest ih =>
      obtain ⟨apart, remaining⟩ := List.isChain_cons.mp uncommented
      have ordinary : (byte == '/'.toUInt8 && rest.head? == some '*'.toUInt8) = false := by
        rw [Bool.eq_false_iff]
        intro begins
        rw [Bool.and_eq_true, beq_iff_eq, beq_iff_eq] at begins
        exact apart _ begins.2 ⟨begins.1, rfl⟩
      rw [stripComments, ordinary, if_neg Bool.false_ne_true, ih remaining]

/-- No comment begins in the text, nor where it meets what follows. -/
def Guarded (text : Text) : Prop :=
  ∀ rest, Uncommented rest → Uncommented (text ++ rest)

namespace Guarded

variable {first second text : Text}

theorem uncommented (guarded : Guarded text) : Uncommented text := by
  have alone := guarded [] .nil
  rwa [List.append_nil] at alone

theorem append (one : Guarded first) (two : Guarded second) : Guarded (first ++ second) := by
  intro rest uncommented
  rw [List.append_assoc]
  exact one _ (two rest uncommented)

theorem of_plain (plain : '/'.toUInt8 ∉ text) : Guarded text := by
  intro rest uncommented
  induction text with
  | nil => exact uncommented
  | cons byte more ih =>
      rw [List.mem_cons, not_or] at plain
      exact List.isChain_cons.mpr ⟨fun next _ begins => plain.1 begins.1.symm, ih plain.2⟩

/-- A text is guarded by what is written after it. -/
theorem of_uncommented {mark : UInt8} (uncommented : Uncommented text)
    (other : mark ≠ '*'.toUInt8) {more : Text} (plain : '/'.toUInt8 ∉ mark :: more) :
    Guarded (text ++ mark :: more) := by
  intro rest uncommentedRest
  rw [List.append_assoc]
  refine List.IsChain.append uncommented (of_plain plain rest uncommentedRest) ?_
  rintro last - next isNext ⟨-, rfl⟩
  exact other (Option.some.inj isNext)

end Guarded

theorem uncommented_join {between : Text} {texts : List Text}
    (uncommented : ∀ text ∈ texts, Uncommented text)
    (guarded : ∀ text ∈ texts, Guarded (text ++ between)) :
    Uncommented (Text.join between texts) := by
  induction texts with
  | nil => exact .nil
  | cons text rest ih =>
      cases rest with
      | nil => exact uncommented text List.mem_cons_self
      | cons next others =>
          exact guarded text List.mem_cons_self _
            (ih (fun other member => uncommented other (List.mem_cons_of_mem _ member))
              (fun other member => guarded other (List.mem_cons_of_mem _ member)))

theorem Declaration.uncommented_write {declaration : Declaration}
    (writable : declaration.Writable) : Uncommented declaration.write := by
  have name : Guarded (declaration.property ++ ": ") :=
    (Guarded.of_plain (writable.property.plain _ (by decide))).append
      (.of_plain (by decide +kernel))
  rw [Declaration.write, Declaration.writeValue]
  refine name _ ?_
  split
  · have marked : Guarded (declaration.value ++ " !important") :=
      .of_uncommented writable.value.uncommented (by decide) (by decide +kernel)
    exact marked.uncommented
  · rw [List.append_nil]
    exact writable.value.uncommented

/-! ## Blocks -/

namespace Block

variable {block : Block} (writable : block.Writable)

def rules (block : Block) : List Rule :=
  block.selectors.filterMap fun source =>
    (Selector.parse? source).map fun selector => ⟨source, selector, block.declarations⟩

include writable

theorem not_mem_selectors {mark : UInt8} (excluded : mark ∈ selectorMarks)
    (other : mark ∉ (", " : Text)) : mark ∉ Text.join ", " block.selectors := by
  intro member
  rcases Text.mem_join member with inBetween | ⟨source, listed, inside⟩
  · exact other inBetween
  · exact (writable.selectors source listed).plain mark excluded inside

theorem not_mem_declarations :
    Byte.closeBrace ∉ Text.join "; " (block.declarations.map Declaration.write) := by
  intro member
  rcases Text.mem_join member with inBetween | ⟨text, written, inside⟩
  · exact absurd inBetween (by decide +kernel)
  · obtain ⟨declaration, listed, rfl⟩ := List.mem_map.mp written
    have fit := writable.declarations declaration listed
    rw [Declaration.write, Declaration.writeValue, List.mem_append, List.mem_append,
      List.mem_append] at inside
    rcases inside with (inProperty | inColon) | inValue | inMark
    · exact fit.property.plain _ (by decide) inProperty
    · exact absurd inColon (by decide +kernel)
    · exact fit.value.unclosed inValue
    · split at inMark
      · exact absurd inMark (by decide +kernel)
      · cases inMark

theorem guarded_write : Guarded block.write := by
  have lead : Guarded (Text.join ", " block.selectors ++ " \x7b ") :=
    (Guarded.of_plain (not_mem_selectors writable (by decide) (by decide +kernel))).append
      (.of_plain (by decide +kernel))
  have body : Uncommented (Text.join "; " (block.declarations.map Declaration.write)) := by
    have each : ∀ text ∈ block.declarations.map Declaration.write, Uncommented text := by
      intro text written
      obtain ⟨declaration, listed, rfl⟩ := List.mem_map.mp written
      exact Declaration.uncommented_write (writable.declarations declaration listed)
    exact uncommented_join each fun text written =>
      .of_uncommented (each text written) (by decide) (by decide +kernel)
  rw [write, List.append_assoc]
  exact lead.append (.of_uncommented body (by decide) (by decide +kernel))

theorem trim_selectors :
    Text.trim (Text.join ", " block.selectors) = Text.join ", " block.selectors :=
  (Text.trim_join ", " writable.some
    (fun source listed => (writable.selectors source listed).ne_nil)
    (fun source listed => (writable.selectors source listed).trimmed)).2

/-- The selectors do not make a block a special one. -/
theorem head?_selectors : (Text.join ", " block.selectors).head? ≠ some '@'.toUInt8 := by
  obtain ⟨first, others, listed⟩ := List.exists_cons_of_ne_nil writable.some
  have fit := writable.selectors first (listed ▸ List.mem_cons_self)
  obtain ⟨byte, more, rfl⟩ := List.exists_cons_of_ne_nil fit.ne_nil
  rw [listed]
  cases others with
  | nil => exact fit.ordinary
  | cons next rest => exact fit.ordinary

/-- There is a rule for every selector, with its weight and all declarations. -/
theorem map_rules :
    block.rules.map (fun rule =>
      (rule.source, some rule.selector, rule.declarations, rule.selector.specificity)) =
    block.selectors.map fun source =>
      (source, Selector.parse? source, block.declarations, Selector.specificityOf source) := by
  rw [rules, List.map_filterMap, ← List.filterMap_eq_map]
  refine List.filterMap_congr fun source listed => ?_
  obtain ⟨selector, read⟩ :=
    Option.isSome_iff_exists.mp (writable.selectors source listed).readable
  simp [read, Selector.specificityOf]

theorem rulesOf_selectors :
    Stylesheet.rulesOf (Text.join ", " block.selectors) block.declarations =
      block.rules.map Sum.inl := by
  have divides : Text.Divides ','.toUInt8 := ⟨by decide, by decide, by decide⟩
  have found : Text.entries ','.toUInt8 ([] ++ Text.join ", " block.selectors ++ []) =
      block.selectors.map Text.trim := by
    refine Text.entries_join divides rfl (by decide +kernel) rfl ?_ ?_
    · intro source listed
      have plain := (writable.selectors source listed).plain
      exact .of_plain (plain _ (by decide)) (plain _ (by decide)) (plain _ (by decide))
    · intro source listed
      have fit := writable.selectors source listed
      rw [fit.trimmed]
      exact fit.ne_nil
  rw [List.nil_append, List.append_nil] at found
  rw [Stylesheet.rulesOf, found, List.map_map, rules, List.map_filterMap, ← List.filterMap_eq_map]
  refine List.filterMap_congr fun source listed => ?_
  have fit := writable.selectors source listed
  obtain ⟨selector, read⟩ := Option.isSome_iff_exists.mp fit.readable
  simp [fit.trimmed, read]

end Block

/-! ## Sheets -/

namespace Stylesheet

/-- What stands between braces is a block, and reading goes on behind it. -/
theorem readRules_braces {before content : Text} (unopened : Byte.openBrace ∉ before)
    (unclosed : Byte.closeBrace ∉ content) (ordinary : (Text.trim before).head? ≠ some '@'.toUInt8)
    (rest : Text) :
    readRules (before ++ Byte.openBrace :: (content ++ Byte.closeBrace :: rest)) =
      rulesOf (Text.trim before) (Declaration.parseBlock content) ++ readRules rest := by
  have opened := Text.splitAtByte?_append unopened (content ++ Byte.closeBrace :: rest)
  have closed := Text.splitAtByte?_append unclosed rest
  rw [readRules]
  split
  · rename_i missing
    rw [opened] at missing
    cases missing
  · rename_i lead inside found
    rw [opened, Option.some.injEq, Prod.mk.injEq] at found
    obtain ⟨rfl, rfl⟩ := found
    dsimp only
    rw [if_neg (by simpa using ordinary)]
    split
    · rename_i missing
      rw [closed] at missing
      cases missing
    · rename_i block after found
      rw [closed, Option.some.injEq, Prod.mk.injEq] at found
      obtain ⟨rfl, rfl⟩ := found
      rfl

/-- A written block is read as its rules, whatever follows it. -/
theorem readRules_block {block : Block} (writable : block.Writable) {gap : Text}
    (blank : gap.isBlank = true) (rest : Text) :
    readRules (gap ++ block.write ++ rest) = block.rules.map Sum.inl ++ readRules rest := by
  have shape : gap ++ block.write ++ rest =
      (gap ++ Text.join ", " block.selectors ++ " ") ++ Byte.openBrace ::
        ((" " ++ Text.join "; " (block.declarations.map Declaration.write) ++ " ") ++
          Byte.closeBrace :: rest) := by
    simp only [Block.write, List.append_assoc]
    rfl
  have lead : Text.trim (gap ++ Text.join ", " block.selectors ++ " ") =
      Text.join ", " block.selectors := by
    rw [Text.trim_append_blank Text.isBlank_space, Text.trim_blank_append blank,
      Block.trim_selectors writable]
  have unopened : Byte.openBrace ∉ gap ++ Text.join ", " block.selectors ++ " " := by
    rw [List.mem_append, List.mem_append, not_or, not_or]
    exact ⟨⟨Text.not_mem_of_blank (by decide) blank,
      Block.not_mem_selectors writable (by decide) (by decide +kernel)⟩, by decide +kernel⟩
  have unclosed : Byte.closeBrace ∉
      " " ++ Text.join "; " (block.declarations.map Declaration.write) ++ " " := by
    rw [List.mem_append, List.mem_append, not_or, not_or]
    exact ⟨⟨by decide +kernel, Block.not_mem_declarations writable⟩, by decide +kernel⟩
  have ordinary := Block.head?_selectors writable
  rw [← lead] at ordinary
  rw [shape, readRules_braces unopened unclosed ordinary, lead,
    Declaration.parseBlock_write writable.declarations, Block.rulesOf_selectors writable]

theorem readRules_of_blank {gap : Text} (blank : gap.isBlank = true) : readRules gap = [] := by
  rw [readRules]
  split
  · rfl
  · rename_i before inside found
    have absent : Byte.openBrace ∉ gap := Text.not_mem_of_blank (by decide) blank
    rw [Text.splitAtByte?_eq_none.mpr absent] at found
    cases found

/-- The rules of a written sheet are those of its blocks, in order. -/
theorem readRules_writeSheet {between : Text} (blankBetween : between.isBlank = true)
    {blocks : List Block} (writable : ∀ block ∈ blocks, block.Writable) {gap : Text}
    (blank : gap.isBlank = true) :
    readRules (gap ++ writeSheet between blocks) = (blocks.flatMap Block.rules).map Sum.inl := by
  induction blocks generalizing gap with
  | nil =>
      rw [writeSheet, List.map_nil, Text.join, List.append_nil, readRules_of_blank blank]
      rfl
  | cons block rest ih =>
      have first := writable block List.mem_cons_self
      cases rest with
      | nil =>
          have only := readRules_block first blank []
          have nothing : readRules [] = [] := readRules_of_blank rfl
          rw [nothing, List.append_nil, List.append_nil] at only
          rw [writeSheet, List.map_singleton, Text.join, only, List.flatMap_singleton]
      | cons next others =>
          have remaining := ih (fun other listed => writable other (List.mem_cons_of_mem _ listed))
            blankBetween
          have shape : gap ++ writeSheet between (block :: next :: others) =
              gap ++ block.write ++ (between ++ writeSheet between (next :: others)) := by
            simp only [writeSheet, List.map_cons, Text.join, List.append_assoc]
          rw [shape, readRules_block first blank, remaining, ← List.map_append]
          rfl

theorem uncommented_writeSheet {between : Text} (blankBetween : between.isBlank = true)
    {blocks : List Block} (writable : ∀ block ∈ blocks, block.Writable) :
    Uncommented (writeSheet between blocks) := by
  have guarded : ∀ text ∈ blocks.map Block.write, Guarded text := by
    intro text written
    obtain ⟨block, listed, rfl⟩ := List.mem_map.mp written
    exact Block.guarded_write (writable block listed)
  have plain : Guarded between := .of_plain (Text.not_mem_of_blank (by decide) blankBetween)
  exact uncommented_join (fun text written => (guarded text written).uncommented)
    (fun text written => (guarded text written).append plain)

theorem parse_of_uncommented {text : Text} (uncommented : Uncommented text) {rules : List Rule}
    (read : readRules text = rules.map Sum.inl) : parse text = (⟨rules⟩, []) := by
  have left : (rules.map Sum.inl : List (Rule ⊕ Warning)).filterMap Sum.getLeft? = rules := by
    rw [List.filterMap_map]
    exact List.filterMap_some
  have right : (rules.map Sum.inl : List (Rule ⊕ Warning)).filterMap Sum.getRight? = [] := by
    simp [List.filterMap_map]
  rw [parse, stripComments_of_uncommented uncommented, read, left, right]

/-- A written sheet is read without a warning, and as one rule for each selector: with the selector
and its weight, and with the declarations of the block. -/
theorem parse_writeSheet {between : Text} (blankBetween : between.isBlank = true)
    {blocks : List Block} (writable : ∀ block ∈ blocks, block.Writable) :
    (parse (writeSheet between blocks)).2 = [] ∧
    (parse (writeSheet between blocks)).1.rules.map (fun rule =>
      (rule.source, some rule.selector, rule.declarations, rule.selector.specificity)) =
    blocks.flatMap fun block => block.selectors.map fun source =>
      (source, Selector.parse? source, block.declarations, Selector.specificityOf source) := by
  have read : readRules (writeSheet between blocks) = (blocks.flatMap Block.rules).map Sum.inl :=
    readRules_writeSheet blankBetween writable (show Text.isBlank [] = true from rfl)
  rw [parse_of_uncommented (uncommented_writeSheet blankBetween writable) read]
  refine ⟨rfl, ?_⟩
  rw [List.map_flatMap]
  exact List.flatMap_congr fun block listed => Block.map_rules (writable block listed)

def panels : List Block :=
  [⟨["ul.list > li", "#top [data-kind=\"a b\"]"],
    [⟨"background", "url(data:a/b;c,d) 0 / 50%, linear-gradient(red, rgb(1, 2, 3))", true⟩,
      ⟨"font", "12px/1.5 serif", false⟩]⟩,
    ⟨["p"], []⟩,
    ⟨["*"], [⟨"content", "", true⟩, ⟨"quotes", "'!' none", false⟩]⟩]

/-- Four rules come back from three blocks. -/
theorem parse_writeSheet_panels :
    (∀ block ∈ panels, block.Writable) ∧
    (parse (writeSheet "\n" panels)).2 = [] ∧
    (parse (writeSheet "\n" panels)).1.rules.map (fun rule =>
      (rule.source, some rule.selector, rule.declarations, rule.selector.specificity)) =
    panels.flatMap fun block => block.selectors.map fun source =>
      (source, Selector.parse? source, block.declarations, Selector.specificityOf source) := by
  have writable : ∀ block ∈ panels, block.Writable := by decide +kernel
  have blank : Text.isBlank "\n" = true := by decide +kernel
  exact ⟨writable, parse_writeSheet blank writable⟩

end Stylesheet

end SlidePress.Css
