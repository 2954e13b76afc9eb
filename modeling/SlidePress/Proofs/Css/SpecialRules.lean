import SlidePress.Proofs.Css.Joined

/-! Special rules at the start of a sheet. A special rule begins with an at sign and is a block, or
a statement that ends in a semicolon. A block is skipped as a whole, and what follows is read as if
it had not been there. Reading knows no statements: it goes on to the next brace, takes all before
it for the lead text of a special block, and skips the next block of the sheet with it. -/

namespace SlidePress.Css

open Stylesheet

/-! ## Special rules -/

/-- An at sign, a lead text, and a block whose first brace is closed by its last byte. -/
inductive SpecialBlock : Text → Prop where
  | mk {lead content : Text} (unopened : Byte.openBrace ∉ lead) (unclosed : Byte.closeBrace ∉ lead)
      (undivided : ';'.toUInt8 ∉ lead) (closes : Closes 1 content)
      (uncommented : Uncommented ('@'.toUInt8 :: lead ++ Byte.openBrace :: content)) :
      SpecialBlock ('@'.toUInt8 :: lead ++ Byte.openBrace :: content)

inductive SpecialStatement : Text → Prop where
  | mk {body : Text} (unopened : Byte.openBrace ∉ body) (unclosed : Byte.closeBrace ∉ body)
      (undivided : ';'.toUInt8 ∉ body)
      (uncommented : Uncommented ('@'.toUInt8 :: body ++ [';'.toUInt8])) :
      SpecialStatement ('@'.toUInt8 :: body ++ [';'.toUInt8])

theorem Closes.ends {depth : Nat} {content : Text} (closes : Closes depth content) :
    ∃ start, content = start ++ [Byte.closeBrace] := by
  induction closes with
  | last => exact ⟨[], rfl⟩
  | close more ih =>
      obtain ⟨start, rfl⟩ := ih
      exact ⟨Byte.closeBrace :: start, rfl⟩
  | opening more ih =>
      obtain ⟨start, rfl⟩ := ih
      exact ⟨Byte.openBrace :: start, rfl⟩
  | byte unopened unclosed more ih =>
      obtain ⟨start, rfl⟩ := ih
      exact ⟨_ :: start, rfl⟩

/-- A block without braces inside ends at the first closing brace. -/
theorem closes_of_plain {content : Text} (unopened : Byte.openBrace ∉ content)
    (unclosed : Byte.closeBrace ∉ content) : Closes 1 (content ++ [Byte.closeBrace]) := by
  induction content with
  | nil => exact .last
  | cons byte rest ih =>
      rw [List.mem_cons, not_or] at unopened unclosed
      exact .byte (Ne.symm unopened.1) (Ne.symm unclosed.1) (ih unopened.2 unclosed.2)

/-- No comment begins at the end of a text whose last byte takes no part in one. -/
theorem Uncommented.stripComments_append {start : Text} {mark : UInt8}
    (uncommented : Uncommented (start ++ [mark])) (noSlash : mark ≠ '/'.toUInt8)
    (noStar : mark ≠ '*'.toUInt8) (css : Text) :
    stripComments (start ++ [mark] ++ css) = start ++ [mark] ++ stripComments css := by
  have apart : (mark :: css).head? ≠ some '*'.toUInt8 := fun same => noStar (Option.some.inj same)
  have beginning : Uncommented start := List.IsChain.left_of_append uncommented
  rw [List.append_assoc, List.append_assoc]
  refine (beginning.uncomments.stripComments_append apart).trans (congrArg (start ++ ·) ?_)
  exact stripComments_byte fun begins => noSlash begins.1

theorem head?_trim_special (text : Text) :
    (Text.trim ('@'.toUInt8 :: text)).head? = some '@'.toUInt8 :=
  congrArg List.head? (Text.trim_append_cons (by decide) [] text)

/-! ## What is read behind them -/

/-- A special block does not change the rules of what follows. -/
theorem SpecialBlock.rulesIn_append {special : Text} (block : SpecialBlock special) (css : Text) :
    rulesIn (special ++ css) = rulesIn css := by
  obtain ⟨unopened, -, -, closes, uncommented⟩ := block
  rename_i lead content
  have absent : Byte.openBrace ∉ '@'.toUInt8 :: lead :=
    List.not_mem_cons_of_ne_of_not_mem (by decide) unopened
  obtain ⟨start, rfl⟩ := closes.ends
  have stripped : ∀ css, stripComments
      ('@'.toUInt8 :: lead ++ Byte.openBrace :: (start ++ [Byte.closeBrace]) ++ css) =
        '@'.toUInt8 :: lead ++
          Byte.openBrace :: (start ++ [Byte.closeBrace] ++ stripComments css) := by
    intro css
    have shape : '@'.toUInt8 :: lead ++ Byte.openBrace :: (start ++ [Byte.closeBrace]) =
        ('@'.toUInt8 :: lead ++ Byte.openBrace :: start) ++ [Byte.closeBrace] := by simp
    rw [shape] at uncommented ⊢
    rw [uncommented.stripComments_append (by decide) (by decide)]
    simp
  rw [rulesIn_eq, rulesIn_eq, stripped, readRules_special absent (head?_trim_special lead),
    taken_skipped, afterBlock_of_closes closes]

/-- What follows the first block of a sheet without comments, with the blocks inside of it. -/
def behindFirstBlock (css : Text) : Text :=
  match Text.splitAtByte? Byte.openBrace css with
  | none => []
  | some (_, inside) => afterBlock 1 inside

theorem behindFirstBlock_eq {before : Text} (unopened : Byte.openBrace ∉ before) (inside : Text) :
    behindFirstBlock (before ++ Byte.openBrace :: inside) = afterBlock 1 inside := by
  rw [behindFirstBlock, Text.splitAtByte?_append unopened]

theorem behindFirstBlock_of_unopened {css : Text} (unopened : Byte.openBrace ∉ css) :
    behindFirstBlock css = [] := by
  rw [behindFirstBlock, Text.splitAtByte?_eq_none.mpr unopened]

/-- Rules are read behind the first block, whatever stands before it and begins with an at sign. -/
theorem readRules_statement {statement : Text} (unopened : Byte.openBrace ∉ statement)
    (marked : ∀ rest, (Text.trim (statement ++ rest)).head? = some '@'.toUInt8) (css : Text) :
    taken (readRules (statement ++ css)) = taken (readRules (behindFirstBlock css)) := by
  have absent : ∀ {before : Text}, Byte.openBrace ∉ before →
      Byte.openBrace ∉ statement ++ before := by
    intro before unopenedToo
    rw [List.mem_append, not_or]
    exact ⟨unopened, unopenedToo⟩
  cases found : Text.splitAtByte? Byte.openBrace css with
  | none =>
      have missing := Text.splitAtByte?_eq_none.mp found
      rw [behindFirstBlock_of_unopened missing, readRules_of_unopened (absent missing),
        readRules_of_blank rfl]
  | some parts =>
      obtain ⟨before, inside⟩ := parts
      obtain ⟨rfl, unopenedToo⟩ := Text.splitAtByte?_eq_some found
      rw [behindFirstBlock_eq unopenedToo, ← List.append_assoc,
        readRules_special (absent unopenedToo) (marked before), taken_skipped]

/-- A special statement takes the first block of the sheet with it. -/
theorem SpecialStatement.rulesIn_append {special : Text} (statement : SpecialStatement special)
    (css : Text) :
    rulesIn (special ++ css) = taken (readRules (behindFirstBlock (stripComments css))) := by
  obtain ⟨unopened, -, -, uncommented⟩ := statement
  rename_i body
  rw [rulesIn_eq, uncommented.stripComments_append (by decide) (by decide)]
  apply readRules_statement
  · simpa using ⟨by decide, unopened, by decide⟩
  · intro rest
    exact head?_trim_special (body ++ [';'.toUInt8] ++ rest)

/-- The first block of a sheet without comments is an ordinary one. -/
def BeginsOrdinary (css : Text) : Prop :=
  ∃ before inside, css = before ++ Byte.openBrace :: inside ∧ Byte.openBrace ∉ before ∧
    (Text.trim before).head? ≠ some '@'.toUInt8

/-- A special first block gives no rules anyway. -/
theorem taken_behindFirstBlock {css : Text} (special : ¬ BeginsOrdinary css) :
    taken (readRules (behindFirstBlock css)) = taken (readRules css) := by
  cases found : Text.splitAtByte? Byte.openBrace css with
  | none =>
      have missing := Text.splitAtByte?_eq_none.mp found
      rw [behindFirstBlock_of_unopened missing, readRules_of_unopened missing,
        readRules_of_blank rfl]
  | some parts =>
      obtain ⟨before, inside⟩ := parts
      obtain ⟨rfl, unopened⟩ := Text.splitAtByte?_eq_some found
      have marked : (Text.trim before).head? = some '@'.toUInt8 := by
        by_contra ordinary
        exact special ⟨before, inside, rfl, unopened, ordinary⟩
      rw [behindFirstBlock_eq unopened, readRules_special unopened marked, taken_skipped]

structure BeginsFlat (css before content rest : Text) : Prop where
  whole : css = before ++ Byte.openBrace :: (content ++ Byte.closeBrace :: rest)
  unopened : Byte.openBrace ∉ before
  ordinary : (Text.trim before).head? ≠ some '@'.toUInt8
  flat : Byte.openBrace ∉ content
  unclosed : Byte.closeBrace ∉ content

/-- Such a block gives its rules, and then come those behind it. -/
theorem BeginsFlat.taken_readRules {css before content rest : Text}
    (begins : BeginsFlat css before content rest) :
    taken (readRules css) =
      taken (rulesOf (Text.trim before) (Declaration.parseBlock content)) ++
        taken (readRules (behindFirstBlock css)) := by
  have behind := afterBlock_of_closes (closes_of_plain begins.flat begins.unclosed) rest
  rw [List.append_assoc, List.singleton_append] at behind
  rw [begins.whole, behindFirstBlock_eq begins.unopened, behind,
    readRules_braces begins.unopened begins.unclosed begins.ordinary, taken_append]

/-- A special block at its start leaves the rules of a sheet alone. A special statement loses the
first block: nothing else of the sheet, and that only matters if the block is an ordinary one. -/
theorem rules_behind_special (css : Text) :
    (∀ special, SpecialBlock special → rulesIn (special ++ css) = rulesIn css) ∧
    ∀ special, SpecialStatement special →
      rulesIn (special ++ css) = taken (readRules (behindFirstBlock (stripComments css))) ∧
      (¬ BeginsOrdinary (stripComments css) → rulesIn (special ++ css) = rulesIn css) ∧
      ∀ before content rest, BeginsFlat (stripComments css) before content rest →
        rulesIn css = taken (rulesOf (Text.trim before) (Declaration.parseBlock content)) ++
          rulesIn (special ++ css) := by
  refine ⟨fun special block => block.rulesIn_append css, fun special statement => ?_⟩
  have behind := statement.rulesIn_append css
  refine ⟨behind, fun notOrdinary => ?_, fun before content rest begins => ?_⟩
  · rw [behind, taken_behindFirstBlock notOrdinary, rulesIn_eq]
  · rw [behind, rulesIn_eq, begins.taken_readRules]

def mediaBlock : Text := "@media print\x7bp\x7b\x7d\x7d"

def importStatement : Text := "@import url(a.css);"

def paragraphSheet : Text := "p\x7bcolor:red\x7d"

theorem specialStatement_import : SpecialStatement importStatement := by
  have uncommented : Uncommented ('@'.toUInt8 :: "import url(a.css)" ++ [';'.toUInt8]) := by
    decide +kernel
  exact .mk (by decide +kernel) (by decide +kernel) (by decide +kernel) uncommented

/-- Behind a block the rule for paragraphs is there, and behind a statement it is missing. -/
theorem rules_behind_special_paragraph :
    SpecialBlock mediaBlock ∧ SpecialStatement importStatement ∧
    BeginsFlat (stripComments paragraphSheet) "p" "color:red" [] ∧
    rulesIn (mediaBlock ++ paragraphSheet) = rulesIn paragraphSheet ∧
    rulesIn paragraphSheet =
      taken (rulesOf "p" [⟨"color", "red", false⟩]) ++
        rulesIn (importStatement ++ paragraphSheet) := by
  have block : SpecialBlock mediaBlock := by
    have closes : Closes 1 ('p'.toUInt8 :: Byte.openBrace :: [Byte.closeBrace, Byte.closeBrace]) :=
      .byte (by decide) (by decide) (.opening (.close .last))
    have uncommented : Uncommented ('@'.toUInt8 :: "media print" ++ Byte.openBrace ::
        'p'.toUInt8 :: Byte.openBrace :: [Byte.closeBrace, Byte.closeBrace]) := by decide +kernel
    exact .mk (by decide +kernel) (by decide +kernel) (by decide +kernel) closes uncommented
  have begins : BeginsFlat (stripComments paragraphSheet) "p" "color:red" [] :=
    ⟨by decide +kernel, by decide +kernel, by decide +kernel, by decide +kernel, by decide +kernel⟩
  obtain ⟨behindBlock, behindStatement⟩ := rules_behind_special paragraphSheet
  obtain ⟨-, -, lost⟩ := behindStatement importStatement specialStatement_import
  have parts := lost _ _ _ begins
  rw [show Text.trim "p" = "p" by decide +kernel,
    show Declaration.parseBlock "color:red" = [⟨"color", "red", false⟩] by decide +kernel] at parts
  exact ⟨block, specialStatement_import, begins, behindBlock mediaBlock block, parts⟩

/-- A special statement changes the rules of the sheet behind it. -/
theorem not_rules_behind_statement :
    ¬ ∀ special css : Text, SpecialStatement special → rulesIn (special ++ css) = rulesIn css := by
  intro unchanged
  have same := congrArg List.length
    (unchanged importStatement paragraphSheet specialStatement_import)
  revert same
  decide +kernel

end SlidePress.Css
