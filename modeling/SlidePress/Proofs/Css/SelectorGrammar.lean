import SlidePress.Css.Selector
import SlidePress.Proofs.Text.Entries
import SlidePress.Proofs.Text.Marks

/-! The grammar of selectors. A compound is a tag or an asterisk, if any, followed by identifiers,
classes and attribute tests; compounds are joined by white space and by marks of the child
combinator. A text is read as a selector exactly when it spells one in this grammar, and then as the
one it spells. Between two compounds any number of marks is taken for one. -/

namespace SlidePress.Css

/-! ## The grammar -/

structure IsName (name : Text) : Prop where
  some : name ≠ []
  bytes : ∀ byte ∈ name, isIdentifierByte byte = true

inductive Part where
  | identifier (name : Text)
  | className (name : Text)
  | test (test : AttributeTest)

inductive Part.Reads : Text → Part → Prop where
  | identifier {name : Text} (isName : IsName name) :
      Part.Reads ('#'.toUInt8 :: name) (.identifier name)
  | className {name : Text} (isName : IsName name) :
      Part.Reads ('.'.toUInt8 :: name) (.className name)
  | test {body : Text} {test : AttributeTest} (unclosed : ']'.toUInt8 ∉ body)
      (accepted : AttributeTest.parse? body = some test) :
      Part.Reads ('['.toUInt8 :: body ++ [']'.toUInt8]) (.test test)

inductive ReadsParts : Text → List Part → Prop where
  | nil : ReadsParts [] []
  | cons {text rest : Text} {part : Part} {parts : List Part} (first : part.Reads text)
      (more : ReadsParts rest parts) : ReadsParts (text ++ rest) (part :: parts)

/-- What stands before the parts of a compound, with the tag that it asks for. -/
inductive ReadsTag : Text → Option Text → Prop where
  | nothing : ReadsTag [] none
  | asterisk : ReadsTag ['*'.toUInt8] none
  | tag {name : Text} (isName : IsName name) : ReadsTag name (some (Text.lower name))

def Compound.add (compound : Compound) : Part → Compound
  | .identifier name => { compound with ids := compound.ids ++ [name] }
  | .className name => { compound with classes := compound.classes ++ [name] }
  | .test test => { compound with attributes := compound.attributes ++ [test] }

inductive Compound.Reads : Text → Compound → Prop where
  | mk {start rest : Text} {tag : Option Text} {parts : List Part} (begins : ReadsTag start tag)
      (more : ReadsParts rest parts) (some : start ++ rest ≠ []) :
      Compound.Reads (start ++ rest) (parts.foldl Compound.add { tag })

def isSeparatorByte (byte : UInt8) : Bool := Byte.isSpace byte || byte == '>'.toUInt8

structure IsSeparator (between : Text) : Prop where
  some : between ≠ []
  bytes : ∀ byte ∈ between, isSeparatorByte byte = true

def combinatorOf (between : Text) : Combinator :=
  if between.contains '>'.toUInt8 then .child else .descendant

namespace Selector

/-- Compounds from the outside in: the first one, and the others with what stands before each. -/
inductive Reads : Text → Compound → List (Text × Compound) → Prop where
  | last {text : Text} {compound : Compound} (only : compound.Reads text) : Reads text compound []
  | join {text between rest : Text} {first next : Compound} {others : List (Text × Compound)}
      (begins : first.Reads text) (separates : IsSeparator between)
      (more : Reads rest next others) :
      Reads (text ++ between ++ rest) first ((between, next) :: others)

/-- The compounds of a selector from the outside in, as they are written. -/
def written (selector : Selector) : List Compound := selector.compounds.reverse

def combinators (selector : Selector) : List Combinator := (selector.context.map (·.1)).reverse

theorem length_written (selector : Selector) :
    selector.written.length = selector.combinators.length + 1 := by
  simp [written, compounds, combinators]

end Selector

/-! ## Compounds -/

theorem isIdentifierByte_of_separator {byte : UInt8} (separates : isSeparatorByte byte = true) :
    isIdentifierByte byte = false := by
  simp only [isSeparatorByte, Byte.isSpace, Bool.or_eq_true, Bool.and_eq_true, decide_eq_true_eq,
    beq_iff_eq, ← UInt8.toNat_inj, UInt8.le_iff_toNat_le] at separates
  simp only [isIdentifierByte, Byte.isAlphanumeric, Byte.isLetter, Byte.isUpper, Byte.isLower,
    Byte.isDigit, Bool.or_eq_false_iff, Bool.and_eq_false_iff, decide_eq_false_iff_not,
    beq_eq_false_iff_ne, ne_eq, ← UInt8.toNat_inj, UInt8.le_iff_toNat_le]
  change (byte.toNat = 32 ∨ 9 ≤ byte.toNat ∧ byte.toNat ≤ 13) ∨ byte.toNat = 62 at separates
  change ((((¬ 65 ≤ byte.toNat ∨ ¬ byte.toNat ≤ 90) ∧ (¬ 97 ≤ byte.toNat ∨ ¬ byte.toNat ≤ 122)) ∧
    (¬ 48 ≤ byte.toNat ∨ ¬ byte.toNat ≤ 57)) ∧ ¬ byte.toNat = 45) ∧ ¬ byte.toNat = 95
  omega

/-- A part begins with a mark, so that a name before it ends there. -/
theorem ReadsParts.stop {text : Text} {parts : List Part} (reads : ReadsParts text parts) :
    ∀ byte, text.head? = some byte → byte ≠ '*'.toUInt8 ∧ isIdentifierByte byte = false := by
  intro byte isFirst
  cases reads with
  | nil => cases isFirst
  | cons first more => cases first <;> cases isFirst <;> decide

def namedPart (mark : UInt8) (name : Text) : Part :=
  if mark == '#'.toUInt8 then .identifier name else .className name

theorem reads_namedPart {mark : UInt8}
    (isMark : (mark == '#'.toUInt8 || mark == '.'.toUInt8) = true) {name : Text}
    (isName : IsName name) : (namedPart mark name).Reads (mark :: name) := by
  rw [Bool.or_eq_true, beq_iff_eq, beq_iff_eq] at isMark
  rcases isMark with rfl | rfl
  · exact .identifier isName
  · exact .className isName

namespace Compound

theorem parseParts?_mark {mark : UInt8}
    (isMark : (mark == '#'.toUInt8 || mark == '.'.toUInt8) = true) (found : Compound)
    (rest : Text) :
    parseParts? found (mark :: rest) =
      if (rest.takeWhile isIdentifierByte).isEmpty then none
      else parseParts? (found.add (namedPart mark (rest.takeWhile isIdentifierByte)))
        (rest.dropWhile isIdentifierByte) := by
  rw [parseParts?, if_pos isMark, namedPart]
  dsimp only
  split
  · rfl
  · split <;> rfl

theorem parseParts?_name {mark : UInt8}
    (isMark : (mark == '#'.toUInt8 || mark == '.'.toUInt8) = true) {name rest : Text}
    {parts : List Part} (isName : IsName name) (more : ReadsParts rest parts) (found : Compound) :
    parseParts? found (mark :: name ++ rest) =
      parseParts? (found.add (namedPart mark name)) rest := by
  have stop : ∀ byte, rest.head? = some byte → isIdentifierByte byte = false :=
    fun byte isFirst => (more.stop byte isFirst).2
  have some : ¬ name.isEmpty = true := by simpa using isName.some
  rw [List.cons_append, parseParts?_mark isMark, Text.takeWhile_append_stop isName.bytes stop,
    Text.dropWhile_append_stop isName.bytes stop, if_neg some]

theorem parseParts?_bracket (found : Compound) (rest : Text) :
    parseParts? found ('['.toUInt8 :: rest) =
      (Text.splitAtByte? ']'.toUInt8 rest).bind fun parts =>
        (AttributeTest.parse? parts.1).bind fun test =>
          parseParts? (found.add (.test test)) parts.2 := by
  rw [parseParts?, if_neg (by decide), if_pos (by decide)]
  split
  · rename_i missing
    rw [missing]
    rfl
  · rename_i closed
    rw [closed, Option.bind_some]
    split
    · rename_i refused
      rw [refused]
      rfl
    · rename_i accepted
      rw [accepted]
      rfl

theorem parseParts?_test {body rest : Text} {test : AttributeTest} (unclosed : ']'.toUInt8 ∉ body)
    (accepted : AttributeTest.parse? body = some test) (found : Compound) :
    parseParts? found ('['.toUInt8 :: body ++ [']'.toUInt8] ++ rest) =
      parseParts? (found.add (.test test)) rest := by
  rw [List.cons_append, List.cons_append, List.append_assoc, List.singleton_append,
    parseParts?_bracket, Text.splitAtByte?_append unclosed rest, Option.bind_some, accepted,
    Option.bind_some]

theorem parseParts?_of_reads {text : Text} {parts : List Part} (reads : ReadsParts text parts)
    (found : Compound) : parseParts? found text = some (parts.foldl add found) := by
  induction reads generalizing found with
  | nil => rw [parseParts?, List.foldl_nil]
  | cons first more ih =>
      rw [List.foldl_cons, ← ih]
      cases first with
      | identifier isName => exact parseParts?_name (by decide) isName more found
      | className isName => exact parseParts?_name (by decide) isName more found
      | test unclosed accepted => exact parseParts?_test unclosed accepted found

theorem reads_of_parseParts? {text : Text} {found compound : Compound}
    (read : parseParts? found text = some compound) :
    ∃ parts, ReadsParts text parts ∧ compound = parts.foldl add found := by
  induction found, text using parseParts?.induct with
  | case1 found =>
      rw [parseParts?] at read
      exact ⟨[], .nil, (Option.some.inj read).symm⟩
  | case2 found mark rest isMark name empty =>
      rw [parseParts?_mark isMark, if_pos empty] at read
      cases read
  | case3 found mark rest isMark name some next ih =>
      rw [parseParts?_mark isMark, if_neg some] at read
      have same : next = found.add (namedPart mark name) := by
        simp only [next, namedPart]
        split <;> rfl
      rw [same] at ih
      obtain ⟨parts, reads, rfl⟩ := ih read
      have isName : IsName name :=
        ⟨by simpa using some, List.all_eq_true.mp List.all_takeWhile⟩
      refine ⟨namedPart mark name :: parts, ?_, rfl⟩
      have whole := ReadsParts.cons (reads_namedPart isMark isName) reads
      rwa [List.cons_append, List.takeWhile_append_dropWhile] at whole
  | case4 found mark rest other isBracket missing =>
      rw [beq_iff_eq.mp isBracket, parseParts?_bracket, missing] at read
      cases read
  | case5 found mark rest other isBracket body more closed refused =>
      rw [beq_iff_eq.mp isBracket, parseParts?_bracket, closed, Option.bind_some, refused] at read
      cases read
  | case6 found mark rest other isBracket body more closed test accepted ih =>
      rw [beq_iff_eq.mp isBracket, parseParts?_bracket, closed, Option.bind_some, accepted] at read
      obtain ⟨parts, reads, rfl⟩ := ih read
      obtain ⟨rfl, unclosed⟩ := Text.splitAtByte?_eq_some closed
      refine ⟨.test test :: parts, ?_, rfl⟩
      have whole := ReadsParts.cons (.test unclosed accepted) reads
      rw [List.cons_append, List.cons_append, List.append_assoc, List.singleton_append] at whole
      rw [beq_iff_eq.mp isBracket]
      exact whole
  | case7 found mark rest other noBracket =>
      rw [parseParts?, if_neg other, if_neg noBracket] at read
      cases read

/-- A text that is not empty is read as a compound exactly when it spells one. -/
theorem parse?_eq_some_iff {text : Text} (some : text ≠ []) {compound : Compound} :
    parse? text = .some compound ↔ compound.Reads text := by
  constructor
  · intro read
    cases text with
    | nil => exact absurd rfl some
    | cons first rest =>
        rw [parse?] at read
        split at read
        · rename_i isAsterisk
          obtain ⟨parts, reads, rfl⟩ := reads_of_parseParts? read
          rw [beq_iff_eq.mp isAsterisk] at some ⊢
          exact .mk .asterisk reads some
        · split at read
          · rename_i isFirst
            obtain ⟨parts, reads, rfl⟩ := reads_of_parseParts? read
            have isName : IsName ((first :: rest).takeWhile isIdentifierByte) := by
              refine ⟨?_, List.all_eq_true.mp List.all_takeWhile⟩
              rw [List.takeWhile_cons_of_pos isFirst]
              exact List.cons_ne_nil _ _
            have whole := Reads.mk (.tag isName) reads (by simp)
            rwa [List.takeWhile_append_dropWhile] at whole
          · obtain ⟨parts, reads, rfl⟩ := reads_of_parseParts? read
            exact .mk .nothing reads some
  · rintro ⟨begins, more, -⟩
    rename_i start rest tag parts
    cases begins with
    | nothing =>
        obtain ⟨first, others, rfl⟩ := List.exists_cons_of_ne_nil some
        obtain ⟨notAsterisk, noName⟩ := more.stop first rfl
        rw [List.nil_append, parse?, if_neg (by simpa using notAsterisk),
          if_neg (by simpa using noName)]
        exact parseParts?_of_reads more _
    | asterisk => exact parseParts?_of_reads more _
    | tag isName =>
        have stop : ∀ byte, rest.head? = .some byte → isIdentifierByte byte = false :=
          fun byte isFirst => (more.stop byte isFirst).2
        have taken := Text.takeWhile_append_stop isName.bytes stop
        have left := Text.dropWhile_append_stop isName.bytes stop
        obtain ⟨first, others, rfl⟩ := List.exists_cons_of_ne_nil isName.some
        have isFirst := isName.bytes first List.mem_cons_self
        have notAsterisk : first ≠ '*'.toUInt8 := by
          rintro rfl
          exact absurd isFirst (by decide)
        rw [List.cons_append] at taken left ⊢
        rw [parse?, if_neg (by simpa using notAsterisk), if_pos isFirst, taken, left]
        exact parseParts?_of_reads more _

end Compound

/-! ## Where compounds end -/

/-- Whether brackets are open behind a text, if all of it belongs to one compound. -/
def bracketsAfter? : Bool → Text → Option Bool
  | inBrackets, [] => some inBrackets
  | true, byte :: rest => bracketsAfter? (byte != ']'.toUInt8) rest
  | false, byte :: rest =>
      if isSeparatorByte byte || byte == '+'.toUInt8 || byte == '~'.toUInt8 then none
      else bracketsAfter? (byte == '['.toUInt8) rest

theorem bracketsAfter?_append (inBrackets : Bool) (first second : Text) :
    bracketsAfter? inBrackets (first ++ second) =
      (bracketsAfter? inBrackets first).bind (bracketsAfter? · second) := by
  induction first generalizing inBrackets with
  | nil => rfl
  | cons byte rest ih =>
      cases inBrackets with
      | true => exact ih _
      | false =>
          rw [List.cons_append, bracketsAfter?, bracketsAfter?]
          split
          · rfl
          · exact ih _

/-- The text belongs to one compound, and closes the brackets it opens. -/
def Enclosed (text : Text) : Prop := bracketsAfter? false text = some false

theorem Enclosed.append {first second : Text} (enclosed : Enclosed first)
    (enclosedToo : Enclosed second) : Enclosed (first ++ second) := by
  rw [Enclosed, bracketsAfter?_append, show bracketsAfter? false first = some false from enclosed]
  exact enclosedToo

theorem bracketsAfter?_byte {byte : UInt8} (inside : isIdentifierByte byte = true) (rest : Text) :
    bracketsAfter? false (byte :: rest) = bracketsAfter? false rest := by
  have other : ∀ {mark : UInt8}, isIdentifierByte mark = false → (byte == mark) = false := by
    intro mark outside
    rw [beq_eq_false_iff_ne]
    rintro rfl
    exact Bool.false_ne_true (outside.symm.trans inside)
  have noSeparator : isSeparatorByte byte = false := by
    rw [← Bool.not_eq_true]
    intro separates
    exact Bool.false_ne_true ((isIdentifierByte_of_separator separates).symm.trans inside)
  rw [bracketsAfter?, noSeparator, other (by decide), other (by decide), other (by decide)]
  rfl

theorem IsName.enclosed {name : Text} (isName : IsName name) : Enclosed name := by
  have bytes := isName.bytes
  clear isName
  induction name with
  | nil => rfl
  | cons byte rest ih =>
      rw [Enclosed, bracketsAfter?_byte (bytes byte List.mem_cons_self)]
      exact ih fun other member => bytes other (List.mem_cons_of_mem _ member)

/-- Everything up to the closing bracket is in brackets. -/
theorem bracketsAfter?_body {body : Text} (unclosed : ']'.toUInt8 ∉ body) :
    bracketsAfter? true body = some true := by
  induction body with
  | nil => rfl
  | cons byte rest ih =>
      rw [List.mem_cons, not_or] at unclosed
      rw [bracketsAfter?, bne_iff_ne.mpr (Ne.symm unclosed.1)]
      exact ih unclosed.2

theorem Part.Reads.enclosed {text : Text} {part : Part} (reads : part.Reads text) :
    Enclosed text := by
  cases reads with
  | identifier isName => exact isName.enclosed
  | className isName => exact isName.enclosed
  | test unclosed accepted =>
      change bracketsAfter? true (_ ++ [']'.toUInt8]) = some false
      rw [bracketsAfter?_append, bracketsAfter?_body unclosed]
      rfl

theorem ReadsParts.enclosed {text : Text} {parts : List Part} (reads : ReadsParts text parts) :
    Enclosed text := by
  induction reads with
  | nil => rfl
  | cons first more ih => exact first.enclosed.append ih

theorem Compound.Reads.enclosed {text : Text} {compound : Compound} (reads : compound.Reads text) :
    Enclosed text := by
  obtain ⟨begins, more, -⟩ := reads
  apply Enclosed.append _ more.enclosed
  cases begins with
  | nothing => rfl
  | asterisk => rfl
  | tag isName => exact isName.enclosed

theorem Compound.Reads.some {text : Text} {compound : Compound} (reads : compound.Reads text) :
    text ≠ [] := by
  obtain ⟨-, -, some⟩ := reads
  exact some

theorem Enclosed.begins {text : Text} (enclosed : Enclosed text) :
    ∀ byte, text.head? = some byte → isSeparatorByte byte = false := by
  intro byte isFirst
  obtain ⟨rest, rfl⟩ := List.head?_eq_some_iff.mp isFirst
  rw [Enclosed, bracketsAfter?] at enclosed
  split at enclosed
  · cases enclosed
  · rename_i inside
    rw [Bool.or_assoc, Bool.or_eq_true, not_or, Bool.not_eq_true] at inside
    exact inside.1

theorem Enclosed.ends {text : Text} (enclosed : Enclosed text) :
    ∀ byte, text.getLast? = some byte → isSeparatorByte byte = false := by
  intro byte isLast
  obtain ⟨start, rfl⟩ := List.getLast?_eq_some_iff.mp isLast
  rw [Enclosed, bracketsAfter?_append] at enclosed
  obtain ⟨inBrackets, -, left⟩ := Option.bind_eq_some_iff.mp enclosed
  cases inBrackets with
  | true =>
      rw [bracketsAfter?, bracketsAfter?, Option.some.injEq, bne_eq_false_iff_eq] at left
      rw [left]
      decide
  | false => exact Enclosed.begins left byte rfl

theorem Enclosed.trim {text : Text} (enclosed : Enclosed text) : Text.trim text = text := by
  have solid : ∀ {byte}, isSeparatorByte byte = false → Byte.isSpace byte = false :=
    fun {byte} inside => (Bool.or_eq_false_iff.mp inside).1
  exact Text.trim_of_ends (fun byte isFirst => solid (enclosed.begins byte isFirst))
    fun byte isLast => solid (enclosed.ends byte isLast)

/-- The text is over, or goes on with a separator outside of brackets. -/
def EndsCompound (inBrackets : Bool) (rest : Text) : Prop :=
  ∀ byte, rest.head? = some byte → inBrackets = false ∧ isSeparatorByte byte = true

namespace Selector

theorem piecesFrom?_append {inBrackets after : Bool} {text : Text}
    (within : bracketsAfter? inBrackets text = some after) (rest : Text) :
    piecesFrom? inBrackets (text ++ rest) =
      (piecesFrom? after rest).map fun found => (text ++ found.1, found.2) := by
  induction text generalizing inBrackets with
  | nil =>
      cases within
      exact Option.map_id'.symm
  | cons byte more ih =>
      cases inBrackets with
      | true =>
          rw [bracketsAfter?] at within
          rw [List.cons_append, piecesFrom?, if_pos rfl, ih within, Option.map_map]
          rfl
      | false =>
          rw [bracketsAfter?] at within
          split at within
          · cases within
          · rename_i inside
            rw [isSeparatorByte, Bool.or_assoc, Bool.or_assoc, Bool.or_eq_true, Bool.or_eq_true,
              not_or, not_or] at inside
            rw [List.cons_append, piecesFrom?, if_neg Bool.false_ne_true, if_neg inside.1,
              if_neg inside.2.1, if_neg inside.2.2, ih within, Option.map_map]
            rfl

/-- A text begins with a piece of one compound, and then it is over or separated. -/
theorem exists_piece {inBrackets : Bool} {text first : Text} {others : List Piece}
    (read : piecesFrom? inBrackets text = some (first, others)) :
    ∃ after rest, text = first ++ rest ∧ bracketsAfter? inBrackets first = some after ∧
      EndsCompound after rest := by
  induction text generalizing inBrackets first others with
  | nil =>
      cases read
      exact ⟨inBrackets, [], rfl, rfl, nofun⟩
  | cons byte more ih =>
      have separated : isSeparatorByte byte = true → EndsCompound false (byte :: more) := by
        rintro separates _ ⟨⟩
        exact ⟨rfl, separates⟩
      cases inBrackets with
      | true =>
          rw [piecesFrom?, if_pos rfl] at read
          obtain ⟨⟨inner, found⟩, later, same⟩ := Option.map_eq_some_iff.mp read
          cases same
          obtain ⟨after, rest, rfl, within, ends⟩ := ih later
          exact ⟨after, rest, rfl, within, ends⟩
      | false =>
          rw [piecesFrom?, if_neg Bool.false_ne_true] at read
          split at read
          · rename_i space
            obtain ⟨_, _, same⟩ := Option.map_eq_some_iff.mp read
            cases same
            exact ⟨false, byte :: more, rfl, rfl, separated (by rw [isSeparatorByte, space]; rfl)⟩
          · rename_i noSpace
            split at read
            · rename_i isMark
              obtain ⟨_, _, same⟩ := Option.map_eq_some_iff.mp read
              cases same
              refine ⟨false, byte :: more, rfl, rfl, separated ?_⟩
              rw [isSeparatorByte, isMark, Bool.or_true]
            · rename_i noMark
              split at read
              · cases read
              · rename_i noSibling
                obtain ⟨⟨inner, found⟩, later, same⟩ := Option.map_eq_some_iff.mp read
                cases same
                obtain ⟨after, rest, rfl, within, ends⟩ := ih later
                refine ⟨after, rest, rfl, ?_, ends⟩
                rw [bracketsAfter?, if_neg]
                · exact within
                · rw [isSeparatorByte, Bool.or_assoc, Bool.or_assoc, Bool.or_eq_true,
                    Bool.or_eq_true, not_or, not_or]
                  exact ⟨noSpace, noMark, noSibling⟩

/-! ## Reading piece by piece -/

/-- What is read of a text, after what was read before it and with whether a child mark is
pending. -/
def run (found : Option Selector) (pending : Bool) (text : Text) : Option Selector :=
  (pieces? text).bind (assemble? found pending)

/-- A compound inside what was read before it; there must be no mark before the first one. -/
def enter : Option Selector → Bool → Compound → Option Selector
  | none, true, _ => none
  | none, false, compound => some { subject := compound }
  | some outer, pending, compound =>
      let combinator := if pending then Combinator.child else .descendant
      some ⟨compound, (combinator, outer.subject) :: outer.context⟩

section Run

variable (found : Option Selector) (pending : Bool)

theorem run_nil : run found pending [] = if pending then none else found := by
  cases found <;> cases pending <;> rfl

theorem run_space {byte : UInt8} (space : Byte.isSpace byte = true) (rest : Text) :
    run found pending (byte :: rest) = run found pending rest := by
  rw [run, run, pieces?, piecesFrom?, if_neg Bool.false_ne_true, if_pos space, Option.map_map,
    pieces?]
  rfl

theorem run_mark (rest : Text) : run found pending ('>'.toUInt8 :: rest) = run found true rest := by
  rw [run, run, pieces?, piecesFrom?, if_neg Bool.false_ne_true, if_neg (by decide),
    if_pos (by decide), Option.map_map, pieces?, Option.bind_map, Option.bind_map]
  cases found <;> rfl

/-- A mark among separators is pending behind them. -/
theorem run_separators {between : Text} (bytes : ∀ byte ∈ between, isSeparatorByte byte = true)
    (rest : Text) :
    run found pending (between ++ rest) =
      run found (pending || between.contains '>'.toUInt8) rest := by
  induction between generalizing pending with
  | nil => rw [List.nil_append, List.contains_nil, Bool.or_false]
  | cons byte more ih =>
      have later := fun pending =>
        ih pending fun other member => bytes other (List.mem_cons_of_mem _ member)
      have separates := bytes byte List.mem_cons_self
      rw [isSeparatorByte, Bool.or_eq_true, beq_iff_eq] at separates
      rw [List.cons_append, List.contains_cons]
      by_cases isMark : byte = '>'.toUInt8
      · subst isMark
        rw [run_mark, later, Bool.true_or, beq_self_eq_true, Bool.true_or, Bool.or_true]
      · rw [run_space _ _ (separates.resolve_right isMark), later,
          beq_eq_false_iff_ne.mpr (Ne.symm isMark), Bool.false_or]

theorem assemble?_compound (text : Text) (others : List Piece) :
    assemble? found pending (.compound text :: others) =
      ((Compound.parse? text).bind (enter found pending)).bind fun next =>
        assemble? (some next) false others := by
  cases found <;> cases pending <;> rw [assemble?] <;> cases Compound.parse? text <;> rfl

theorem pieces?_compound {text rest : Text} {after : Bool} (solid : text ≠ [])
    (within : bracketsAfter? false text = some after) (ends : EndsCompound after rest) :
    pieces? (text ++ rest) = (pieces? rest).map (.compound text :: ·) := by
  -- What follows begins with no compound of its own.
  have apart : piecesFrom? after rest = (pieces? rest).map fun others => ([], others) := by
    cases rest with
    | nil => rfl
    | cons byte more =>
        obtain ⟨rfl, separates⟩ := ends byte rfl
        rw [isSeparatorByte, Bool.or_eq_true] at separates
        rw [pieces?, piecesFrom?, if_neg Bool.false_ne_true]
        split
        · rw [Option.map_map, Option.map_map]
          rfl
        · rename_i noSpace
          rw [if_pos (separates.resolve_left noSpace), Option.map_map, Option.map_map]
          rfl
  have single : ∀ others, withCompound text others = .compound text :: others :=
    fun others => if_neg (by simpa using solid)
  rw [pieces?, piecesFrom?_append within, apart, Option.map_map, Option.map_map]
  simp only [Function.comp_def, List.append_nil, single]

theorem run_compound {text rest : Text} {after : Bool} (solid : text ≠ [])
    (within : bracketsAfter? false text = some after) (ends : EndsCompound after rest) :
    run found pending (text ++ rest) =
      ((Compound.parse? text).bind (enter found pending)).bind fun next =>
        run (some next) false rest := by
  rw [run, pieces?_compound solid within ends, Option.bind_map]
  simp only [Function.comp_def, assemble?_compound, run]
  rw [Option.bind_comm]

end Run

theorem separators_of_blank {gap : Text} (blank : gap.isBlank = true) :
    ∀ byte ∈ gap, isSeparatorByte byte = true := by
  intro byte member
  rw [isSeparatorByte, List.all_eq_true.mp blank byte member]
  rfl

/-- White space is not read. -/
theorem run_blank {gap : Text} (blank : gap.isBlank = true) (found : Option Selector)
    (pending : Bool) (rest : Text) : run found pending (gap ++ rest) = run found pending rest := by
  have unmarked : gap.contains '>'.toUInt8 = false := by
    rw [← Bool.not_eq_true, List.contains_iff_mem]
    exact Text.not_mem_of_blank (by decide) blank
  rw [run_separators _ _ (separators_of_blank blank), unmarked, Bool.or_false]

def extend (outer : Selector) (others : List (Text × Compound)) : Selector :=
  others.foldl (fun outer entry =>
    ⟨entry.2, (combinatorOf entry.1, outer.subject) :: outer.context⟩) outer

theorem endsCompound_blank {gap : Text} (blank : gap.isBlank = true) : EndsCompound false gap := by
  intro byte isFirst
  exact ⟨rfl, separators_of_blank blank byte (List.mem_of_head? isFirst)⟩

theorem endsCompound_separator {between : Text} (separates : IsSeparator between) (rest : Text) :
    EndsCompound false (between ++ rest) := by
  obtain ⟨first, others, rfl⟩ := List.exists_cons_of_ne_nil separates.some
  rintro _ ⟨⟩
  exact ⟨rfl, separates.bytes first List.mem_cons_self⟩

/-- What the grammar spells is read. -/
theorem Reads.run_eq {core : Text} {first : Compound} {others : List (Text × Compound)}
    (reads : Reads core first others) {tail : Text} (blank : tail.isBlank = true)
    (found : Option Selector) (pending : Bool) :
    run found pending (core ++ tail) = (enter found pending first).map (extend · others) := by
  induction reads generalizing found pending with
  | last only =>
      have ended : ∀ next, run (some next) false tail = some next := by
        intro next
        have ended := run_blank blank (some next) false []
        rwa [List.append_nil, run_nil] at ended
      rw [run_compound _ _ only.some only.enclosed (endsCompound_blank blank),
        (Compound.parse?_eq_some_iff only.some).mpr only, Option.bind_some]
      simp only [ended]
      cases enter found pending _ <;> rfl
  | join begins separates more ih =>
      rw [List.append_assoc, List.append_assoc, run_compound _ _ begins.some begins.enclosed
        (endsCompound_separator separates _), (Compound.parse?_eq_some_iff begins.some).mpr begins,
        Option.bind_some]
      simp only [run_separators _ _ separates.bytes, Bool.false_or, ih]
      cases enter found pending _ <;> rfl

/-- What is read begins, after separators, with a compound, unless it is over. -/
theorem exists_compound {found : Option Selector} {pending : Bool} {text : Text}
    {selector : Selector} (read : run found pending text = some selector) :
    ∃ between rest, text = between ++ rest ∧ (∀ byte ∈ between, isSeparatorByte byte = true) ∧
      ((rest = [] ∧ (pending || between.contains '>'.toUInt8) = false ∧ found = some selector) ∨
        ∃ word tail compound next, rest = word ++ tail ∧ compound.Reads word ∧
          EndsCompound false tail ∧
          enter found (pending || between.contains '>'.toUInt8) compound = some next ∧
          run (some next) false tail = some selector) := by
  have bytes : ∀ byte ∈ text.takeWhile isSeparatorByte, isSeparatorByte byte = true :=
    List.all_eq_true.mp List.all_takeWhile
  have parts := (List.takeWhile_append_dropWhile (p := isSeparatorByte) (l := text)).symm
  have stop := List.head?_dropWhile_not isSeparatorByte text
  refine ⟨_, _, parts, bytes, ?_⟩
  rw [parts, run_separators _ _ bytes] at read
  generalize text.takeWhile isSeparatorByte = between at read ⊢
  generalize text.dropWhile isSeparatorByte = rest at read stop ⊢
  generalize (pending || between.contains '>'.toUInt8) = marked at read ⊢
  cases rest with
  | nil =>
      rw [run_nil] at read
      cases marked with
      | true => cases read
      | false => exact .inl ⟨rfl, rfl, read⟩
  | cons byte more =>
      obtain ⟨_, split, -⟩ := Option.bind_eq_some_iff.mp read
      obtain ⟨⟨word, others⟩, piece, -⟩ := Option.map_eq_some_iff.mp split
      obtain ⟨after, tail, whole, within, ends⟩ := exists_piece piece
      have solid : word ≠ [] := by
        rintro rfl
        have separates := (ends byte (by rw [← List.nil_append tail, ← whole]; rfl)).2
        exact Bool.false_ne_true (stop.symm.trans separates)
      rw [whole, run_compound _ _ solid within ends] at read
      obtain ⟨next, entered, later⟩ := Option.bind_eq_some_iff.mp read
      obtain ⟨compound, parsed, entered⟩ := Option.bind_eq_some_iff.mp entered
      have reads := (Compound.parse?_eq_some_iff solid).mp parsed
      obtain rfl : after = false := Option.some.inj (within.symm.trans reads.enclosed)
      exact .inr ⟨word, tail, compound, next, whole, reads, ends, entered, later⟩

/-- Without a mark among them, separators are white space. -/
theorem blank_of_unmarked {between : Text} (bytes : ∀ byte ∈ between, isSeparatorByte byte = true)
    (unmarked : between.contains '>'.toUInt8 = false) : between.isBlank = true := by
  rw [Text.isBlank, List.all_eq_true]
  intro byte member
  have separates := bytes byte member
  rw [isSeparatorByte, Bool.or_eq_true, beq_iff_eq] at separates
  refine separates.resolve_right ?_
  rintro rfl
  rw [List.contains_iff_mem.mpr member] at unmarked
  cases unmarked

/-- The text of compounds begins with that of the first one. -/
theorem Reads.exists_first {core : Text} {first : Compound} {others : List (Text × Compound)}
    (reads : Reads core first others) : ∃ word rest, core = word ++ rest ∧ first.Reads word := by
  cases reads with
  | last only => exact ⟨core, [], (List.append_nil core).symm, only⟩
  | join begins separates more => exact ⟨_, _, List.append_assoc .., begins⟩

theorem Reads.begins {core : Text} {first : Compound} {others : List (Text × Compound)}
    (reads : Reads core first others) :
    ∀ byte, core.head? = some byte → isSeparatorByte byte = false := by
  obtain ⟨word, rest, rfl, only⟩ := reads.exists_first
  obtain ⟨byte, more, rfl⟩ := List.exists_cons_of_ne_nil only.some
  exact only.enclosed.begins

theorem Reads.trim {core : Text} {first : Compound} {others : List (Text × Compound)}
    (reads : Reads core first others) : core ≠ [] ∧ Text.trim core = core := by
  induction reads with
  | last only => exact ⟨only.some, only.enclosed.trim⟩
  | join begins separates more ih =>
      refine ⟨by simp [begins.some], ?_⟩
      exact Text.trim_append_append begins.some begins.enclosed.trim ih.1 ih.2 _

/-- What is read is spelled in the grammar, apart from separators before it and white space behind
it. The induction is on the length of the text: each compound that is read is taken off. -/
theorem reads_of_run {found : Option Selector} {pending : Bool} {text : Text}
    {selector : Selector} (read : run found pending text = some selector) :
    ∃ between rest, text = between ++ rest ∧ (∀ byte ∈ between, isSeparatorByte byte = true) ∧
      ((rest = [] ∧ (pending || between.contains '>'.toUInt8) = false ∧ found = some selector) ∨
        ∃ core tail first others next, rest = core ++ tail ∧ Reads core first others ∧
          tail.isBlank = true ∧
          enter found (pending || between.contains '>'.toUInt8) first = some next ∧
          selector = extend next others) := by
  obtain ⟨between, rest, rfl, bytes, ended | found⟩ := exists_compound read
  · exact ⟨between, rest, rfl, bytes, .inl ended⟩
  · obtain ⟨word, tail, compound, next, rfl, only, ends, entered, later⟩ := found
    have shorter : tail.length < (between ++ (word ++ tail)).length := by
      have some := List.length_pos_iff.mpr only.some
      simp only [List.length_append]
      omega
    refine ⟨between, _, rfl, bytes, .inr ?_⟩
    obtain ⟨gap, more, rfl, bytesToo, ⟨rfl, unmarked, same⟩ | inner⟩ := reads_of_run later
    · rw [Bool.false_or] at unmarked
      refine ⟨word, gap ++ [], compound, [], next, rfl, .last only, ?_, entered, ?_⟩
      · rw [List.append_nil]
        exact blank_of_unmarked bytesToo unmarked
      · exact (Option.some.inj same).symm
    · obtain ⟨core, tail, first, others, nextToo, rfl, reads, blank, enteredToo, rfl⟩ := inner
      have separates : IsSeparator gap := by
        refine ⟨?_, bytesToo⟩
        rintro rfl
        obtain ⟨byte, more, rfl⟩ := List.exists_cons_of_ne_nil reads.trim.1
        have apart := (ends byte rfl).2
        rw [reads.begins byte rfl] at apart
        cases apart
      refine ⟨word ++ gap ++ core, tail, compound, (gap, first) :: others, next, by simp,
        .join only separates reads, blank, entered, ?_⟩
      cases enteredToo
      rfl
termination_by text.length
decreasing_by
  subst_vars
  exact shorter

/-! ## What selectors are read from -/

theorem written_extend (outer : Selector) (others : List (Text × Compound)) :
    (extend outer others).written = outer.written ++ others.map (·.2) := by
  induction others generalizing outer with
  | nil => exact (List.append_nil _).symm
  | cons entry rest ih =>
      rw [extend, List.foldl_cons, ← extend, ih]
      simp [written, compounds]

theorem combinators_extend (outer : Selector) (others : List (Text × Compound)) :
    (extend outer others).combinators =
      outer.combinators ++ others.map fun entry => combinatorOf entry.1 := by
  induction others generalizing outer with
  | nil => exact (List.append_nil _).symm
  | cons entry rest ih =>
      rw [extend, List.foldl_cons, ← extend, ih]
      simp [combinators]

/-- A selector is given by its compounds and what joins them. -/
theorem eq_of_written {first second : Selector} (same : first.written = second.written)
    (joined : first.combinators = second.combinators) : first = second := by
  obtain ⟨subject, context⟩ := first
  obtain ⟨subjectToo, contextToo⟩ := second
  obtain ⟨subjects, compounds⟩ := List.cons.inj (List.reverse_inj.mp same)
  have pairs := List.zip_of_prod (List.reverse_inj.mp joined) compounds
  rw [Selector.mk.injEq]
  exact ⟨subjects, pairs.trans (List.zip_of_prod rfl rfl).symm⟩

theorem reads_of_parse? {text : Text} {selector : Selector} (read : parse? text = some selector) :
    ∃ first others, Reads (Text.trim text) first others ∧
      selector = extend { subject := first } others := by
  obtain ⟨gap, rest, rfl, bytes, ⟨-, -, missing⟩ | inner⟩ := reads_of_run read
  · cases missing
  · obtain ⟨core, tail, first, others, next, rfl, reads, blank, entered, rfl⟩ := inner
    rw [Bool.false_or] at entered
    -- A mark before the first compound is refused, so only white space stands there.
    cases marked : gap.contains '>'.toUInt8 with
    | true =>
        rw [marked] at entered
        cases entered
    | false =>
        rw [marked] at entered
        cases entered
        have trimmed : Text.trim (gap ++ (core ++ tail)) = core := by
          rw [Text.trim_blank_append (blank_of_unmarked bytes marked),
            Text.trim_append_blank blank, reads.trim.2]
        exact ⟨first, others, by rwa [trimmed], rfl⟩

theorem parse?_of_reads {text : Text} {first : Compound} {others : List (Text × Compound)}
    (reads : Reads (Text.trim text) first others) :
    parse? text = some (extend { subject := first } others) := by
  obtain ⟨gap, tail, blank, blankToo, whole⟩ := Text.exists_ends text
  change run none false text = _
  rw [whole, List.append_assoc, run_blank blank, reads.run_eq blankToo]
  rfl

/-- A text is read as a selector exactly when, without the white space at its ends, it spells one;
the selector then has the compounds of this reading, and the combinators between them. Any number of
child marks between two compounds is taken for one. -/
theorem parse?_eq_some_iff_reads (text : Text) (selector : Selector) :
    parse? text = some selector ↔
      ∃ first others, Reads (Text.trim text) first others ∧
        selector.written = first :: others.map (·.2) ∧
        selector.combinators = (others.map fun entry => combinatorOf entry.1) ∧
        selector.written.length = selector.combinators.length + 1 := by
  constructor
  · intro read
    obtain ⟨first, others, reads, rfl⟩ := reads_of_parse? read
    exact ⟨first, others, reads, written_extend _ others, combinators_extend _ others,
      length_written _⟩
  · rintro ⟨first, others, reads, same, joined, -⟩
    rw [parse?_of_reads reads, Option.some.injEq]
    apply eq_of_written
    · rw [written_extend, same]
      rfl
    · rw [combinators_extend, joined]
      rfl

/-- More than one child mark between two compounds is read all the same. -/
theorem not_reads_single_marks :
    ¬ ∀ text : Text, (∃ selector, parse? text = some selector) ↔
      ∃ first others, Reads (Text.trim text) first others ∧
        ∀ entry ∈ others, entry.1.count '>'.toUInt8 ≤ 1 := by
  intro accepts
  obtain ⟨first, others, reads, single⟩ :=
    (accepts "a >> b").mp (Option.isSome_iff_exists.mp (by decide +kernel))
  rw [show Text.trim "a >> b" = 'a'.toUInt8 :: ' '.toUInt8 :: ">> b" by decide +kernel] at reads
  generalize whole : 'a'.toUInt8 :: ' '.toUInt8 :: (">> b" : Text) = core at reads
  -- The first compound ends before the white space.
  have alone : ∀ {word rest : Text}, 'a'.toUInt8 :: ' '.toUInt8 :: ">> b" = word ++ rest →
      Enclosed word → word ≠ [] → rest = ' '.toUInt8 :: ">> b" := by
    intro word rest split enclosed some
    obtain ⟨byte, more, rfl⟩ := List.exists_cons_of_ne_nil some
    obtain ⟨rfl, behind⟩ := List.cons.inj split
    cases more with
    | nil => exact behind.symm
    | cons second others =>
        obtain ⟨rfl, -⟩ := List.cons.inj behind
        cases enclosed
  cases reads with
  | last only =>
      cases alone (whole.trans (List.append_nil core).symm) only.enclosed only.some
  | join begins separates more =>
      rw [List.append_assoc] at whole
      have left := alone whole begins.enclosed begins.some
      have between := Text.takeWhile_append_stop separates.bytes more.begins
      rw [left] at between
      have marks := (List.forall_mem_cons.mp single).1
      dsimp only at marks
      rw [← between] at marks
      exact absurd marks (by decide +kernel)

end Selector

end SlidePress.Css
