import SlidePress.Proofs.Css.RoundTrip

/-! Sheets that are joined. A sheet is complete when all its comments are closed and, without them,
it consists of closed blocks with nothing but white space after the last one. Complete sheets keep
their rules to themselves, whatever follows them, and they are the only ones that do: an open comment
or block, or a text that waits for a block, takes something of the next sheet with it. -/

namespace SlidePress.Css

open Text (splitAtWord?)

/-! ## Comments -/

/-- The second text is what the first has outside of its comments, all of which are closed. -/
inductive Uncomments : Text → Text → Prop where
  | nil : Uncomments [] []
  | byte {byte : UInt8} {rest plain : Text}
      (ordinary : ¬ (byte = '/'.toUInt8 ∧ rest.head? = some '*'.toUInt8))
      (more : Uncomments rest plain) : Uncomments (byte :: rest) (byte :: plain)
  | comment {inside body rest plain : Text}
      (closed : splitAtWord? "*/" inside = some (body, rest)) (more : Uncomments rest plain) :
      Uncomments ('/'.toUInt8 :: '*'.toUInt8 :: inside) plain

theorem Uncommented.uncomments {text : Text} (uncommented : Uncommented text) :
    Uncomments text text := by
  induction text with
  | nil => exact .nil
  | cons byte rest ih =>
      obtain ⟨apart, remaining⟩ := List.isChain_cons.mp uncommented
      apply Uncomments.byte
      · rintro ⟨isSlash, isStar⟩
        exact apart _ isStar ⟨isSlash, rfl⟩
      · exact ih remaining

namespace Stylesheet

theorem stripComments_byte {byte : UInt8} {rest : Text}
    (ordinary : ¬ (byte = '/'.toUInt8 ∧ rest.head? = some '*'.toUInt8)) :
    stripComments (byte :: rest) = byte :: stripComments rest := by
  rw [stripComments, if_neg]
  rw [Bool.and_eq_true, beq_iff_eq, beq_iff_eq]
  exact ordinary

theorem stripComments_comment {inside body rest : Text}
    (closed : splitAtWord? "*/" inside = some (body, rest)) :
    stripComments ('/'.toUInt8 :: '*'.toUInt8 :: inside) = stripComments rest := by
  rw [stripComments, if_pos (by rfl)]
  split
  · rename_i found
    rw [List.drop_one, List.tail_cons, closed] at found
    cases found
    rfl
  · rename_i missing
    rw [List.drop_one, List.tail_cons, closed] at missing
    cases missing

theorem stripComments_open {inside : Text} (unclosed : splitAtWord? "*/" inside = none) :
    stripComments ('/'.toUInt8 :: '*'.toUInt8 :: inside) = [] := by
  rw [stripComments, if_pos (by rfl)]
  split
  · rename_i found
    rw [List.drop_one, List.tail_cons, unclosed] at found
    cases found
  · rfl

end Stylesheet

open Stylesheet

/-- What follows closed comments is read on its own, unless it turns a last slash into a comment. -/
theorem Uncomments.stripComments_append {css plain : Text} (uncomments : Uncomments css plain)
    {rest : Text} (apart : rest.head? ≠ some '*'.toUInt8) :
    stripComments (css ++ rest) = plain ++ stripComments rest := by
  induction uncomments with
  | nil => rfl
  | byte ordinary more ih =>
      rename_i byte after plain
      have stillOrdinary : ¬ (byte = '/'.toUInt8 ∧ (after ++ rest).head? = some '*'.toUInt8) := by
        rintro ⟨isSlash, isStar⟩
        cases after with
        | nil => exact apart isStar
        | cons next others => exact ordinary ⟨isSlash, isStar⟩
      rw [List.cons_append, stripComments_byte stillOrdinary, ih]
      rfl
  | comment closed more ih =>
      rw [List.cons_append, List.cons_append,
        stripComments_comment (Text.splitAtWord?_append closed rest), ih]

theorem Uncomments.stripComments_eq {css plain : Text} (uncomments : Uncomments css plain) :
    stripComments css = plain := by
  have alone := uncomments.stripComments_append (show ([] : Text).head? ≠ _ from nofun)
  rw [stripComments, List.append_nil, List.append_nil] at alone
  exact alone

structure NeverCloses (rest : Text) : Prop where
  apart : rest.head? ≠ some '/'.toUInt8
  unclosed : splitAtWord? "*/" rest = none

theorem splitAtWord?_append_of_neverCloses {inside rest : Text}
    (unclosed : splitAtWord? "*/" inside = none) (never : NeverCloses rest) :
    splitAtWord? "*/" (inside ++ rest) = none := by
  induction inside with
  | nil => exact never.unclosed
  | cons byte more ih =>
      rw [splitAtWord?] at unclosed
      rw [List.cons_append, splitAtWord?]
      split at unclosed
      · cases unclosed
      · rename_i later
        have stillLater : ¬ ("*/" : Text).isPrefixOf (byte :: (more ++ rest)) = true := by
          intro begins
          obtain ⟨tail, whole⟩ := List.isPrefixOf_iff_prefix.mp begins
          obtain ⟨isStar, isSlash⟩ := List.cons.inj (show '*'.toUInt8 :: '/'.toUInt8 :: tail =
            byte :: (more ++ rest) from whole)
          cases more with
          | nil => exact never.apart (by rw [← isSlash.trans (List.nil_append _)]; rfl)
          | cons next others =>
              apply later
              obtain ⟨isNext, -⟩ := List.cons.inj isSlash
              rw [← isStar, ← isNext]
              exact List.isPrefixOf_iff_prefix.mpr (List.prefix_append ("*/" : Text) others)
        rw [if_neg stillLater, ih (Option.map_eq_none_iff.mp unclosed)]
        rfl

/-- A text is read from its comments: it is empty, or begins with a byte outside of them, with a
comment that is closed, or with one that is not. -/
theorem byComments {motive : Text → Prop} (nil : motive [])
    (byte : ∀ byte rest, ¬ (byte = '/'.toUInt8 ∧ rest.head? = some '*'.toUInt8) → motive rest →
      motive (byte :: rest))
    (comment : ∀ inside body rest, splitAtWord? "*/" inside = some (body, rest) → motive rest →
      motive ('/'.toUInt8 :: '*'.toUInt8 :: inside))
    (opened : ∀ inside, splitAtWord? "*/" inside = none →
      motive ('/'.toUInt8 :: '*'.toUInt8 :: inside)) (css : Text) : motive css := by
  have shape : ∀ {first : UInt8} {rest : Text},
      (first == '/'.toUInt8 && rest.head? == some '*'.toUInt8) = true →
        first :: rest = '/'.toUInt8 :: '*'.toUInt8 :: rest.drop 1 := by
    intro first rest begins
    rw [Bool.and_eq_true, beq_iff_eq, beq_iff_eq] at begins
    rw [begins.1, List.drop_one, List.eq_cons_of_mem_head? begins.2]
    rfl
  induction css using stripComments.induct with
  | case1 => exact nil
  | case2 first rest begins body after closed ih =>
      rw [shape begins]
      exact comment _ body after closed ih
  | case3 first rest begins unclosed =>
      rw [shape begins]
      exact opened _ unclosed
  | case4 first rest begins ih =>
      apply byte first rest _ ih
      rwa [Bool.and_eq_true, beq_iff_eq, beq_iff_eq] at begins

/-- Either all comments of a text are closed, or what follows is lost in the last of them. -/
theorem uncomments_or_swallows (css : Text) :
    (∃ plain, Uncomments css plain) ∨
      ∀ rest, NeverCloses rest → stripComments (css ++ rest) = stripComments css := by
  induction css using byComments with
  | nil => exact .inl ⟨[], .nil⟩
  | byte byte after ordinary ih =>
      rcases ih with ⟨plain, uncomments⟩ | swallows
      · exact .inl ⟨byte :: plain, .byte ordinary uncomments⟩
      · cases after with
        | nil => exact .inl ⟨[byte], .byte ordinary .nil⟩
        | cons next others =>
            right
            intro rest never
            rw [List.cons_append, stripComments_byte ordinary, ← swallows rest never]
            exact stripComments_byte ordinary
  | comment inside body after closed ih =>
      rcases ih with ⟨plain, uncomments⟩ | swallows
      · exact .inl ⟨plain, .comment closed uncomments⟩
      · right
        intro rest never
        rw [stripComments_comment closed, ← swallows rest never]
        exact stripComments_comment (Text.splitAtWord?_append closed rest)
  | opened inside unclosed =>
      right
      intro rest never
      rw [stripComments_open unclosed]
      exact stripComments_open (splitAtWord?_append_of_neverCloses unclosed never)

/-! ## Blocks -/

/-- The text closes as many braces as are open before it, the last of them with its last byte. -/
inductive Closes : Nat → Text → Prop where
  | last : Closes 1 [Byte.closeBrace]
  | close {depth : Nat} {rest : Text} (more : Closes (depth + 1) rest) :
      Closes (depth + 2) (Byte.closeBrace :: rest)
  | opening {depth : Nat} {rest : Text} (more : Closes (depth + 1) rest) :
      Closes depth (Byte.openBrace :: rest)
  | byte {depth : Nat} {byte : UInt8} {rest : Text} (unopened : byte ≠ Byte.openBrace)
      (unclosed : byte ≠ Byte.closeBrace) (more : Closes depth rest) : Closes depth (byte :: rest)

/-- A sheet without comments that leaves nothing open: blocks with what leads to them, and white
space after the last one. Special blocks may hold others. -/
inductive Finished : Text → Prop where
  | blank {gap : Text} (blank : gap.isBlank = true) : Finished gap
  | rule {before content rest : Text} (unopened : Byte.openBrace ∉ before)
      (unclosed : Byte.closeBrace ∉ content)
      (ordinary : (Text.trim before).head? ≠ some '@'.toUInt8) (more : Finished rest) :
      Finished (before ++ Byte.openBrace :: (content ++ Byte.closeBrace :: rest))
  | special {before content rest : Text} (unopened : Byte.openBrace ∉ before)
      (marked : (Text.trim before).head? = some '@'.toUInt8) (closes : Closes 1 content)
      (more : Finished rest) : Finished (before ++ Byte.openBrace :: (content ++ rest))

/-- A sheet that leaves nothing open, neither a comment nor anything else. -/
def Complete (css : Text) : Prop := ∃ plain, Uncomments css plain ∧ Finished plain

namespace Stylesheet

theorem afterBlock_of_closes {depth : Nat} {content : Text} (closes : Closes depth content)
    (rest : Text) : afterBlock depth (content ++ rest) = rest := by
  induction closes with
  | last => rfl
  | close more ih => 
      rw [List.cons_append, afterBlock, if_neg (by decide), if_pos (beq_self_eq_true _),
        if_neg (by omega)]
      exact ih
  | opening more ih =>
      rw [List.cons_append, afterBlock, if_pos (beq_self_eq_true _)]
      exact ih
  | byte unopened unclosed more ih =>
      rw [List.cons_append, afterBlock, if_neg (by simpa using unopened),
        if_neg (by simpa using unclosed)]
      exact ih

theorem afterBlock_of_unclosed {text : Text} (unclosed : Byte.closeBrace ∉ text) (depth : Nat) :
    afterBlock depth text = [] := by
  induction text generalizing depth with
  | nil => rfl
  | cons byte rest ih =>
      rw [List.mem_cons, not_or] at unclosed
      rw [afterBlock]
      split
      · exact ih unclosed.2 (depth + 1)
      · rw [if_neg (by simpa using fun same : byte = _ => unclosed.1 same.symm)]
        exact ih unclosed.2 depth

/-- Either a block is closed somewhere in a text, or it stays open behind it. -/
theorem closes_or_open (depth : Nat) (text : Text) :
    (∃ content rest, text = content ++ rest ∧ Closes (depth + 1) content) ∨
      ∃ deeper, ∀ rest, afterBlock (depth + 1) (text ++ rest) = afterBlock (deeper + 1) rest := by
  induction text generalizing depth with
  | nil => exact .inr ⟨depth, fun rest => rfl⟩
  | cons byte more ih =>
      by_cases opens : byte = Byte.openBrace
      · subst opens
        rcases ih (depth + 1) with ⟨content, rest, rfl, closes⟩ | ⟨deeper, still⟩
        · exact .inl ⟨Byte.openBrace :: content, rest, rfl, .opening closes⟩
        · refine .inr ⟨deeper, fun rest => ?_⟩
          rw [← still rest, List.cons_append, afterBlock, if_pos (beq_self_eq_true _)]
      · by_cases shuts : byte = Byte.closeBrace
        · subst shuts
          cases depth with
          | zero => exact .inl ⟨[Byte.closeBrace], more, rfl, .last⟩
          | succ outer =>
              rcases ih outer with ⟨content, rest, rfl, closes⟩ | ⟨deeper, still⟩
              · exact .inl ⟨Byte.closeBrace :: content, rest, rfl, .close closes⟩
              · refine .inr ⟨deeper, fun rest => ?_⟩
                rw [← still rest, List.cons_append, afterBlock, if_neg (by decide),
                  if_pos (beq_self_eq_true _), if_neg (by omega)]
                rfl
        · rcases ih depth with ⟨content, rest, rfl, closes⟩ | ⟨deeper, still⟩
          · exact .inl ⟨byte :: content, rest, rfl, .byte opens shuts closes⟩
          · refine .inr ⟨deeper, fun rest => ?_⟩
            rw [← still rest, List.cons_append, afterBlock, if_neg (by simpa using opens),
              if_neg (by simpa using shuts)]

section Reading

variable {before inside : Text}

theorem readRules_of_unopened (unopened : Byte.openBrace ∉ inside) : readRules inside = [] := by
  rw [readRules]
  split
  · rfl
  · rename_i found
    rw [Text.splitAtByte?_eq_none.mpr unopened] at found
    cases found

theorem readRules_special (unopened : Byte.openBrace ∉ before)
    (marked : (Text.trim before).head? = some '@'.toUInt8) (inside : Text) :
    readRules (before ++ Byte.openBrace :: inside) =
      .inr (.skippedBlock (Text.trim before)) :: readRules (afterBlock 1 inside) := by
  have opened := Text.splitAtByte?_append unopened inside
  rw [readRules]
  split
  · rename_i missing
    rw [opened] at missing
    cases missing
  · rename_i lead content found
    rw [opened] at found
    cases found
    exact if_pos (beq_iff_eq.mpr marked)

theorem readRules_unclosed (unopened : Byte.openBrace ∉ before)
    (ordinary : (Text.trim before).head? ≠ some '@'.toUInt8) (unclosed : Byte.closeBrace ∉ inside) :
    readRules (before ++ Byte.openBrace :: inside) = [] := by
  have opened := Text.splitAtByte?_append unopened inside
  rw [readRules]
  split
  · rfl
  · rename_i lead content found
    rw [opened] at found
    cases found
    dsimp only
    rw [if_neg (by simpa using ordinary)]
    split
    · rfl
    · rename_i found
      rw [Text.splitAtByte?_eq_none.mpr unclosed] at found
      cases found

end Reading

/-- A sheet is read from its blocks: it has none, or begins with a special block, with one that is
closed, or with one that is not. -/
theorem byBlocks {motive : Text → Prop}
    (unopened : ∀ css, Byte.openBrace ∉ css → motive css)
    (special : ∀ before inside, Byte.openBrace ∉ before →
      (Text.trim before).head? = some '@'.toUInt8 → motive (afterBlock 1 inside) →
        motive (before ++ Byte.openBrace :: inside))
    (rule : ∀ before content rest, Byte.openBrace ∉ before →
      (Text.trim before).head? ≠ some '@'.toUInt8 → Byte.closeBrace ∉ content → motive rest →
        motive (before ++ Byte.openBrace :: (content ++ Byte.closeBrace :: rest)))
    (unclosed : ∀ before inside, Byte.openBrace ∉ before →
      (Text.trim before).head? ≠ some '@'.toUInt8 → Byte.closeBrace ∉ inside →
        motive (before ++ Byte.openBrace :: inside)) (css : Text) : motive css := by
  induction css using readRules.induct with
  | case1 css missing => exact unopened css (Text.splitAtByte?_eq_none.mp missing)
  | case2 css before inside opened lead marked ih =>
      obtain ⟨rfl, absent⟩ := Text.splitAtByte?_eq_some opened
      exact special before inside absent (beq_iff_eq.mp marked) ih
  | case3 css before inside opened lead ordinary missing =>
      obtain ⟨rfl, absent⟩ := Text.splitAtByte?_eq_some opened
      exact unclosed before inside absent (by simpa using ordinary)
        (Text.splitAtByte?_eq_none.mp missing)
  | case4 css before inside opened lead ordinary content rest closed ih =>
      obtain ⟨rfl, absent⟩ := Text.splitAtByte?_eq_some opened
      obtain ⟨rfl, absentToo⟩ := Text.splitAtByte?_eq_some closed
      exact rule before content rest absent (by simpa using ordinary) absentToo ih

/-- White space before a sheet does not count. -/
theorem readRules_blank_append {gap : Text} (blank : gap.isBlank = true) (css : Text) :
    readRules (gap ++ css) = readRules css := by
  have plain : Byte.openBrace ∉ gap := Text.not_mem_of_blank (by decide) blank
  have absent : ∀ {before : Text}, Byte.openBrace ∉ before → Byte.openBrace ∉ gap ++ before := by
    intro before unopened
    rw [List.mem_append, not_or]
    exact ⟨plain, unopened⟩
  have lead : ∀ before, Text.trim (gap ++ before) = Text.trim before :=
    Text.trim_blank_append blank
  induction css using byBlocks with
  | unopened css unopened =>
      rw [readRules_of_unopened unopened, readRules_of_unopened (absent unopened)]
  | special before inside unopened marked ih =>
      rw [← List.append_assoc, readRules_special (absent unopened) (by rw [lead, marked]), lead,
        readRules_special unopened marked]
  | rule before content rest unopened ordinary unclosed ih =>
      rw [← List.append_assoc, readRules_braces (absent unopened) unclosed (by rwa [lead]), lead,
        readRules_braces unopened unclosed ordinary]
  | unclosed before inside unopened ordinary unclosed =>
      rw [← List.append_assoc, readRules_unclosed (absent unopened) (by rwa [lead]) unclosed,
        readRules_unclosed unopened ordinary unclosed]

/-- White space after a sheet does not count, whatever the sheet leaves open. -/
theorem readRules_append_blank {gap : Text} (blank : gap.isBlank = true) (css : Text) :
    readRules (css ++ gap) = readRules css := by
  have absent : ∀ {mark : UInt8} {text : Text}, Byte.isSpace mark = false → mark ∉ text →
      mark ∉ text ++ gap := by
    intro mark text solid missing
    rw [List.mem_append, not_or]
    exact ⟨missing, Text.not_mem_of_blank solid blank⟩
  induction css using byBlocks with
  | unopened css unopened =>
      rw [readRules_of_unopened unopened, readRules_of_unopened (absent (by decide) unopened)]
  | special before inside unopened marked ih =>
      rw [List.append_assoc, List.cons_append, readRules_special unopened marked,
        readRules_special unopened marked]
      rcases closes_or_open 0 inside with ⟨content, rest, rfl, closes⟩ | ⟨deeper, still⟩
      · rw [afterBlock_of_closes closes] at ih ⊢
        rw [List.append_assoc, afterBlock_of_closes closes, ih]
      · have alone := still []
        rw [List.append_nil] at alone
        rw [still, alone, afterBlock_of_unclosed (Text.not_mem_of_blank (by decide) blank)]
        rfl
  | rule before content rest unopened ordinary unclosed ih =>
      rw [readRules_braces unopened unclosed ordinary, List.append_assoc, List.cons_append,
        List.append_assoc, List.cons_append, readRules_braces unopened unclosed ordinary, ih]
  | unclosed before inside unopened ordinary unclosed =>
      rw [List.append_assoc, List.cons_append, readRules_unclosed unopened ordinary unclosed,
        readRules_unclosed unopened ordinary (absent (by decide) unclosed)]

end Stylesheet

/-- What follows a finished sheet is read on its own. -/
theorem Finished.readRules_append {css : Text} (finished : Finished css) (rest : Text) :
    readRules (css ++ rest) = readRules css ++ readRules rest := by
  induction finished with
  | blank blank => rw [readRules_blank_append blank, readRules_of_blank blank, List.nil_append]
  | rule unopened unclosed ordinary more ih =>
      rw [readRules_braces unopened unclosed ordinary, List.append_assoc, List.cons_append,
        List.append_assoc, List.cons_append, readRules_braces unopened unclosed ordinary, ih,
        List.append_assoc]
  | special unopened marked closes more ih =>
      rw [readRules_special unopened marked, List.append_assoc, List.cons_append,
        readRules_special unopened marked, List.append_assoc, afterBlock_of_closes closes,
        afterBlock_of_closes closes, ih]
      rfl

/-! ## What is taken from the next sheet -/

def taken (read : List (Rule ⊕ Warning)) : List Rule := read.filterMap Sum.getLeft?

theorem taken_append (first second : List (Rule ⊕ Warning)) :
    taken (first ++ second) = taken first ++ taken second :=
  List.filterMap_append

theorem taken_skipped (lead : Text) (read : List (Rule ⊕ Warning)) :
    taken (.inr (.skippedBlock lead) :: read) = taken read := rfl

theorem taken_rulesOf (lead : Text) (declarations : List Declaration) :
    taken (rulesOf lead declarations) = (Text.entries ','.toUInt8 lead).filterMap fun source =>
      (Selector.parse? source).map fun selector => ⟨source, selector, declarations⟩ := by
  rw [taken, rulesOf, List.filterMap_map]
  refine List.filterMap_congr fun source _ => ?_
  rw [Function.comp_apply]
  cases Selector.parse? source <;> rfl

/-- How many rules a lead text gives does not depend on its block. -/
theorem length_taken_rulesOf (lead : Text) (first second : List Declaration) :
    (taken (rulesOf lead first)).length = (taken (rulesOf lead second)).length := by
  have sources : ∀ declarations, (taken (rulesOf lead declarations)).map (·.source) =
      (Text.entries ','.toUInt8 lead).filterMap fun source =>
        (Selector.parse? source).map fun _ => source := by
    intro declarations
    rw [taken_rulesOf, List.map_filterMap]
    simp only [Option.map_map, Function.comp_def]
  have same := congrArg List.length ((sources first).trans (sources second).symm)
  rwa [List.length_map, List.length_map] at same

theorem declarations_of_mem_rulesOf {lead : Text} {declarations : List Declaration} {rule : Rule}
    (member : rule ∈ taken (rulesOf lead declarations)) : rule.declarations = declarations := by
  rw [taken_rulesOf] at member
  obtain ⟨source, -, isRule⟩ := List.mem_filterMap.mp member
  obtain ⟨selector, -, rfl⟩ := Option.map_eq_some_iff.mp isRule
  rfl

/-- Sheets that show what is left open before them: the end of a block, a rule, and a rule behind a
special block with another one inside. -/
def closing : Text := "\x7d"

def single : Text := "x\x7b\x7d"

def behind : Text := "@\x7b\x7b\x7d\x7dx\x7by:z\x7d"

/-- Two sheets without comments, read as one with a line end between them, give the rules of both. -/
def Joins (css next : Text) : Prop :=
  taken (readRules (css ++ "\n" ++ next)) = taken (readRules css) ++ taken (readRules next)

theorem Joins.length_eq {css next : Text} (joins : Joins css next) :
    (taken (readRules (css ++ "\n" ++ next))).length =
      (taken (readRules css)).length + (taken (readRules next)).length := by
  rw [joins, List.length_append]

theorem length_taken_single : (taken (readRules single)).length = 1 := by decide +kernel

theorem length_taken_closing : (taken (readRules closing)).length = 0 := by decide +kernel

theorem taken_behind : ∃ rule ∈ taken (readRules behind), rule.declarations ≠ [] := by
  decide +kernel

theorem Finished.joins {css : Text} (finished : Finished css) (next : Text) : Joins css next := by
  have blank : Text.isBlank "\n" = true := by decide +kernel
  rw [Joins, List.append_assoc, finished.readRules_append, taken_append,
    readRules_blank_append blank]

/-- A text that waits for a block takes the next one: a special block runs over a rule, and any other
lead text turns a special block into the block of a rule. -/
theorem blank_of_joins {css : Text} (unopened : Byte.openBrace ∉ css) (withSingle : Joins css single)
    (withBehind : Joins css behind) : css.isBlank = true := by
  by_contra notBlank
  have solid : css.isBlank = false := by simpa using notBlank
  have absent : ∀ {more : Text}, Byte.openBrace ∉ more → Byte.openBrace ∉ css ++ more := by
    intro more unopenedToo
    rw [List.mem_append, not_or]
    exact ⟨unopened, unopenedToo⟩
  by_cases marked : (Text.trim css).head? = some '@'.toUInt8
  · have shape : css ++ "\n" ++ single = (css ++ "\nx") ++ Byte.openBrace :: closing := by
      simp only [List.append_assoc]
      rfl
    have lead : (Text.trim (css ++ "\nx")).head? = some '@'.toUInt8 := by
      rw [Text.head?_trim_append solid, marked]
    have skipped : taken (readRules (afterBlock 1 closing)) = [] := by decide +kernel
    have count := withSingle.length_eq
    rw [shape, readRules_special (absent (by decide +kernel)) lead, taken_skipped, skipped,
      length_taken_single] at count
    exact Nat.not_succ_le_zero _ (count ▸ Nat.le_add_left 1 _)
  · have shape : css ++ "\n" ++ behind = (css ++ "\n@") ++ Byte.openBrace ::
        ([Byte.openBrace] ++ Byte.closeBrace :: "\x7dx\x7by:z\x7d") := by
      simp only [List.append_assoc]
      rfl
    have lead : (Text.trim (css ++ "\n@")).head? ≠ some '@'.toUInt8 := by
      rw [Text.head?_trim_append solid]
      exact marked
    have rest : taken (readRules "\x7dx\x7by:z\x7d") = [] := by
      apply List.eq_nil_of_length_eq_zero
      decide +kernel
    obtain ⟨rule, member, some⟩ := taken_behind
    rw [Joins, shape, readRules_braces (absent (by decide +kernel)) (by decide) lead, taken_append,
      rest, List.append_nil] at withBehind
    have among : rule ∈ taken (readRules css) ++ taken (readRules behind) :=
      List.mem_append_right _ member
    rw [← withBehind] at among
    apply some
    rw [declarations_of_mem_rulesOf among]
    decide +kernel

/-- An open block is closed by the next sheet, with or without a rule of its own. -/
theorem not_joins_of_unclosed {before inside : Text} (unopened : Byte.openBrace ∉ before)
    (ordinary : (Text.trim before).head? ≠ some '@'.toUInt8) (unclosed : Byte.closeBrace ∉ inside)
    (withClosing : Joins (before ++ Byte.openBrace :: inside) closing) :
    ¬ Joins (before ++ Byte.openBrace :: inside) single := by
  intro withSingle
  have nothing := readRules_unclosed unopened ordinary unclosed
  have absent : ∀ {more : Text}, Byte.closeBrace ∉ more → Byte.closeBrace ∉ inside ++ more := by
    intro more unclosedToo
    rw [List.mem_append, not_or]
    exact ⟨unclosed, unclosedToo⟩
  have shape : before ++ Byte.openBrace :: inside ++ "\n" ++ closing =
      before ++ Byte.openBrace :: ((inside ++ "\n") ++ Byte.closeBrace :: []) := by
    simp only [List.append_assoc, List.cons_append]
    rfl
  have shapeToo : before ++ Byte.openBrace :: inside ++ "\n" ++ single =
      before ++ Byte.openBrace :: ((inside ++ "\nx\x7b") ++ Byte.closeBrace :: []) := by
    simp only [List.append_assoc, List.cons_append]
    rfl
  have none := withClosing.length_eq
  have one := withSingle.length_eq
  rw [shape, readRules_braces unopened (absent (by decide +kernel)) ordinary, nothing,
    readRules_of_blank rfl, List.append_nil, length_taken_closing] at none
  rw [shapeToo, readRules_braces unopened (absent (by decide +kernel)) ordinary, nothing,
    readRules_of_blank rfl, List.append_nil, length_taken_single, length_taken_rulesOf _ _ _, none] at one
  exact Nat.zero_ne_one one

/-- Only finished sheets leave the next one alone. -/
theorem finished_of_joins {css : Text} (withClosing : Joins css closing)
    (withSingle : Joins css single) (withBehind : Joins css behind) : Finished css := by
  induction css using byBlocks with
  | unopened css unopened => exact .blank (blank_of_joins unopened withSingle withBehind)
  | special before inside unopened marked ih =>
      rcases closes_or_open 0 inside with ⟨content, rest, rfl, closes⟩ | ⟨deeper, still⟩
      · have goesOn : ∀ {next : Text},
            Joins (before ++ Byte.openBrace :: (content ++ rest)) next → Joins rest next := by
          intro next joins
          rw [Joins, readRules_special unopened marked, List.append_assoc, List.append_assoc,
            List.cons_append, readRules_special unopened marked, taken_skipped, taken_skipped,
            List.append_assoc, afterBlock_of_closes closes, afterBlock_of_closes closes] at joins
          rw [Joins, List.append_assoc]
          exact joins
        rw [afterBlock_of_closes closes] at ih
        exact .special unopened marked closes
          (ih (goesOn withClosing) (goesOn withSingle) (goesOn withBehind))
      · have count := withSingle.length_eq
        rw [List.append_assoc, List.append_assoc, List.cons_append,
          readRules_special unopened marked, taken_skipped, still, length_taken_single] at count
        have skipped : afterBlock (deeper + 1) ("\n" ++ single) = [] := by rfl
        rw [skipped, readRules_of_blank rfl] at count
        exact absurd count (Nat.succ_ne_zero _).symm
  | rule before content rest unopened ordinary unclosed ih =>
      have goesOn : ∀ {next : Text},
          Joins (before ++ Byte.openBrace :: (content ++ Byte.closeBrace :: rest)) next →
            Joins rest next := by
        intro next joins
        rw [Joins, readRules_braces unopened unclosed ordinary, List.append_assoc,
          List.append_assoc, List.cons_append, List.append_assoc, List.cons_append,
          readRules_braces unopened unclosed ordinary, taken_append, taken_append,
          List.append_assoc] at joins
        rw [Joins, List.append_assoc]
        exact List.append_cancel_left joins
      exact .rule unopened unclosed ordinary
        (ih (goesOn withClosing) (goesOn withSingle) (goesOn withBehind))
  | unclosed before inside unopened ordinary unclosed =>
      exact absurd withSingle (not_joins_of_unclosed unopened ordinary unclosed withClosing)

/-- A line end is no part of a comment. -/
theorem Uncomments.stripComments_line {css plain : Text} (uncomments : Uncomments css plain)
    (next : Text) : stripComments (css ++ "\n" ++ next) = plain ++ "\n" ++ stripComments next := by
  have line : stripComments ("\n" ++ next) = "\n" ++ stripComments next :=
    stripComments_byte (by rintro ⟨isSlash, -⟩; revert isSlash; decide)
  have apart : ("\n" ++ next : Text).head? ≠ some '*'.toUInt8 := by
    intro isStar
    exact absurd (Option.some.inj isStar) (by decide)
  rw [List.append_assoc, uncomments.stripComments_append apart, line, List.append_assoc]

def rulesIn (css : Text) : List Rule := (Stylesheet.parse css).1.rules

theorem rulesIn_eq (css : Text) : rulesIn css = taken (readRules (stripComments css)) := rfl

/-- A sheet is complete exactly when the rules of every sheet that follows it stay what they are, and
so do its own. -/
theorem complete_iff (css : Text) :
    Complete css ↔ ∀ next, rulesIn (css ++ "\n" ++ next) = rulesIn css ++ rulesIn next := by
  constructor
  · rintro ⟨plain, uncomments, finished⟩ next
    rw [rulesIn_eq, uncomments.stripComments_line, rulesIn_eq, uncomments.stripComments_eq]
    exact finished.joins (stripComments next)
  · intro joined
    rcases uncomments_or_swallows css with ⟨plain, uncomments⟩ | swallows
    · have joins : ∀ {probe : Text}, Uncommented probe → Joins plain probe := by
        intro probe uncommented
        have same := joined probe
        rwa [rulesIn_eq, uncomments.stripComments_line, rulesIn_eq, uncomments.stripComments_eq,
          rulesIn_eq, stripComments_of_uncommented uncommented] at same
      refine ⟨plain, uncomments, finished_of_joins ?_ ?_ ?_⟩
      all_goals
        apply joins
        decide +kernel
    · have never : NeverCloses ("\n" ++ single) := ⟨by decide +kernel, by decide +kernel⟩
      have same := joined single
      have uncommented : Uncommented single := by decide +kernel
      rw [rulesIn_eq, List.append_assoc, swallows _ never, rulesIn_eq single,
        stripComments_of_uncommented uncommented] at same
      have count := congrArg List.length same
      rw [List.length_append, length_taken_single] at count
      exact absurd count (Nat.succ_ne_self _).symm

/-- The line end after the last sheet does not count, whatever the sheet leaves open. -/
theorem rulesIn_append_line (css : Text) : rulesIn (css ++ "\n") = rulesIn css := by
  rw [rulesIn_eq, rulesIn_eq]
  rcases uncomments_or_swallows css with ⟨plain, uncomments⟩ | swallows
  · have ends := uncomments.stripComments_line []
    rw [stripComments, List.append_nil, List.append_nil] at ends
    rw [ends, uncomments.stripComments_eq, readRules_append_blank (by decide +kernel)]
  · rw [swallows "\n" ⟨by decide +kernel, by decide +kernel⟩]

/-- Sheets with a line end after each, all complete but the last, keep their rules. -/
theorem rulesIn_lines {sheets : List Text} (complete : ∀ sheet ∈ sheets.dropLast, Complete sheet) :
    rulesIn (sheets.flatMap (· ++ "\n")) = sheets.flatMap rulesIn := by
  induction sheets with
  | nil => 
      rw [List.flatMap_nil, List.flatMap_nil, rulesIn_eq, stripComments, readRules_of_blank rfl]
      rfl
  | cons sheet rest ih =>
      cases rest with
      | nil => rw [List.flatMap_singleton, List.flatMap_singleton, rulesIn_append_line]
      | cons next others =>
          have first : Complete sheet := complete sheet List.mem_cons_self
          have remaining := ih fun other member => complete other (List.mem_cons_of_mem _ member)
          rw [List.flatMap_cons, (complete_iff sheet).mp first, remaining]
          rfl

end SlidePress.Css
