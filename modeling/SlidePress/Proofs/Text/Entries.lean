import SlidePress.Proofs.Text.Case
import SlidePress.Text.Pieces

/-! Trimmed texts and lists of entries. White space at the ends of a text does not count, and a text
without any is kept when others are joined to it. Entries in which parentheses balance, and which
hold the separator only inside of them, can be listed with separators between them and are found
again one by one. -/

namespace SlidePress.Text

/-! ## White space at the ends -/

section Trimming

variable {first second gap : Text} {mark : UInt8}

theorem isBlank_space : isBlank " " = true := by decide +kernel

theorem trimLeft_blank_append (blank : gap.isBlank = true) (text : Text) :
    trimLeft (gap ++ text) = trimLeft text :=
  List.dropWhile_append_of_pos (List.all_eq_true.mp blank)

theorem trimRight_append_blank (blank : gap.isBlank = true) (text : Text) :
    trimRight (text ++ gap) = trimRight text := by
  have mirrored : isBlank gap.reverse = true := by
    rw [isBlank, List.all_reverse]
    exact blank
  rw [trimRight, trimRight, List.reverse_append]
  exact congrArg List.reverse (trimLeft_blank_append mirrored text.reverse)

theorem not_mem_of_blank (solid : Byte.isSpace mark = false) (blank : gap.isBlank = true) :
    mark ∉ gap :=
  fun member => Bool.false_ne_true (solid.symm.trans (List.all_eq_true.mp blank mark member))

theorem trimLeft_of_blank (blank : gap.isBlank = true) : trimLeft gap = [] := by
  have empty := trimLeft_blank_append blank []
  rwa [List.append_nil] at empty

theorem trim_of_blank (blank : gap.isBlank = true) : trim gap = [] := by
  rw [trim, trimLeft_of_blank blank]
  rfl

theorem trim_blank_append (blank : gap.isBlank = true) (text : Text) :
    trim (gap ++ text) = trim text := by
  rw [trim, trim, trimLeft_blank_append blank]

theorem trim_append_blank (blank : gap.isBlank = true) (text : Text) :
    trim (text ++ gap) = trim text := by
  have split : trimLeft (text ++ gap) =
      if (trimLeft text).isEmpty then trimLeft gap else trimLeft text ++ gap :=
    List.dropWhile_append
  rw [trim, trim, split]
  split
  · rename_i empty
    rw [trimLeft_of_blank blank, List.isEmpty_iff.mp empty]
  · exact trimRight_append_blank blank _

/-- A byte that is no white space keeps all that follows it from the left. -/
theorem trimLeft_append_cons (solid : Byte.isSpace mark = false) (first second : Text) :
    trimLeft (first ++ mark :: second) = trimLeft first ++ mark :: second := by
  induction first with
  | nil => simp [trimLeft, solid]
  | cons byte rest ih =>
      by_cases space : Byte.isSpace byte = true
      · simpa [trimLeft, space] using ih
      · simp [trimLeft, space]

/-- A byte that is no white space keeps all that stands before it from the right. -/
theorem trimRight_append_cons (solid : Byte.isSpace mark = false) (first second : Text) :
    trimRight (first ++ mark :: second) = first ++ mark :: trimRight second := by
  have mirrored := trimLeft_append_cons solid second.reverse first.reverse
  have text : (first ++ mark :: second).reverse = second.reverse ++ mark :: first.reverse := by simp
  rw [trimRight, text]
  change (trimLeft (second.reverse ++ mark :: first.reverse)).reverse = _
  rw [mirrored]
  simp [trimRight, trimLeft]

/-- Around a byte that is no white space only the far ends are trimmed. -/
theorem trim_append_cons (solid : Byte.isSpace mark = false) (first second : Text) :
    trim (first ++ mark :: second) = trimLeft first ++ mark :: trimRight second := by
  rw [trim, trimLeft_append_cons solid, trimRight_append_cons solid]

theorem exists_gap (text : Text) : ∃ gap : Text, gap.isBlank = true ∧ text = gap ++ trimLeft text :=
  ⟨text.takeWhile Byte.isSpace, List.all_takeWhile, List.takeWhile_append_dropWhile.symm⟩

theorem exists_tail (text : Text) :
    ∃ tail : Text, tail.isBlank = true ∧ text = trimRight text ++ tail := by
  obtain ⟨gap, blank, whole⟩ := exists_gap text.reverse
  refine ⟨gap.reverse, ?_, ?_⟩
  · rw [isBlank, List.all_reverse]
    exact blank
  · have mirrored := congrArg List.reverse whole
    rwa [List.reverse_reverse, List.reverse_append] at mirrored

/-- Trimming takes white space from both ends and nothing else. -/
theorem exists_ends (text : Text) :
    ∃ gap tail : Text, gap.isBlank = true ∧ tail.isBlank = true ∧
      text = gap ++ trim text ++ tail := by
  obtain ⟨gap, blank, whole⟩ := exists_gap text
  obtain ⟨tail, blankToo, rest⟩ := exists_tail (trimLeft text)
  refine ⟨gap, tail, blank, blankToo, ?_⟩
  rw [List.append_assoc, trim, ← rest]
  exact whole

/-- A text that is not blank begins, after white space, with a byte that shows. -/
theorem exists_solid {text : Text} (solid : text.isBlank = false) :
    ∃ (gap : Text) (mark : UInt8) (rest : Text), text = gap ++ mark :: rest ∧ gap.isBlank = true ∧
      Byte.isSpace mark = false := by
  obtain ⟨gap, blank, whole⟩ := exists_gap text
  cases kept : trimLeft text with
  | nil =>
      rw [kept, List.append_nil] at whole
      rw [whole, blank] at solid
      cases solid
  | cons mark rest =>
      refine ⟨gap, mark, rest, by rw [← kept]; exact whole, blank, ?_⟩
      have stopped := List.head?_dropWhile_not Byte.isSpace text
      rw [show text.dropWhile Byte.isSpace = mark :: rest from kept] at stopped
      simpa using stopped

/-- What follows a text that is not blank does not change how it begins. -/
theorem head?_trim_append {text : Text} (solid : text.isBlank = false) (rest : Text) :
    (trim (text ++ rest)).head? = (trim text).head? := by
  obtain ⟨gap, mark, more, rfl, blank, isSolid⟩ := exists_solid solid
  have begins : ∀ tail : Text, (trim (gap ++ mark :: tail)).head? = some mark := by
    intro tail
    rw [trim_blank_append blank]
    exact congrArg List.head? (trim_append_cons isSolid [] tail)
  rw [List.append_assoc, List.cons_append, begins, begins]

theorem mem_trim (solid : Byte.isSpace mark = false) {text : Text} (member : mark ∈ text) :
    mark ∈ trim text := by
  obtain ⟨gap, tail, blank, blankToo, whole⟩ := exists_ends text
  rw [whole, List.mem_append, List.mem_append] at member
  exact (member.resolve_right (not_mem_of_blank solid blankToo)).resolve_left
    (not_mem_of_blank solid blank)

theorem trim_trimLeft (text : Text) : trim (trimLeft text) = trim text := by
  obtain ⟨gap, blank, whole⟩ := exists_gap text
  have same := trim_blank_append blank (trimLeft text)
  rw [← whole] at same
  exact same.symm

theorem trim_trimRight (text : Text) : trim (trimRight text) = trim text := by
  obtain ⟨tail, blank, whole⟩ := exists_tail text
  have same := trim_append_blank blank (trimRight text)
  rw [← whole] at same
  exact same.symm

theorem trim_trim (text : Text) : trim (trim text) = trim text := by
  change trim (trimRight (trimLeft text)) = trim text
  rw [trim_trimRight, trim_trimLeft]

theorem keyword_trim (text : Text) : keyword (trim text) = keyword text := by
  rw [keyword, trim_trim, keyword]

theorem trimLeft_of_trim {text : Text} (trimmed : trim text = text) : trimLeft text = text := by
  have outer := (List.dropWhile_sublist (l := (trimLeft text).reverse) Byte.isSpace).length_le
  have size : (trim text).length ≤ (trimLeft text).length := by
    rw [trim, trimRight, List.length_reverse]
    rwa [List.length_reverse] at outer
  rw [trimmed] at size
  have suffix : trimLeft text <:+ text := List.dropWhile_suffix _
  exact suffix.eq_of_length (Nat.le_antisymm suffix.length_le size)

theorem trimRight_of_trim {text : Text} (trimmed : trim text = text) : trimRight text = text := by
  have whole := trimmed
  rwa [trim, trimLeft_of_trim trimmed] at whole

theorem trimLeft_append_of_some (some : first ≠ []) (trimmed : trimLeft first = first)
    (second : Text) : trimLeft (first ++ second) = first ++ second := by
  have split : trimLeft (first ++ second) =
      if (trimLeft first).isEmpty then trimLeft second else trimLeft first ++ second :=
    List.dropWhile_append
  rw [split, trimmed, if_neg (by simpa using some)]

theorem trimRight_append_of_some (some : second ≠ []) (trimmed : trimRight second = second)
    (first : Text) : trimRight (first ++ second) = first ++ second := by
  have mirrored : trimLeft second.reverse = second.reverse := by
    rw [← List.reverse_inj, List.reverse_reverse]
    exact trimmed
  have whole := trimLeft_append_of_some (by simpa using some) mirrored first.reverse
  rw [← List.reverse_append] at whole
  rw [trimRight]
  change (trimLeft (first ++ second).reverse).reverse = _
  rw [whole, List.reverse_reverse]

theorem trimLeft_of_head {text : Text}
    (solid : ∀ byte, text.head? = some byte → Byte.isSpace byte = false) : trimLeft text = text := by
  cases text with
  | nil => rfl
  | cons byte rest => exact List.dropWhile_cons_of_neg (by simp [solid byte rfl])

/-- A text is trimmed when neither of its ends is white space. -/
theorem trim_of_ends {text : Text}
    (begins : ∀ byte, text.head? = some byte → Byte.isSpace byte = false)
    (ends : ∀ byte, text.getLast? = some byte → Byte.isSpace byte = false) : trim text = text := by
  have mirrored : trimLeft text.reverse = text.reverse := by
    refine trimLeft_of_head fun byte last => ends byte ?_
    rwa [List.head?_reverse] at last
  rw [trim, trimLeft_of_head begins, trimRight]
  change (trimLeft text.reverse).reverse = text
  rw [mirrored, List.reverse_reverse]

theorem trim_of_solid {text : Text} (solid : ∀ byte ∈ text, Byte.isSpace byte = false) :
    trim text = text :=
  trim_of_ends (fun byte first => solid byte (List.mem_of_head? first))
    fun byte last => solid byte (List.mem_of_getLast? last)

/-- A text between two trimmed ones is kept. -/
theorem trim_append_append (some : first ≠ []) (trimmed : trim first = first)
    (someToo : second ≠ []) (trimmedToo : trim second = second) (between : Text) :
    trim (first ++ between ++ second) = first ++ between ++ second := by
  rw [trim, List.append_assoc, trimLeft_append_of_some some (trimLeft_of_trim trimmed),
    ← List.append_assoc, trimRight_append_of_some someToo (trimRight_of_trim trimmedToo)]

theorem mem_join {between : Text} {texts : List Text} (member : mark ∈ join between texts) :
    mark ∈ between ∨ ∃ text ∈ texts, mark ∈ text := by
  induction texts with
  | nil => cases member
  | cons text rest ih =>
      cases rest with
      | nil => exact .inr ⟨text, List.mem_cons_self, member⟩
      | cons next others =>
          rw [join, List.mem_append, List.mem_append] at member
          · rcases member with (inFirst | inBetween) | inRest
            · exact .inr ⟨text, List.mem_cons_self, inFirst⟩
            · exact .inl inBetween
            · rcases ih inRest with inBetween | ⟨other, listed, inside⟩
              · exact .inl inBetween
              · exact .inr ⟨other, List.mem_cons_of_mem _ listed, inside⟩
          · exact List.cons_ne_nil _ _

/-- Trimmed texts stay so when they are joined. -/
theorem trim_join (between : Text) {texts : List Text} (listed : texts ≠ [])
    (some : ∀ text ∈ texts, text ≠ []) (trimmed : ∀ text ∈ texts, trim text = text) :
    join between texts ≠ [] ∧ trim (join between texts) = join between texts := by
  induction texts with
  | nil => exact (listed rfl).elim
  | cons text rest ih =>
      have someFirst := some text List.mem_cons_self
      have trimmedFirst := trimmed text List.mem_cons_self
      cases rest with
      | nil => exact ⟨someFirst, trimmedFirst⟩
      | cons next others =>
          obtain ⟨someRest, trimmedRest⟩ := ih (List.cons_ne_nil _ _)
            (fun other member => some other (List.mem_cons_of_mem _ member))
            (fun other member => trimmed other (List.mem_cons_of_mem _ member))
          refine ⟨fun empty => someRest (List.append_eq_nil_iff.mp empty).2, ?_⟩
          exact trim_append_append someFirst trimmedFirst someRest trimmedRest between

end Trimming

/-! ## Parentheses -/

def openAfter? : Nat → Text → Option Nat
  | depth, [] => some depth
  | depth, byte :: rest =>
      if byte = '('.toUInt8 then openAfter? (depth + 1) rest
      else if byte = ')'.toUInt8 then
        match depth with
        | 0 => none
        | outer + 1 => openAfter? outer rest
      else openAfter? depth rest

def outside : Nat → Text → Text
  | _, [] => []
  | depth, byte :: rest =>
      if byte = '('.toUInt8 then outside (depth + 1) rest
      else if byte = ')'.toUInt8 then outside (depth - 1) rest
      else if depth = 0 then byte :: outside depth rest
      else outside depth rest

def Balanced (text : Text) : Prop := openAfter? 0 text = some 0

instance (text : Text) : Decidable (Balanced text) := inferInstanceAs (Decidable (_ = _))

/-- A byte that can stand between entries: neither a parenthesis nor white space. -/
structure Divides (separator : UInt8) : Prop where
  notOpen : separator ≠ '('.toUInt8
  notClose : separator ≠ ')'.toUInt8
  solid : Byte.isSpace separator = false

/-- A text that can be an entry of a list: its parentheses balance, and the separator stands only
inside of them. -/
structure Entry (separator : UInt8) (text : Text) : Prop where
  balanced : Balanced text
  uncut : separator ∉ outside 0 text

section Pieces

variable {separates : UInt8 → Bool}

/-- A text without a separator outside of parentheses is part of one piece, up to its end. -/
theorem piecesFrom_append (notClose : separates ')'.toUInt8 = false) {text : Text} {depth : Nat}
    (uncut : ∀ byte ∈ outside depth text, separates byte = false) (rest : Text) :
    piecesFrom separates depth (text ++ rest) =
      (text ++ (piecesFrom separates (text.foldl nesting depth) rest).1,
        (piecesFrom separates (text.foldl nesting depth) rest).2) := by
  induction text generalizing depth with
  | nil => rfl
  | cons byte more ih =>
      rw [outside] at uncut
      rw [List.cons_append, piecesFrom, List.foldl_cons]
      dsimp only
      split at uncut
      · rename_i isOpen
        have inner : nesting depth byte = depth + 1 := by simp [nesting, isOpen]
        rw [inner, ih uncut]
        simp
      · rename_i notOpened
        split at uncut
        · rename_i isClose
          have inner : nesting depth byte = depth - 1 := by
            rw [isClose]
            rfl
          rw [inner, ih uncut]
          simp [isClose, notClose]
        · rename_i notClosed
          have inner : nesting depth byte = depth := by simp [nesting, notOpened, notClosed]
          split at uncut
          · have other := uncut byte List.mem_cons_self
            rw [inner, ih fun later member => uncut later (List.mem_cons_of_mem _ member)]
            simp [other]
          · rename_i deep
            rw [inner, ih uncut]
            simp [deep]

theorem pieces_of_uncut (notClose : separates ')'.toUInt8 = false) {text : Text}
    (uncut : ∀ byte ∈ outside 0 text, separates byte = false) : pieces separates text = [text] := by
  have whole := piecesFrom_append notClose uncut []
  rw [List.append_nil] at whole
  rw [pieces, whole]
  simp [piecesFrom]

end Pieces

section Entries

variable {separator : UInt8}

theorem Divides.closeKept (divides : Divides separator) : (')'.toUInt8 == separator) = false := by
  simpa using divides.notClose.symm

theorem beq_false_of_not_mem {text : Text} (absent : separator ∉ text) :
    ∀ byte ∈ text, (byte == separator) = false := by
  intro byte member
  rw [beq_eq_false_iff_ne]
  rintro rfl
  exact absent member

/-- Where parentheses are only closed after they were opened, the depth counts the open ones. -/
theorem foldl_nesting {text : Text} {depth final : Nat}
    (ends : openAfter? depth text = some final) : text.foldl nesting depth = final := by
  induction text generalizing depth with
  | nil => simpa [openAfter?] using ends
  | cons byte rest ih =>
      simp only [openAfter?] at ends
      rw [List.foldl_cons]
      split at ends
      · rename_i isOpen
        rw [isOpen]
        exact ih ends
      · rename_i notOpened
        split at ends
        · rename_i isClose
          split at ends
          · cases ends
          · rw [isClose]
            exact ih ends
        · rename_i notClosed
          have level : nesting depth byte = depth := by simp [nesting, notOpened, notClosed]
          rw [level]
          exact ih ends

theorem openAfter?_append (depth : Nat) (first second : Text) :
    openAfter? depth (first ++ second) = (openAfter? depth first).bind (openAfter? · second) := by
  induction first generalizing depth with
  | nil => rfl
  | cons byte rest ih =>
      simp only [List.cons_append, openAfter?]
      split
      · exact ih _
      · split
        · cases depth with
          | zero => rfl
          | succ outer => exact ih _
        · exact ih _

theorem outside_append (depth : Nat) (first second : Text) :
    outside depth (first ++ second) =
      outside depth first ++ outside (first.foldl nesting depth) second := by
  induction first generalizing depth with
  | nil => rfl
  | cons byte rest ih =>
      rw [List.cons_append, outside, outside, List.foldl_cons]
      split
      · rename_i isOpen
        rw [isOpen]
        exact ih _
      · rename_i notOpened
        split
        · rename_i isClose
          rw [isClose]
          exact ih _
        · rename_i notClosed
          have level : nesting depth byte = depth := by simp [nesting, notOpened, notClosed]
          rw [level]
          split
          · rw [ih, List.cons_append]
          · exact ih _

theorem mem_of_mem_outside {depth : Nat} {text : Text} {byte : UInt8}
    (member : byte ∈ outside depth text) : byte ∈ text := by
  induction text generalizing depth with
  | nil => cases member
  | cons first rest ih =>
      rw [outside] at member
      split at member
      · exact List.mem_cons_of_mem _ (ih member)
      · split at member
        · exact List.mem_cons_of_mem _ (ih member)
        · split at member
          · exact (List.mem_cons.mp member).elim (fun same => same ▸ List.mem_cons_self)
              fun later => List.mem_cons_of_mem _ (ih later)
          · exact List.mem_cons_of_mem _ (ih member)

/-- Lowering leaves parentheses where they are. -/
theorem outside_lower (depth : Nat) (text : Text) :
    outside depth (lower text) = lower (outside depth text) := by
  induction text generalizing depth with
  | nil => rfl
  | cons byte rest ih =>
      have split : lower (byte :: rest) = Byte.toLower byte :: lower rest := rfl
      have openAlike : Byte.toLower byte = '('.toUInt8 ↔ byte = '('.toUInt8 :=
        Byte.toLower_eq_iff (by decide)
      have closeAlike : Byte.toLower byte = ')'.toUInt8 ↔ byte = ')'.toUInt8 :=
        Byte.toLower_eq_iff (by decide)
      rw [split, outside, outside]
      simp only [openAlike, closeAlike, ih]
      split
      · rfl
      · split
        · rfl
        · split <;> rfl

/-- An open parenthesis that nothing closes has all of the text inside. -/
theorem outside_of_unclosed {text : Text} (unclosed : ')'.toUInt8 ∉ text) (depth : Nat) :
    outside (depth + 1) text = [] := by
  induction text generalizing depth with
  | nil => rfl
  | cons byte rest ih =>
      rw [List.mem_cons, not_or] at unclosed
      rw [outside, if_neg (Ne.symm unclosed.1), if_neg (Nat.succ_ne_zero depth)]
      split
      · exact ih unclosed.2 _
      · exact ih unclosed.2 depth

/-- Outside of parentheses a call shows no more than what stands before and behind it. -/
theorem mem_outside_call {first body second : Text} {byte : UInt8} (inner : ')'.toUInt8 ∉ body)
    (member : byte ∈ outside 0 (first ++ '('.toUInt8 :: (body ++ ')'.toUInt8 :: second))) :
    byte ∈ first ∨ byte ∈ second := by
  rw [outside_append, List.mem_append] at member
  refine member.imp mem_of_mem_outside fun called => ?_
  rw [outside, if_pos rfl, outside_append, outside_of_unclosed inner, List.nil_append, outside,
    if_neg (by decide), if_pos rfl] at called
  exact mem_of_mem_outside called

/-- Without parentheses a text changes nothing, and all of it lies outside of them. -/
theorem balanced_of_plain {text : Text} (noOpen : '('.toUInt8 ∉ text)
    (noClose : ')'.toUInt8 ∉ text) : Balanced text ∧ outside 0 text = text := by
  induction text with
  | nil => exact ⟨rfl, rfl⟩
  | cons byte rest ih =>
      rw [List.mem_cons, not_or] at noOpen noClose
      obtain ⟨balanced, all⟩ := ih noOpen.2 noClose.2
      rw [Balanced] at balanced ⊢
      constructor
      · simpa only [openAfter?, if_neg (Ne.symm noOpen.1), if_neg (Ne.symm noClose.1)] using
          balanced
      · simp only [outside, if_neg (Ne.symm noOpen.1), if_neg (Ne.symm noClose.1), if_true, all]

namespace Entry

theorem of_plain {text : Text} (noOpen : '('.toUInt8 ∉ text) (noClose : ')'.toUInt8 ∉ text)
    (absent : separator ∉ text) : Entry separator text := by
  obtain ⟨balanced, all⟩ := balanced_of_plain noOpen noClose
  exact ⟨balanced, by rwa [all]⟩

theorem of_blank (divides : Divides separator) {gap : Text} (blank : gap.isBlank = true) :
    Entry separator gap :=
  of_plain (not_mem_of_blank (by decide) blank) (not_mem_of_blank (by decide) blank)
    (not_mem_of_blank divides.solid blank)

theorem append {first second : Text} (entry : Entry separator first)
    (other : Entry separator second) : Entry separator (first ++ second) := by
  have ends : openAfter? 0 first = some 0 := entry.balanced
  constructor
  · rw [Balanced, openAfter?_append, ends]
    exact other.balanced
  · rw [outside_append, foldl_nesting ends, List.mem_append, not_or]
    exact ⟨entry.uncut, other.uncut⟩

end Entry

/-! ## Lists of entries -/

/-- The entries are the trimmed pieces, but for a last one that is blank. -/
theorem entries_eq (text : Text) :
    entries separator text =
      if ((pieces (· == separator) text).map trim).getLast? == some [] then
        ((pieces (· == separator) text).map trim).dropLast
      else (pieces (· == separator) text).map trim :=
  rfl

variable (divides : Divides separator)
include divides

theorem pieces_entry {text : Text} (uncut : separator ∉ outside 0 text) :
    pieces (· == separator) text = [text] :=
  pieces_of_uncut divides.closeKept (beq_false_of_not_mem uncut)

theorem pieces_entry_append {text : Text} (entry : Entry separator text) (rest : Text) :
    pieces (· == separator) (text ++ separator :: rest) = text :: pieces (· == separator) rest := by
  have whole := piecesFrom_append divides.closeKept (beq_false_of_not_mem entry.uncut)
    (separator :: rest)
  have level : nesting 0 separator = 0 := by simp [nesting, divides.notOpen, divides.notClose]
  rw [pieces, whole, foldl_nesting entry.balanced, piecesFrom]
  simp [pieces, level]

theorem entries_of_blank {gap : Text} (blank : gap.isBlank = true) :
    entries separator gap = [] := by
  rw [entries_eq, pieces_entry divides (Entry.of_blank divides blank).uncut, List.map_singleton,
    trim_of_blank blank]
  rfl

theorem entries_entry {text : Text} (uncut : separator ∉ outside 0 text) (some : trim text ≠ []) :
    entries separator text = [trim text] := by
  rw [entries_eq, pieces_entry divides uncut]
  simp [some]

theorem entries_entry_append {text : Text} (entry : Entry separator text) (rest : Text) :
    entries separator (text ++ separator :: rest) = trim text :: entries separator rest := by
  have others : (pieces (· == separator) rest).map trim ≠ [] := by simp [pieces]
  rw [entries_eq, entries_eq, pieces_entry_append divides entry, List.map_cons,
    List.getLast?_cons_of_ne_nil others, List.dropLast_cons_of_ne_nil others]
  split <;> rfl

/-- Entries that are listed with a separator and white space between neighbours are found again. -/
theorem entries_join {lead gap tail : Text} (blankLead : lead.isBlank = true)
    (blankGap : gap.isBlank = true) (blankTail : tail.isBlank = true) {items : List Text}
    (entry : ∀ item ∈ items, Entry separator item) (some : ∀ item ∈ items, trim item ≠ []) :
    entries separator (lead ++ join (separator :: gap) items ++ tail) = items.map trim := by
  induction items generalizing lead with
  | nil =>
      have blank : isBlank (lead ++ tail) = true := by
        rw [isBlank, List.all_append, Bool.and_eq_true]
        exact ⟨blankLead, blankTail⟩
      rw [join, List.append_nil]
      exact entries_of_blank divides blank
  | cons item rest ih =>
      have first := (Entry.of_blank divides blankLead).append (entry item List.mem_cons_self)
      have someFirst := some item List.mem_cons_self
      cases rest with
      | nil =>
          have single := first.append (Entry.of_blank divides blankTail)
          have ends : trim (lead ++ item ++ tail) = trim item := by
            rw [trim_append_blank blankTail, trim_blank_append blankLead]
          rw [join, entries_entry divides single.uncut (by rwa [ends]), ends]
          rfl
      | cons next others =>
          have remaining := ih blankGap
            (fun other member => entry other (List.mem_cons_of_mem _ member))
            (fun other member => some other (List.mem_cons_of_mem _ member))
          have shape : lead ++ join (separator :: gap) (item :: next :: others) ++ tail =
              (lead ++ item) ++
                separator :: (gap ++ join (separator :: gap) (next :: others) ++ tail) := by
            simp [join]
          rw [shape, entries_entry_append divides first, remaining, trim_blank_append blankLead]
          rfl

end Entries

/-! ## Tokens -/

def Unspaced (text : Text) : Prop := ∀ byte ∈ outside 0 text, Byte.isSpace byte = false

instance (text : Text) : Decidable (Unspaced text) :=
  inferInstanceAs (Decidable (∀ byte ∈ outside 0 text, _))

namespace Unspaced

variable {text : Text}

/-- Such a text does not begin with white space, but it can end in some, where a parenthesis is
still open. -/
theorem trimLeft (unspaced : Unspaced text) : trimLeft text = text := by
  refine trimLeft_of_head fun byte first => ?_
  obtain ⟨rest, rfl⟩ := List.head?_eq_some_iff.mp first
  rw [Unspaced, outside] at unspaced
  split at unspaced
  · rename_i isOpen
    rw [isOpen]
    decide
  · split at unspaced
    · rename_i isClose
      rw [isClose]
      decide
    · exact unspaced byte List.mem_cons_self

theorem exists_tail (unspaced : Unspaced text) :
    ∃ tail : Text, tail.isBlank = true ∧ text = trim text ++ tail := by
  rw [trim, unspaced.trimLeft]
  exact Text.exists_tail text

theorem trim (unspaced : Unspaced text) : Unspaced (trim text) := by
  obtain ⟨tail, -, whole⟩ := unspaced.exists_tail
  intro byte member
  refine unspaced byte ?_
  rw [whole, outside_append]
  exact List.mem_append_left _ member

theorem tokens (unspaced : Unspaced text) (some : text ≠ []) : tokens text = [text] := by
  rw [Text.tokens, pieces_of_uncut (by decide) unspaced]
  simp [some]

end Unspaced

end SlidePress.Text
