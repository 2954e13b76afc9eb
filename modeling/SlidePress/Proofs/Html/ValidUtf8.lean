import SlidePress.Proofs.Html.Nesting
import SlidePress.Proofs.Html.References
import SlidePress.Proofs.Text.Marks
import SlidePress.Proofs.Text.ValidUtf8

/-! Reading keeps valid UTF-8. A reader works on bytes, but every place where it cuts a text lies
beside a byte of ASCII or at the end of a run that takes in all bytes beyond ASCII or none, so no
character is ever cut; and what references are replaced by is encoded as characters. -/

namespace SlidePress.Html.Reference

open Payload (IsUtf8)

/-! ## References -/

/-- A text, and what it becomes when some references in it are replaced by their characters. -/
inductive Replaced : Text → Text → Prop where
  | nil : Replaced [] []
  | kept {text shown : Text} (piece : Text) (rest : Replaced text shown) :
      Replaced (piece ++ text) (piece ++ shown)
  | read {body text shown : Text} {point : Nat} (refers : Refers body point)
      (writable : 0 < point ∧ point.isValidChar) (rest : Replaced text shown) :
      Replaced (reference body ++ text) (String.utf8EncodeChar (Char.ofNat point) ++ shown)

/-- A decimal digit has a value below ten. -/
theorem digit_of_decimalDigit? {byte : UInt8} {value : Nat} (digit : decimalDigit? byte = some value) :
    Byte.hexDigit? byte = some value ∧ value < 10 := by
  unfold decimalDigit? at digit
  split at digit
  · rename_i decimal
    refine ⟨digit, ?_⟩
    rw [Byte.hexDigit?, if_pos decimal] at digit
    have same := Option.some.inj digit
    simp only [Byte.isDigit, Bool.and_eq_true, decide_eq_true_eq, UInt8.le_iff_toNat_le,
      UInt8.toNat_ofNat] at decimal
    omega
  · cases digit

/-- What is read as a number are some digits, each with its value. -/
theorem read_of_digits? {base number : Nat} {digit? : UInt8 → Option Nat} {digits : Text}
    (known : digits? base digit? digits = some number) :
    digits ≠ [] ∧ ∃ values, List.Forall₂ (fun byte value => digit? byte = some value) digits values ∧
      number = Nat.ofDigits base values.reverse := by
  have nonempty : digits ≠ [] := by
    rintro rfl
    cases known
  have read : List.Forall₂ (fun byte value => digit? byte = some value) digits
      (digits.map fun byte => (digit? byte).getD 0) := by
    rw [List.forall₂_map_right_iff, List.forall₂_same]
    intro byte member
    obtain ⟨value, same⟩ := Option.isSome_iff_exists.mp (isSome_of_digits? known byte member)
    rw [same, Option.getD_some]
  exact ⟨nonempty, _, read, Option.some.inj (known.symm.trans (digits?_of_read nonempty read))⟩

theorem hexadecimal_mark {mark : UInt8} (marked : (Byte.toLower mark == 'x'.toUInt8) = true) :
    mark = 'x'.toUInt8 ∨ mark = 'X'.toUInt8 := by
  have lowered := beq_iff_eq.mp marked
  rw [Byte.toLower] at lowered
  split at lowered
  · right
    have sum : (mark + 32).toNat = 120 := by rw [lowered]; rfl
    rw [UInt8.toNat_add] at sum
    change (mark.toNat + 32) % 256 = 120 at sum
    rw [← UInt8.toNat_inj]
    change mark.toNat = 88
    have small := mark.toNat_lt
    omega
  · exact .inl lowered

theorem refers_of_codePoint? {body : Text} {point : Nat} (known : codePoint? body = some point) :
    Refers body point := by
  unfold codePoint? at known
  split at known
  · rename_i mark digits
    split at known
    · rename_i isNumber
      rw [beq_iff_eq.mp isNumber]
      split at known
      · rename_i first rest
        split at known
        · rename_i marked
          obtain ⟨nonempty, values, read, rfl⟩ := read_of_digits? known
          exact .hexadecimal (hexadecimal_mark marked) nonempty read
        · obtain ⟨nonempty, values, read, rfl⟩ := read_of_digits? known
          exact .decimal nonempty (read.imp fun _ _ => digit_of_decimalDigit?)
      · cases known
    · cases known
  · cases known

/-- A body is replaced by the encoding of the character that it refers to, and by nothing else. -/
theorem refers_of_character? {body character : Text} (known : character? body = some character) :
    ∃ point, Refers body point ∧ (0 < point ∧ point.isValidChar) ∧
      character = String.utf8EncodeChar (Char.ofNat point) := by
  unfold character? at known
  split at known
  · rename_i name point found
    have listed := List.mem_of_find?_eq_some found
    have same := beq_iff_eq.mp (List.find?_some (p := fun entry : Text × Nat => entry.1 == body) found)
    dsimp only at same
    subst same
    obtain ⟨refers, writable, -⟩ := recognized_of_listed listed
    refine ⟨point, refers, writable, ?_⟩
    rw [← Utf8.encode_eq (Utf8.isWritable_iff.mpr writable)]
    exact (Option.some.inj known).symm
  · split at known
    · rename_i point read
      split at known
      · rename_i writable
        refine ⟨point, refers_of_codePoint? read, Utf8.isWritable_iff.mp writable, ?_⟩
        rw [← Utf8.encode_eq writable]
        exact (Option.some.inj known).symm
      · cases known
    · cases known

/-- Decoding replaces references and changes nothing else. -/
theorem replaced_decode (text : Text) : Replaced text (decode text) := by
  induction text using decode.induct with
  | case1 => rw [decode_nil]; exact .nil
  | case2 byte rest isAmpersand body more found short ih =>
      obtain ⟨rfl, closed⟩ := Text.splitAtByte?_eq_some found
      obtain rfl := beq_iff_eq.mp isAmpersand
      have shape : '&'.toUInt8 :: (body ++ ';'.toUInt8 :: more) = reference body ++ more := by
        simp [reference]
      rw [decode_body closed short]
      cases known : character? body with
      | none =>
          rw [Option.getD_none, shape]
          exact .kept (reference body) ih
      | some character =>
          obtain ⟨point, refers, writable, rfl⟩ := refers_of_character? known
          rw [Option.getD_some, shape]
          exact .read refers writable ih
  | case3 byte rest isAmpersand body more found long ih =>
      obtain ⟨rfl, closed⟩ := Text.splitAtByte?_eq_some found
      obtain rfl := beq_iff_eq.mp isAmpersand
      rw [decode_ampersand_long closed (Nat.lt_of_not_le long)]
      exact .kept ['&'.toUInt8] ih
  | case4 byte rest isAmpersand missing ih =>
      obtain rfl := beq_iff_eq.mp isAmpersand
      rw [decode_ampersand_open (Text.splitAtByte?_eq_none.mp missing)]
      exact .kept ['&'.toUInt8] ih
  | case5 byte rest other ih =>
      rw [decode_cons_of_ne fun same => other (beq_iff_eq.mpr same)]
      exact .kept [byte] ih

/-- Valid UTF-8 stays valid when references in it are replaced. A piece that is kept need not end
with a character, so what stands before the rest is carried along. -/
theorem Replaced.isUtf8 {text shown : Text} (replaced : Replaced text shown) {earlier : Text}
    (valid : IsUtf8 (earlier ++ text)) : IsUtf8 (earlier ++ shown) := by
  induction replaced generalizing earlier with
  | nil => exact valid
  | kept piece _ ih =>
      rw [← List.append_assoc] at valid ⊢
      exact ih valid
  | @read body text _ point _ _ _ ih =>
      have shape : earlier ++ (reference body ++ text) =
          earlier ++ '&'.toUInt8 :: (body ++ ';'.toUInt8 :: text) := by simp [reference]
      rw [shape] at valid
      obtain ⟨before, inner⟩ := Utf8.isUtf8_around valid (by decide)
      obtain ⟨-, behind⟩ := Utf8.isUtf8_around inner (by decide)
      rw [← List.append_assoc]
      exact ih (Utf8.isUtf8_append (Utf8.isUtf8_append before (Utf8.isUtf8_encoded _)) behind)

theorem isUtf8_decode {text : Text} (valid : IsUtf8 text) : IsUtf8 (decode text) :=
  (replaced_decode text).isUtf8 (show IsUtf8 ([] ++ text) from valid)

end SlidePress.Html.Reference

namespace SlidePress.Html

open Payload (IsUtf8)

/-! ## Tokens -/

def Properties.Encoded (attributes : Properties) : Prop :=
  ∀ entry ∈ attributes.entries, IsUtf8 entry.1 ∧ IsUtf8 entry.2

structure Element.Encoded (head : Element) : Prop where
  tag : IsUtf8 head.tag
  attributes : Properties.Encoded head.attributes

theorem Properties.Encoded.insertNew {found : Properties} {name value : Text}
    (encoded : Properties.Encoded found) (validName : IsUtf8 name) (validValue : IsUtf8 value) :
    Properties.Encoded (found.insertNew name value) := by
  unfold Table.insertNew
  split
  · exact encoded
  · intro entry member
    rcases Table.mem_insertEntry member with same | inside
    · exact same ▸ ⟨validName, validValue⟩
    · exact encoded entry inside

namespace Token

variable {text : Text}

def Encoded : Token → Prop
  | .text content => IsUtf8 content
  | .startTag head _ => head.Encoded
  | .rawElement head content _ => head.Encoded ∧ IsUtf8 content
  | _ => True

theorem ascii_of_isSpace {byte : UInt8} (space : Byte.isSpace byte = true) : byte.toNat < 128 := by
  by_contra beyond
  rw [Utf8.isSpace_of_beyond (Nat.le_of_not_lt beyond)] at space
  cases space

theorem isAttributeNameByte_of_beyond {byte : UInt8} (beyond : 128 ≤ byte.toNat) :
    isAttributeNameByte byte = true := by
  have other : ∀ mark : UInt8, mark.toNat < 128 → (byte == mark) = false := by
    intro mark ascii
    rw [beq_eq_false_iff_ne]
    rintro rfl
    omega
  rw [isAttributeNameByte, Utf8.isSpace_of_beyond beyond, other _ (by decide), other _ (by decide),
    other _ (by decide)]
  rfl

theorem isNameByte_of_beyond {byte : UInt8} (beyond : 128 ≤ byte.toNat) :
    isNameByte byte = false := by
  simp only [isNameByte, Byte.isAlphanumeric, Byte.isLetter, Byte.isUpper, Byte.isLower, Byte.isDigit,
    Bool.or_eq_false_iff, Bool.and_eq_false_iff, decide_eq_false_iff_not, beq_eq_false_iff_ne, ne_eq,
    ← UInt8.toNat_inj, UInt8.le_iff_toNat_le]
  change ((((((¬ 65 ≤ byte.toNat ∨ ¬ byte.toNat ≤ 90) ∧ (¬ 97 ≤ byte.toNat ∨ ¬ byte.toNat ≤ 122)) ∧
    (¬ 48 ≤ byte.toNat ∨ ¬ byte.toNat ≤ 57)) ∧ ¬ byte.toNat = 45) ∧ ¬ byte.toNat = 95) ∧
    ¬ byte.toNat = 58) ∧ ¬ byte.toNat = 46
  omega

theorem isUtf8_attributeName (valid : IsUtf8 text) :
    IsUtf8 (text.takeWhile isAttributeNameByte) ∧ IsUtf8 (text.dropWhile isAttributeNameByte) :=
  Utf8.isUtf8_runs _ (fun _ _ beyond beyondToo => by
    rw [isAttributeNameByte_of_beyond beyond, isAttributeNameByte_of_beyond beyondToo]) valid

theorem isUtf8_tagName (valid : IsUtf8 text) :
    IsUtf8 (text.takeWhile isNameByte) ∧ IsUtf8 (text.dropWhile isNameByte) :=
  Utf8.isUtf8_runs _ (fun _ _ beyond beyondToo => by
    rw [isNameByte_of_beyond beyond, isNameByte_of_beyond beyondToo]) valid

/-- A value without quotation marks ends in front of a byte of ASCII. -/
theorem readBareValue_whole (text : Text) :
    text = (readBareValue text).1 ++ (readBareValue text).2 ∧
      ∀ byte, (readBareValue text).2.head? = some byte → byte.toNat < 128 := by
  induction text with
  | nil => exact ⟨rfl, nofun⟩
  | cons byte rest ih =>
      rw [readBareValue]
      split
      · rename_i ends
        refine ⟨rfl, fun first same => ?_⟩
        cases same
        simp only [Bool.or_eq_true, Bool.and_eq_true, beq_iff_eq] at ends
        rcases ends with (space | rfl) | ⟨rfl, -⟩
        · exact ascii_of_isSpace space
        · decide
        · decide
      · exact ⟨congrArg (byte :: ·) ih.1, ih.2⟩

theorem isUtf8_readBareValue (valid : IsUtf8 text) :
    IsUtf8 (readBareValue text).1 ∧ IsUtf8 (readBareValue text).2 := by
  obtain ⟨whole, ascii⟩ := readBareValue_whole text
  exact Utf8.isUtf8_beside (whole ▸ valid) ascii

theorem isUtf8_readValue (valid : IsUtf8 text) :
    IsUtf8 (readValue text).1 ∧ IsUtf8 (readValue text).2 := by
  cases text with
  | nil => exact ⟨Utf8.isUtf8_nil, Utf8.isUtf8_nil⟩
  | cons quote rest =>
      rw [readValue]
      split
      · rename_i quoted
        have ascii : quote.toNat < 128 := by
          simp only [Bool.or_eq_true, beq_iff_eq] at quoted
          rcases quoted with rfl | rfl <;> decide
        exact Utf8.isUtf8_before_after (Utf8.isUtf8_tail valid ascii) ascii
      · exact isUtf8_readBareValue valid

theorem isUtf8_readAssignment (valid : IsUtf8 text) :
    IsUtf8 (readAssignment text).1 ∧ IsUtf8 (readAssignment text).2 := by
  have trimmed := Utf8.isUtf8_trimLeft valid
  unfold readAssignment
  split
  · rename_i byte rest same
    rw [same] at trimmed
    split
    · rename_i assigns
      rw [beq_iff_eq.mp assigns] at trimmed
      exact isUtf8_readValue (Utf8.isUtf8_trimLeft (Utf8.isUtf8_tail trimmed (by decide)))
    · exact ⟨Utf8.isUtf8_nil, trimmed⟩
  · exact ⟨Utf8.isUtf8_nil, Utf8.isUtf8_nil⟩

/-- The attributes of a tag; a byte that fits nowhere is passed over, and it is one of ASCII. -/
theorem encoded_readAttributes {found : Properties} (encoded : Properties.Encoded found)
    (valid : IsUtf8 text) :
    Properties.Encoded (readAttributes found text).1 ∧ IsUtf8 (readAttributes found text).2.2 := by
  have trimmed := Utf8.isUtf8_trimLeft valid
  fun_induction readAttributes found text with
  | case1 => exact ⟨encoded, Utf8.isUtf8_nil⟩
  | case2 found text byte rest same closes =>
      rw [same, beq_iff_eq.mp closes] at trimmed
      exact ⟨encoded, Utf8.isUtf8_tail trimmed (by decide)⟩
  | case3 found text byte rest same _ closes =>
      simp only [Bool.and_eq_true, beq_iff_eq] at closes
      obtain ⟨rfl, next⟩ := closes
      obtain ⟨more, rfl⟩ := List.head?_eq_some_iff.mp next
      rw [same] at trimmed
      exact ⟨encoded, Utf8.isUtf8_tail (Utf8.isUtf8_tail trimmed (by decide)) (by decide)⟩
  | case4 found text byte rest same _ _ name unnamed ih =>
      rw [same] at trimmed
      have ascii : byte.toNat < 128 := by
        by_contra beyond
        have inside := isAttributeNameByte_of_beyond (Nat.le_of_not_lt beyond)
        simp [name, inside] at unnamed
      have behind := Utf8.isUtf8_tail trimmed ascii
      exact ih encoded behind (Utf8.isUtf8_trimLeft behind)
  | case5 found text byte rest same _ _ name named assigned ih =>
      rw [same] at trimmed
      obtain ⟨validName, behind⟩ := isUtf8_attributeName trimmed
      have inside : isAttributeNameByte byte = true := by
        by_contra outside
        simp [name, outside] at named
      rw [List.dropWhile_cons_of_pos inside] at behind
      obtain ⟨validValue, left⟩ := isUtf8_readAssignment behind
      exact ih (encoded.insertNew (Utf8.isUtf8_lower validName) (Reference.isUtf8_decode validValue))
        left (Utf8.isUtf8_trimLeft left)

/-- An end tag begins with its bracket. -/
theorem head_of_splitAtEndTag? {tag content left : Text}
    (found : splitAtEndTag? tag text = some (content, left)) :
    ∀ byte, left.head? = some byte → byte.toNat < 128 := by
  induction text generalizing content with
  | nil => cases found
  | cons byte rest ih =>
      rw [splitAtEndTag?] at found
      split at found
      · rename_i present
        cases found
        intro first same
        cases same
        rw [isPrefixOf_endMark] at present
        obtain ⟨more, whole⟩ := present
        have lowered : '<'.toUInt8 = Byte.toLower byte := (List.cons.inj whole).1
        rw [Byte.toLower] at lowered
        split at lowered
        · rename_i upper
          simp only [Byte.isUpper, Bool.and_eq_true, decide_eq_true_eq, UInt8.le_iff_toNat_le,
            UInt8.toNat_ofNat] at upper
          omega
        · rw [← lowered]
          decide
      · obtain ⟨⟨inner, tail⟩, inside, equal⟩ := Option.map_eq_some_iff.mp found
        cases equal
        exact ih inside

theorem encoded_readRaw {head : Element} (encoded : head.Encoded) (valid : IsUtf8 text) :
    (readRaw head text).1.Encoded ∧ IsUtf8 (readRaw head text).2 := by
  have shown : ∀ content, IsUtf8 content → IsUtf8
      (if referenceTags.contains head.tag then Reference.decode content else content) := by
    intro content validContent
    split
    · exact Reference.isUtf8_decode validContent
    · exact validContent
  unfold readRaw
  split
  rename_i content left closed same
  split at same
  · rename_i inner rest found
    cases same
    rw [splitAtEndTag?_whole found] at valid
    obtain ⟨before, behind⟩ := Utf8.isUtf8_beside valid (head_of_splitAtEndTag? found)
    exact ⟨⟨encoded, shown _ before⟩, (Utf8.isUtf8_before_after behind (by decide)).2⟩
  · cases same
    exact ⟨⟨encoded, shown _ valid⟩, Utf8.isUtf8_nil⟩

theorem encoded_readHead {name : Text} (validName : IsUtf8 name) (valid : IsUtf8 text) :
    (readHead name text).1.Encoded ∧ IsUtf8 (readHead name text).2 := by
  have nothing : Properties.Encoded ∅ := fun _ member => nomatch member
  obtain ⟨attributes, behind⟩ := encoded_readAttributes nothing valid
  have head : Element.Encoded ⟨Text.lower name, (readAttributes ∅ text).1⟩ :=
    ⟨Utf8.isUtf8_lower validName, attributes⟩
  rw [readHead]
  dsimp only
  split
  · exact encoded_readRaw head behind
  · exact ⟨head, behind⟩

theorem encoded_readStartTag? {result : Token × Text} (found : readStartTag? text = some result)
    (valid : IsUtf8 text) : result.1.Encoded ∧ IsUtf8 result.2 := by
  obtain ⟨name, behind⟩ := isUtf8_tagName valid
  unfold readStartTag? at found
  dsimp only at found
  split at found
  · cases found
  · cases found
    exact encoded_readHead name behind

theorem isUtf8_readEndTag (valid : IsUtf8 text) : IsUtf8 (readEndTag text).2 :=
  (Utf8.isUtf8_before_after (isUtf8_tagName (Utf8.isUtf8_trimLeft valid)).2 (by decide)).2

theorem isUtf8_readComment (valid : IsUtf8 text) : IsUtf8 (readComment text).2 := by
  unfold readComment
  split
  · rename_i content rest found
    have mark : ("-->" : Text) = ['-'.toUInt8, '-'.toUInt8, '>'.toUInt8] := by decide
    rw [Text.splitAtWord?_eq_some found, mark, List.append_assoc] at valid
    have behind := (Utf8.isUtf8_around valid (by decide)).2
    exact Utf8.isUtf8_tail (Utf8.isUtf8_tail behind (by decide)) (by decide)
  · exact Utf8.isUtf8_nil

theorem isUtf8_readDeclaration (valid : IsUtf8 text) : IsUtf8 (readDeclaration text).2 := by
  unfold readDeclaration
  split
  · rename_i content rest found
    rw [(Text.splitAtByte?_eq_some found).1] at valid
    exact (Utf8.isUtf8_around valid (by decide)).2
  · exact Utf8.isUtf8_nil

/-- What follows a beginning of ASCII. -/
theorem isUtf8_drop {word : Text} (ascii : word.all (·.toNat < 128) = true)
    (begins : word.isPrefixOf text = true) (valid : IsUtf8 text) :
    IsUtf8 (text.drop word.length) := by
  obtain ⟨rest, rfl⟩ := List.isPrefixOf_iff_prefix.mp begins
  rw [List.drop_left]
  clear begins
  induction word with
  | nil => exact valid
  | cons byte more ih =>
      rw [List.all_cons, Bool.and_eq_true, decide_eq_true_eq] at ascii
      exact ih ascii.2 (Utf8.isUtf8_tail valid ascii.1)

theorem encoded_readMarkup (valid : IsUtf8 text) :
    (readMarkup text).1.Encoded ∧ IsUtf8 (readMarkup text).2 := by
  unfold readMarkup
  split
  · rename_i begins
    refine ⟨?_, isUtf8_readComment (isUtf8_drop (by decide) begins valid)⟩
    unfold readComment
    split <;> trivial
  · split
    · rename_i begins
      exact ⟨trivial, isUtf8_readEndTag (isUtf8_drop (by decide) begins valid)⟩
    · split
      · rename_i begins
        refine ⟨?_, isUtf8_readDeclaration ?_⟩
        · unfold readDeclaration
          split <;> trivial
        · rcases (Bool.or_eq_true _ _).mp begins with exclaims | asks
          · exact isUtf8_drop (by decide) exclaims valid
          · exact isUtf8_drop (by decide) asks valid
      · cases found : readStartTag? text with
        | none => exact ⟨trivial, valid⟩
        | some result => exact encoded_readStartTag? found valid

theorem encoded_read {first : UInt8} {rest : Text} (valid : IsUtf8 (first :: rest)) :
    (read first rest).1.Encoded ∧ IsUtf8 (read first rest).2 := by
  unfold read
  split
  · rename_i opens
    rw [beq_iff_eq.mp opens] at valid
    exact encoded_readMarkup (Utf8.isUtf8_tail valid (by decide))
  · have other : ∀ byte : UInt8, 128 ≤ byte.toNat → (byte != '<'.toUInt8) = true := by
      intro byte beyond
      rw [bne_iff_ne]
      rintro rfl
      exact absurd beyond (by decide)
    obtain ⟨content, left⟩ := Utf8.isUtf8_runs (· != '<'.toUInt8)
      (fun byte second beyond beyondToo => by rw [other byte beyond, other second beyondToo]) valid
    exact ⟨Reference.isUtf8_decode content, left⟩

theorem encoded_readAll (valid : IsUtf8 text) : ∀ token ∈ readAll text, token.Encoded := by
  fun_induction readAll text with
  | case1 => exact List.forall_mem_nil _
  | case2 first rest ih =>
      obtain ⟨token, left⟩ := encoded_read valid
      exact List.forall_mem_cons.mpr ⟨token, ih left⟩

end Token

/-! ## Trees -/

inductive Node.Encoded : Node → Prop where
  | text {content : Text} (valid : IsUtf8 content) : Node.Encoded (.text content)
  | element {head : Element} {children : List Node} (own : head.Encoded)
      (inner : ∀ child ∈ children, Node.Encoded child) : Node.Encoded (.element head children)

def AllEncoded (children : List Node) : Prop := ∀ child ∈ children, child.Encoded

namespace AllEncoded

variable {children : List Node}

theorem nil : AllEncoded [] := fun _ member => nomatch member

theorem cons {child : Node} (encoded : child.Encoded) (others : AllEncoded children) :
    AllEncoded (child :: children) :=
  List.forall_mem_cons.mpr ⟨encoded, others⟩

theorem reverse (encoded : AllEncoded children) : AllEncoded children.reverse :=
  fun child member => encoded child (List.mem_reverse.mp member)

theorem textNodes {content : Text} (valid : IsUtf8 content) : AllEncoded (Html.textNodes content) := by
  unfold Html.textNodes
  split
  · exact nil
  · exact cons (.text valid) nil

theorem addText {children : List Linked} (encoded : AllEncoded (nodesOf children)) (parent : Link)
    {content : Text} (valid : IsUtf8 content) :
    AllEncoded (nodesOf (Html.addText parent content children)) := by
  unfold Html.addText
  split
  · exact encoded
  · split
    · rename_i link previous rest
      obtain ⟨first, others⟩ := List.forall_mem_cons.mp encoded
      cases first with
      | text earlier => exact cons (.text (Utf8.isUtf8_append earlier valid)) others
    · exact cons (.text valid) encoded

end AllEncoded

namespace Builder

structure Encoded (builder : Builder) : Prop where
  frames : ∀ frame ∈ builder.frames, frame.head.Encoded ∧ AllEncoded (nodesOf frame.children)
  roots : AllEncoded (nodesOf builder.roots)

variable {builder : Builder}

namespace Encoded

theorem warn (encoded : Encoded builder) (warning : Warning) : Encoded (builder.warn warning) :=
  ⟨encoded.frames, encoded.roots⟩

theorem change (encoded : Encoded builder) {edit : List Linked → List Linked}
    (keeps : ∀ {children}, AllEncoded (nodesOf children) → AllEncoded (nodesOf (edit children))) :
    Encoded (builder.change edit) := by
  obtain ⟨frames, roots, warnings⟩ := builder
  cases frames with
  | nil => exact ⟨encoded.frames, keeps encoded.roots⟩
  | cons frame outer =>
      obtain ⟨⟨head, inner⟩, others⟩ := List.forall_mem_cons.mp encoded.frames
      exact ⟨List.forall_mem_cons.mpr ⟨⟨head, keeps inner⟩, others⟩, encoded.roots⟩

theorem close (encoded : Encoded builder) : Encoded builder.close := by
  obtain ⟨frames, roots, warnings⟩ := builder
  cases frames with
  | nil => exact encoded
  | cons frame outer =>
      obtain ⟨⟨head, inner⟩, others⟩ := List.forall_mem_cons.mp encoded.frames
      have closed : Encoded ⟨outer, roots, warnings⟩ := ⟨others, encoded.roots⟩
      refine closed.change fun inside => .cons (.element head ?_) inside
      rw [nodesOf_reverse]
      exact inner.reverse

theorem kept : Kept Encoded := ⟨warn, close⟩

/-- The step of the reader. -/
theorem add (encoded : Encoded builder) {token : Token} (own : token.Encoded) :
    Encoded (builder.add token) := by
  cases token with
  | text content => exact encoded.change fun inner => inner.addText _ own
  | strayBracket =>
      exact (encoded.warn _).change fun inner => inner.addText _ (Payload.isUtf8_ofString "<")
  | comment closed =>
      cases closed with
      | true => exact encoded
      | false => exact encoded.warn _
  | declaration closed =>
      cases closed with
      | true => exact encoded
      | false => exact encoded.warn _
  | endTag tag => exact kept.endTag encoded tag
  | startTag head selfClosing =>
      have prepared := kept.prepareFor encoded head.tag
      simp only [Builder.add]
      split
      · exact prepared.change fun others => .cons (.element own AllEncoded.nil) others
      · exact ⟨List.forall_mem_cons.mpr ⟨⟨own, .nil⟩, prepared.frames⟩, prepared.roots⟩
  | rawElement head content closed =>
      have prepared := kept.prepareFor encoded head.tag
      have added : ∀ (link inside : Link) {children : List Linked}, AllEncoded (nodesOf children) →
          AllEncoded (nodesOf (.element link head (addText inside content []) :: children)) := by
        intro link inside children others
        rw [nodesOf, Linked.node, nodesOf_addText_nil]
        exact others.cons (.element own.1 (AllEncoded.textNodes own.2))
      cases closed with
      | true => exact prepared.change (added _ _)
      | false => exact (prepared.warn _).change (added _ _)

theorem addAll (encoded : Encoded builder) {tokens : List Token}
    (all : ∀ token ∈ tokens, token.Encoded) : Encoded (tokens.foldl Builder.add builder) := by
  induction tokens generalizing builder with
  | nil => exact encoded
  | cons token rest ih =>
      obtain ⟨first, others⟩ := List.forall_mem_cons.mp all
      exact ih (encoded.add first) others

end Encoded

end Builder

theorem allEncoded_parse {html : Text} (valid : IsUtf8 html) :
    AllEncoded (Document.parse html).1.children := by
  have start : Builder.Encoded Builder.start :=
    ⟨fun _ => List.not_mem_nil.elim, AllEncoded.nil⟩
  change AllEncoded (nodesOf (Builder.closeMany _ _).roots.reverse)
  rw [nodesOf_reverse]
  exact (Builder.Encoded.kept.closeMany (start.addAll (Token.encoded_readAll valid)) _).roots.reverse

/-- The node of a place holds UTF-8 as the tree does. -/
theorem Node.Encoded.placed {node : Node} (encoded : node.Encoded) :
    ∀ holders, ∀ place ∈ node.placed holders, place.node.Encoded := by
  induction encoded with
  | text valid =>
      intro holders place member
      rw [Node.placed] at member
      rw [List.mem_singleton.mp member]
      exact .text valid
  | @element head children own inner ih =>
      intro holders place member
      rw [Node.placed] at member
      rcases List.mem_cons.mp member with same | below
      · rw [same]
        exact .element own inner
      · rw [placedAll_eq_flatMap] at below
        obtain ⟨child, isChild, inside⟩ := List.mem_flatMap.mp below
        exact ih child isChild _ place inside

/-! ## Documents -/

/-- What a node says itself: its text, or its tag with the names and values of its attributes. -/
def Node.ownTexts : Node → List Text
  | .text content => [content]
  | .element head _ => head.tag :: head.attributes.entries.flatMap fun (name, value) => [name, value]

theorem Node.Encoded.ownTexts {node : Node} (encoded : node.Encoded) :
    ∀ own ∈ node.ownTexts, IsUtf8 own := by
  cases encoded with
  | text valid => exact List.forall_mem_singleton.mpr valid
  | element head _ =>
      refine List.forall_mem_cons.mpr ⟨head.tag, fun own member => ?_⟩
      obtain ⟨⟨name, value⟩, listed, inside⟩ := List.mem_flatMap.mp member
      obtain ⟨validName, validValue⟩ := head.attributes _ listed
      rcases List.mem_pair.mp inside with rfl | rfl
      · exact validName
      · exact validValue

/-- Reading keeps valid UTF-8, however the markup is broken: in the document that is read every text,
tag, attribute name and attribute value is valid, and so is a text with its references decoded. Decoding
changes nothing but references, each of which becomes the encoding of the code point that it refers to,
and a reference at the beginning of a text is always decoded. -/
theorem utf8_kept {text : Text} (valid : IsUtf8 text) :
    (∀ place ∈ (Document.parse text).1.placed, ∀ own ∈ place.node.ownTexts, IsUtf8 own) ∧
    IsUtf8 (Reference.decode text) ∧
    Reference.Replaced text (Reference.decode text) ∧
    ∀ (body : Text) (point : Nat), Reference.Recognized body point →
      Reference.decode (Reference.reference body ++ text) =
        String.utf8EncodeChar (Char.ofNat point) ++ Reference.decode text := by
  refine ⟨fun place member => ?_, Reference.isUtf8_decode valid, Reference.replaced_decode text,
    fun body point recognized => ?_⟩
  · rw [Document.placed, placedAll_eq_flatMap] at member
    obtain ⟨child, isChild, inside⟩ := List.mem_flatMap.mp member
    exact ((allEncoded_parse valid child isChild).placed [] place inside).ownTexts
  · have settled := Reference.Settled.of_recognized recognized [] text
    have read := settled.read Reference.not_holdsBack_nil
    rwa [List.nil_append, Reference.decode_nil, List.nil_append] at read

def brokenMenu : Text :=
  "<ul größe='5'><LI title=\"Café\">Caf&#xE9; < 3&euro; 🍵</ü><li título=été/>a &#55296; b<p ñ='"

theorem utf8_kept_brokenMenu :
    IsUtf8 brokenMenu ∧
    (∀ place ∈ (Document.parse brokenMenu).1.placed, ∀ own ∈ place.node.ownTexts, IsUtf8 own) ∧
    IsUtf8 (Reference.decode brokenMenu) := by
  have valid : IsUtf8 brokenMenu := Payload.isUtf8_ofString _
  exact ⟨valid, (utf8_kept valid).1, (utf8_kept valid).2.1⟩

/-- The number of a surrogate refers to no character. -/
example : Reference.decode "Caf&#xE9; &#55296;" = ("Café &#55296;" : Text) := by decide +kernel

end SlidePress.Html
