import SlidePress.Proofs.Html.Grown

/-! Reading what was written. A grown node is written as tokens that are read back one by one, and
those tokens build the node again on top of whatever is open, without a repair on the way. Since
every document that is read has grown, writing and reading it once more gives the same document and
no warnings. -/

namespace SlidePress

namespace Table

variable {α : Type}

theorem insertEntry_last {key : Text} {value : α} {entries : List (Text × α)}
    (above : ∀ entry ∈ entries, entry.1 < key) :
    insertEntry key value entries = entries ++ [(key, value)] := by
  induction entries with
  | nil => rfl
  | cons head rest ih =>
      obtain ⟨other, old⟩ := head
      have less : other < key := above _ List.mem_cons_self
      have notLess : ¬ key < other := fun greater => Std.lt_irrefl (Std.lt_trans less greater)
      have different : ¬ key = other := fun same => Std.lt_irrefl (same ▸ less)
      rw [insertEntry, if_neg notLess, if_neg different,
        ih fun entry member => above entry (List.mem_cons_of_mem _ member), List.cons_append]

/-- A key above all others goes to the end. -/
theorem entries_insertNew {table : Table α} {key : Text} (value : α)
    (above : ∀ entry ∈ table.entries, entry.1 < key) :
    (table.insertNew key value).entries = table.entries ++ [(key, value)] := by
  have missing : table.contains key = false := by
    simp only [contains, get?, Option.isSome_map, Option.isSome_eq_false_iff, Option.isNone_iff_eq_none,
      List.find?_eq_none, beq_iff_eq]
    exact fun entry member same => Std.lt_irrefl (same ▸ above entry member)
  rw [insertNew, missing]
  exact insertEntry_last above

theorem eq_of_entries {first second : Table α} (same : first.entries = second.entries) :
    first = second := by
  obtain ⟨entries, ascending⟩ := first
  cases same
  rfl

end Table

namespace Html

namespace Token

theorem not_space_of_attributeNameByte {byte : UInt8} (inside : isAttributeNameByte byte = true) :
    Byte.isSpace byte = false := by
  simp only [isAttributeNameByte, Bool.not_eq_true', Bool.or_eq_false_iff] at inside
  exact inside.1.1.1

theorem not_space_of_nameByte {byte : UInt8} (inside : isNameByte byte = true) :
    Byte.isSpace byte = false := by
  rw [Bool.eq_false_iff]
  intro space
  simp only [Byte.isSpace, Bool.or_eq_true, beq_iff_eq, Bool.and_eq_true, decide_eq_true_eq,
    UInt8.le_iff_toNat_le] at space
  simp only [isNameByte, Byte.isAlphanumeric, Byte.isLetter, Byte.isUpper, Byte.isLower,
    Byte.isDigit, Bool.or_eq_true, beq_iff_eq, Bool.and_eq_true, decide_eq_true_eq,
    UInt8.le_iff_toNat_le, ← UInt8.toNat_inj] at inside space
  change byte.toNat = 32 ∨ 9 ≤ byte.toNat ∧ byte.toNat ≤ 13 at space
  change ((((((65 ≤ byte.toNat ∧ byte.toNat ≤ 90) ∨ 97 ≤ byte.toNat ∧ byte.toNat ≤ 122) ∨
    48 ≤ byte.toNat ∧ byte.toNat ≤ 57) ∨ byte.toNat = 45) ∨ byte.toNat = 95) ∨ byte.toNat = 58) ∨
    byte.toNat = 46 at inside
  omega

theorem readAssignment_quoted (value rest : Text) :
    readAssignment ("=\"" ++ escapeValue value ++ "\"" ++ rest) = (escapeValue value, rest) := by
  have shape : ("=\"" ++ escapeValue value ++ "\"" ++ rest : Text) =
      '='.toUInt8 :: Byte.doubleQuote :: (escapeValue value ++ Byte.doubleQuote :: rest) := by
    rw [List.append_assoc, List.append_assoc]
    rfl
  rw [shape]
  change (Text.before Byte.doubleQuote (escapeValue value ++ Byte.doubleQuote :: rest),
    Text.after Byte.doubleQuote (escapeValue value ++ Byte.doubleQuote :: rest)) = _
  rw [Text.before_append (quote_not_mem_escapeValue value),
    Text.after_append (quote_not_mem_escapeValue value)]

/-- One written attribute is read as its name and value. -/
theorem readAttributes_entry {name : Text} (isName : AttributeName name) (value rest : Text)
    (found : Properties) :
    readAttributes found (" " ++ name ++ "=\"" ++ escapeValue value ++ "\"" ++ rest) =
      readAttributes (found.insertNew name value) rest := by
  obtain ⟨some, bytes, lower⟩ := isName
  obtain ⟨first, others, rfl⟩ := List.exists_cons_of_ne_nil some
  have inside : isAttributeNameByte first = true := bytes first List.mem_cons_self
  have shape : (" " ++ (first :: others) ++ "=\"" ++ escapeValue value ++ "\"" ++ rest : Text) =
      ' '.toUInt8 :: first :: (others ++ ("=\"" ++ escapeValue value ++ "\"" ++ rest)) := by
    simp only [List.append_assoc]
    rfl
  have trimmed : Text.trimLeft
      (" " ++ (first :: others) ++ "=\"" ++ escapeValue value ++ "\"" ++ rest : Text) =
      first :: (others ++ ("=\"" ++ escapeValue value ++ "\"" ++ rest)) := by
    rw [shape]
    change (first :: _).dropWhile Byte.isSpace = _
    rw [List.dropWhile_cons_of_neg (by simp [not_space_of_attributeNameByte inside])]
  have stop : ∀ byte, ("=\"" ++ escapeValue value ++ "\"" ++ rest : Text).head? = Option.some byte →
      isAttributeNameByte byte = false := by
    rintro byte ⟨⟩
    rfl
  have name : (first :: (others ++ ("=\"" ++ escapeValue value ++ "\"" ++ rest : Text))).takeWhile
      isAttributeNameByte = first :: others := by
    rw [← List.cons_append]
    exact Text.takeWhile_append_stop bytes stop
  have left : (others ++ ("=\"" ++ escapeValue value ++ "\"" ++ rest : Text)).dropWhile
      isAttributeNameByte = "=\"" ++ escapeValue value ++ "\"" ++ rest :=
    Text.dropWhile_append_stop (fun byte member => bytes byte (List.mem_cons_of_mem _ member)) stop
  have notClosing : (first == '>'.toUInt8) = false ∧ (first == '/'.toUInt8) = false := by
    simp only [isAttributeNameByte, Bool.not_eq_true', Bool.or_eq_false_iff] at inside
    exact ⟨inside.1.2, inside.2⟩
  rw [readAttributes]
  split
  · rename_i empty
    rw [trimmed] at empty
    cases empty
  · rename_i byte more same
    rw [trimmed] at same
    cases same
    simp only [notClosing.1, notClosing.2, name, left, readAssignment_quoted, decode_escapeValue,
      lower, Bool.false_eq_true, if_false, Bool.false_and, List.isEmpty_cons]

theorem readAttributes_close (found : Properties) (rest : Text) :
    readAttributes found ('>'.toUInt8 :: rest) = (found, false, rest) := by
  rw [readAttributes]
  split
  · rename_i empty
    cases empty
  · rename_i byte more same
    cases same
    rfl

/-- Written attributes are read after those that were found before, in the same order. -/
theorem readAttributes_write {entries : List (Text × Text)}
    (names : ∀ entry ∈ entries, AttributeName entry.1) (rest : Text) {found whole : Properties}
    (parts : whole.entries = found.entries ++ entries) :
    readAttributes found (writeAttributes entries ++ '>'.toUInt8 :: rest) = (whole, false, rest) := by
  induction entries generalizing found with
  | nil =>
      rw [List.append_nil] at parts
      rw [Table.eq_of_entries parts]
      exact readAttributes_close found rest
  | cons entry others ih =>
      obtain ⟨name, value⟩ := entry
      have above : ∀ earlier ∈ found.entries, earlier.1 < name := by
        have ascending := whole.ascending
        rw [parts] at ascending
        exact fun earlier member =>
          (List.pairwise_append.mp ascending).2.2 earlier member _ List.mem_cons_self
      have added : whole.entries = (found.insertNew name value).entries ++ others := by
        rw [Table.entries_insertNew value above, parts, List.append_assoc]
        rfl
      have step := readAttributes_entry (names _ List.mem_cons_self) value
        (writeAttributes others ++ '>'.toUInt8 :: rest) found
      rw [ih (fun other member => names other (List.mem_cons_of_mem _ member)) added,
        ← List.append_assoc] at step
      exact step

theorem name_stop {entries : List (Text × Text)} {rest : Text} :
    ∀ byte, (writeAttributes entries ++ '>'.toUInt8 :: rest).head? = some byte →
      isNameByte byte = false := by
  cases entries <;> (rintro byte ⟨⟩; rfl)

theorem readMarkup_name {tag : Text} (isTag : TagName tag) (rest : Text) :
    readMarkup (tag ++ rest) = (readStartTag? (tag ++ rest)).getD (.strayBracket, tag ++ rest) := by
  obtain ⟨first, others, rfl⟩ := List.exists_cons_of_ne_nil isTag.some
  have inside : isNameByte first = true := isTag.bytes first List.mem_cons_self
  have differs : ∀ mark : UInt8, isNameByte mark = false → (mark == first) = false := by
    intro mark outside
    rw [beq_eq_false_iff_ne]
    rintro rfl
    rw [inside] at outside
    cases outside
  have noSlash : ("/" : Text).isPrefixOf (first :: others ++ rest) = false := by
    change (('/'.toUInt8 == first) && _) = false
    rw [differs _ rfl, Bool.false_and]
  have noComment : ("!--" : Text).isPrefixOf (first :: others ++ rest) = false := by
    change (('!'.toUInt8 == first) && _) = false
    rw [differs _ rfl, Bool.false_and]
  have noDeclaration : ("!" : Text).isPrefixOf (first :: others ++ rest) = false := by
    change (('!'.toUInt8 == first) && _) = false
    rw [differs _ rfl, Bool.false_and]
  have noInstruction : ("?" : Text).isPrefixOf (first :: others ++ rest) = false := by
    change (('?'.toUInt8 == first) && _) = false
    rw [differs _ rfl, Bool.false_and]
  simp only [readMarkup, noSlash, noComment, noDeclaration, noInstruction, Bool.false_eq_true,
    if_false, Bool.or_false]

/-- A written start tag is read as the token of its element. -/
theorem readAll_startTag {head : Element} (readable : head.Readable) (rest : Text) :
    readAll (writeStartTag head ++ rest) =
      if rawTextTags.contains head.tag then
        (readRaw head rest).1 :: readAll (readRaw head rest).2
      else .startTag head false :: readAll rest := by
  have shape : writeStartTag head ++ rest = '<'.toUInt8 ::
      (head.tag ++ (writeAttributes head.attributes.entries ++ '>'.toUInt8 :: rest)) := by
    simp only [writeStartTag, List.append_assoc]
    rfl
  have attributes := readAttributes_write readable.attributes rest
    (show head.attributes.entries = (∅ : Properties).entries ++ head.attributes.entries from rfl)
  have started : readStartTag?
      (head.tag ++ (writeAttributes head.attributes.entries ++ '>'.toUInt8 :: rest)) =
      some (readHead head.tag (writeAttributes head.attributes.entries ++ '>'.toUInt8 :: rest)) := by
    simp only [readStartTag?, Text.takeWhile_append_stop readable.tag.bytes name_stop,
      Text.dropWhile_append_stop readable.tag.bytes name_stop, List.isEmpty_iff]
    rw [if_neg readable.tag.some]
  have token : read '<'.toUInt8
      (head.tag ++ (writeAttributes head.attributes.entries ++ '>'.toUInt8 :: rest)) =
      if rawTextTags.contains head.tag then readRaw head rest else (.startTag head false, rest) := by
    change readMarkup _ = _
    rw [readMarkup_name readable.tag, started, Option.getD_some, readHead, attributes]
    simp only [readable.tag.lower, Bool.not_false, Bool.true_and]
  rw [shape, readAll, token]
  split <;> rfl

theorem readAll_endTag {tag : Text} (isTag : TagName tag) (rest : Text) :
    readAll (endMark tag ++ '>'.toUInt8 :: rest) = .endTag tag :: readAll rest := by
  have shape : endMark tag ++ '>'.toUInt8 :: rest =
      '<'.toUInt8 :: '/'.toUInt8 :: (tag ++ '>'.toUInt8 :: rest) := by
    rw [endMark, List.append_assoc]
    rfl
  obtain ⟨first, others, same⟩ := List.exists_cons_of_ne_nil isTag.some
  have noSpace : Byte.isSpace first = false := by
    have inside : isNameByte first = true := isTag.bytes first (same ▸ List.mem_cons_self)
    exact not_space_of_nameByte inside
  have trimmed : Text.trimLeft (tag ++ '>'.toUInt8 :: rest) = tag ++ '>'.toUInt8 :: rest := by
    rw [same]
    exact List.dropWhile_cons_of_neg (by simp [noSpace])
  have stop : ∀ byte, ('>'.toUInt8 :: rest).head? = some byte → isNameByte byte = false := by
    rintro byte ⟨⟩
    rfl
  have token : read '<'.toUInt8 ('/'.toUInt8 :: (tag ++ '>'.toUInt8 :: rest)) =
      (.endTag tag, rest) := by
    change readEndTag (tag ++ '>'.toUInt8 :: rest) = _
    rw [readEndTag, trimmed, Text.cut, Text.takeWhile_append_stop isTag.bytes stop,
      Text.dropWhile_append_stop isTag.bytes stop]
    simp only [isTag.lower]
    rw [← List.nil_append ('>'.toUInt8 :: rest), Text.after_append List.not_mem_nil]
  rw [shape, readAll, token]

theorem bracket_not_mem_tag {tag : Text} (isTag : TagName tag) : '<'.toUInt8 ∉ '/'.toUInt8 :: tag := by
  intro member
  rcases List.mem_cons.mp member with same | inside
  · exact absurd same (by decide)
  · exact absurd (isTag.bytes _ inside) (by decide)

/-- Where an end mark begins in front of another end mark, it ends in front of it too. -/
theorem endMark_prefix_of_append {tag front : Text} (isTag : TagName tag) (some : front ≠ [])
    {rest : Text} (present : endMark tag <+: front ++ (endMark tag ++ rest)) :
    endMark tag <+: front := by
  rcases List.prefix_or_prefix_of_prefix present (List.prefix_append front _) with before | ⟨tail, parts⟩
  · exact before
  · rw [← parts] at present
    rw [List.prefix_append_right_inj] at present
    cases tail with
    | nil =>
        rw [List.append_nil] at parts
        exact parts ▸ List.prefix_refl _
    | cons first others =>
        obtain ⟨byte, inner, rfl⟩ := List.exists_cons_of_ne_nil some
        have bracket : first = '<'.toUInt8 := by
          rw [parts] at present
          exact (List.cons_prefix_cons.mp present).1
        have inside : '/'.toUInt8 :: tag = inner ++ first :: others :=
          (List.cons.inj parts).2.symm
        have member : '<'.toUInt8 ∈ '/'.toUInt8 :: tag := by
          rw [inside, ← bracket]
          exact List.mem_append_right _ List.mem_cons_self
        exact (bracket_not_mem_tag isTag member).elim

/-- An end tag cannot begin inside a text and go on in the end tag that follows it, because no name
holds an opening bracket. -/
theorem splitAtEndTag?_append {tag content : Text} (isTag : TagName tag)
    (absent : splitAtEndTag? tag content = none) (rest : Text) :
    splitAtEndTag? tag (content ++ (endMark tag ++ '>'.toUInt8 :: rest)) =
      some (content, endMark tag ++ '>'.toUInt8 :: rest) := by
  have lowered : Text.lower (endMark tag) = endMark tag := by
    rw [endMark, Text.lower_append, isTag.lower]
    rfl
  induction content with
  | nil =>
      have shape : endMark tag ++ '>'.toUInt8 :: rest =
          '<'.toUInt8 :: ('/'.toUInt8 :: (tag ++ '>'.toUInt8 :: rest)) := by
        rw [endMark, List.append_assoc]
        rfl
      have starts : endMark tag <+: Text.lower (endMark tag ++ '>'.toUInt8 :: rest) := by
        rw [Text.lower_append, lowered]
        exact List.prefix_append _ _
      rw [List.nil_append]
      rw [shape] at starts ⊢
      rw [splitAtEndTag?, if_pos (isPrefixOf_endMark.mpr starts)]
  | cons byte others ih =>
      rw [splitAtEndTag?] at absent
      split at absent
      · cases absent
      · rename_i notHere
        rw [Option.map_eq_none_iff] at absent
        rw [List.cons_append, splitAtEndTag?, if_neg, ih absent, Option.map_some]
        intro present
        apply notHere
        rw [isPrefixOf_endMark] at present ⊢
        rw [← List.cons_append, Text.lower_append, Text.lower_append, lowered] at present
        exact endMark_prefix_of_append isTag (by simp [Text.lower]) present

theorem splitAtEndTag?_of_not_mem {tag text : Text} (absent : '<'.toUInt8 ∉ text) :
    splitAtEndTag? tag text = none := by
  induction text with
  | nil => rfl
  | cons byte rest ih =>
      rw [List.mem_cons, not_or] at absent
      rw [splitAtEndTag?, ih absent.2, if_neg, Option.map_none]
      intro present
      have first : '<'.toUInt8 = Byte.toLower byte :=
        (List.cons_prefix_cons.mp (isPrefixOf_endMark.mp present)).1
      cases upper : Byte.isUpper byte with
      | true =>
          have small := Byte.isLower_toLower upper
          rw [← first] at small
          cases small
      | false =>
          rw [Byte.toLower, if_neg (by simp [upper])] at first
          exact absent.1 first

/-- Raw text elements are written with references or as they stand, and read accordingly. -/
theorem references_of_raw {tag : Text} (isRaw : rawTextTags.contains tag = true) :
    referenceTags.contains tag = !verbatimTags.contains tag := by
  simp only [rawTextTags, List.contains_cons, List.contains_nil, Bool.or_false, Bool.or_eq_true,
    beq_iff_eq] at isRaw
  rcases isRaw with rfl | rfl | rfl | rfl <;> decide

theorem close_not_mem_endMark {tag : Text} (isTag : TagName tag) : '>'.toUInt8 ∉ endMark tag := by
  intro member
  rcases List.mem_append.mp member with start | inside
  · exact absurd start (by decide)
  · exact absurd (isTag.bytes _ inside) (by decide)

/-- The written content of a raw text element. -/
theorem readAll_raw {head : Element} {content : Text} (readable : head.Readable)
    (isRaw : rawTextTags.contains head.tag = true) (kept : KeptRaw head.tag content) (rest : Text) :
    readAll (writeStartTag head ++
        (writeText head.tag content ++ (endMark head.tag ++ '>'.toUInt8 :: rest))) =
      .rawElement head content true :: readAll rest := by
  have absent : splitAtEndTag? head.tag (writeText head.tag content) = none := by
    unfold writeText
    split
    · rename_i verbatim
      exact kept verbatim
    · exact splitAtEndTag?_of_not_mem (bracket_not_mem_escapeText content)
  have read : (if referenceTags.contains head.tag then
      Reference.decode (writeText head.tag content) else writeText head.tag content) = content := by
    rw [references_of_raw isRaw, writeText]
    cases verbatimTags.contains head.tag with
    | true => rfl
    | false => exact decode_escapeText content
  have left : Text.after '>'.toUInt8 (endMark head.tag ++ '>'.toUInt8 :: rest) = rest :=
    Text.after_append (close_not_mem_endMark readable.tag) rest
  rw [readAll_startTag readable, if_pos isRaw, readRaw, splitAtEndTag?_append readable.tag absent]
  simp only [read, left]

def BeginsMarkup (text : Text) : Prop := ∀ byte, text.head? = some byte → byte = '<'.toUInt8

theorem readAll_text {content rest : Text} (some : content ≠ []) (markup : BeginsMarkup rest) :
    readAll (escapeText content ++ rest) = .text content :: readAll rest := by
  have absent := bracket_not_mem_escapeText content
  have inside := Text.ne_of_not_mem absent
  have stop : ∀ byte, rest.head? = Option.some byte → (byte != '<'.toUInt8) = false := by
    intro byte first
    rw [markup byte first]
    rfl
  obtain ⟨first, others, shape⟩ := List.exists_cons_of_ne_nil (escapeText_ne_nil some)
  have notBracket : (first == '<'.toUInt8) = false := by
    have differs := inside first (shape ▸ List.mem_cons_self)
    simpa using differs
  have token : read first (others ++ rest) = (.text content, rest) := by
    rw [read, notBracket, Text.cut, ← List.cons_append, ← shape,
      Text.takeWhile_append_stop inside stop, Text.dropWhile_append_stop inside stop]
    simp only [decode_escapeText, Bool.false_eq_true, if_false]
  rw [shape, List.cons_append, readAll, token]

end Token

mutual

def Node.tokens : Node → List Token
  | .text content => [.text content]
  | .element head children =>
      if rawTextTags.contains head.tag then [.rawElement head (innerTexts children) true]
      else if voidTags.contains head.tag then [.startTag head false]
      else .startTag head false :: (tokensAll children ++ [.endTag head.tag])

def tokensAll : List Node → List Token
  | [] => []
  | node :: rest => node.tokens ++ tokensAll rest

end

theorem not_verbatim_of_holdsNodes {tag : Text} (holds : HoldsNodes tag) :
    verbatimTags.contains tag = false := by
  cases verbatim : verbatimTags.contains tag with
  | false => rfl
  | true =>
      have isRaw : rawTextTags.contains tag = true := by
        simp only [verbatimTags, List.contains_cons, List.contains_nil, Bool.or_false,
          Bool.or_eq_true, beq_iff_eq] at verbatim
        rcases verbatim with rfl | rfl <;> decide
      rw [holds.notRaw] at isRaw
      cases isRaw

theorem writeEndTag_of_not_void {tag : Text} (notVoid : voidTags.contains tag = false) (rest : Text) :
    writeEndTag tag ++ rest = Token.endMark tag ++ '>'.toUInt8 :: rest := by
  rw [writeEndTag, notVoid, Token.endMark]
  simp only [Bool.false_eq_true, if_false, List.append_assoc]
  rfl

theorem beginsMarkup_write {node : Node} (notText : node.isText = false) (parent rest : Text) :
    Token.BeginsMarkup (node.write parent ++ rest) := by
  cases node with
  | text content => cases notText
  | element head children =>
      rintro byte ⟨⟩
      rfl

/-- Neighbours are read one after another, once each of them is. -/
theorem readAll_writeAll {parent : Text} {nodes : List Node} (apart : Apart nodes)
    (each : ∀ node ∈ nodes, ∀ rest, (node.isText = true → Token.BeginsMarkup rest) →
      Token.readAll (node.write parent ++ rest) = node.tokens ++ Token.readAll rest)
    (rest : Text) (markup : Token.BeginsMarkup rest) :
    Token.readAll (writeAll parent nodes ++ rest) = tokensAll nodes ++ Token.readAll rest := by
  induction nodes with
  | nil => rfl
  | cons node others ih =>
      obtain ⟨joint, inner⟩ := List.isChain_cons.mp apart
      have follows : node.isText = true → Token.BeginsMarkup (writeAll parent others ++ rest) := by
        intro isText
        cases others with
        | nil => exact markup
        | cons next more =>
            have notText := joint next rfl
            rw [isText, Bool.true_and] at notText
            rw [writeAll, List.append_assoc]
            exact beginsMarkup_write notText parent _
      rw [writeAll, tokensAll, List.append_assoc, List.append_assoc,
        each node List.mem_cons_self _ follows,
        ih inner fun other member => each other (List.mem_cons_of_mem _ member)]

theorem innerTexts_textNodes (content : Text) : innerTexts (textNodes content) = content := by
  cases content with
  | nil => rfl
  | cons first others => simp [textNodes, innerTexts, Node.innerText]

/-- A grown node is read as its tokens. -/
theorem Grown.readAll_write {outer : List Text} {node : Node} (grown : Grown outer node)
    {parent : Text} (plain : verbatimTags.contains parent = false) (rest : Text)
    (markup : node.isText = true → Token.BeginsMarkup rest) :
    Token.readAll (node.write parent ++ rest) = node.tokens ++ Token.readAll rest := by
  induction grown generalizing parent rest with
  | text some =>
      simp only [Node.write, writeText, plain, Bool.false_eq_true, if_false, Node.tokens]
      exact Token.readAll_text some (markup rfl)
  | void readable opens isVoid =>
      rename_i outer head
      have notRaw : rawTextTags.contains head.tag = false := by
        cases isRaw : rawTextTags.contains head.tag with
        | false => rfl
        | true => rw [not_void_of_raw isRaw] at isVoid; cases isVoid
      simp only [Node.write, writeAll, writeEndTag, isVoid, if_true, List.append_nil, Node.tokens,
        notRaw, Bool.false_eq_true, if_false]
      rw [Token.readAll_startTag readable, notRaw]
      rfl
  | raw readable opens isRaw kept =>
      rename_i outer head content
      have inside : writeAll head.tag (textNodes content) = writeText head.tag content := by
        cases content with
        | nil => simp [textNodes, writeAll, writeText, escapeText, escape]
        | cons first others => simp [textNodes, writeAll, Node.write]
      simp only [Node.write, Node.tokens, isRaw, if_true, inside, innerTexts_textNodes,
        List.append_assoc]
      rw [writeEndTag_of_not_void (not_void_of_raw isRaw), Token.readAll_raw readable isRaw kept]
      rfl
  | nodes readable opens holds apart inner ih =>
      rename_i outer head children
      have plainTag := not_verbatim_of_holdsNodes holds
      have closing : Token.BeginsMarkup (Token.endMark head.tag ++ '>'.toUInt8 :: rest) := by
        rintro byte ⟨⟩
        rfl
      have content := readAll_writeAll apart
        (fun node member more follows => ih node member plainTag more follows) _ closing
      simp only [Node.write, Node.tokens, holds.notRaw, holds.notVoid, Bool.false_eq_true, if_false,
        List.append_assoc]
      rw [writeEndTag_of_not_void holds.notVoid, Token.readAll_startTag readable, holds.notRaw, content,
        Token.readAll_endTag readable.tag]
      simp only [Bool.false_eq_true, if_false, List.cons_append, List.nil_append, List.append_assoc]

/-- A document under construction without its links: the heads of its open elements with their
children so far. -/
structure Draft where
  frames : List (Element × List Node)
  roots : List Node
  warnings : List Warning

namespace Draft

def change (draft : Draft) (edit : List Node → List Node) : Draft :=
  match draft.frames with
  | [] => { draft with roots := edit draft.roots }
  | (head, children) :: outer => { draft with frames := (head, edit children) :: outer }

def children (draft : Draft) : List Node :=
  match draft.frames with
  | [] => draft.roots
  | frame :: _ => frame.2

def tags (draft : Draft) : List Text := draft.frames.map (·.1.tag)

variable (draft : Draft)

theorem change_change (first second : List Node → List Node) :
    (draft.change first).change second = draft.change fun children => second (first children) := by
  obtain ⟨frames, roots, warnings⟩ := draft
  cases frames <;> rfl

theorem change_self : draft.change (fun children => children) = draft := by
  obtain ⟨frames, roots, warnings⟩ := draft
  cases frames <;> rfl

theorem tags_change (edit : List Node → List Node) : (draft.change edit).tags = draft.tags := by
  obtain ⟨frames, roots, warnings⟩ := draft
  cases frames <;> rfl

theorem children_change (edit : List Node → List Node) :
    (draft.change edit).children = edit draft.children := by
  obtain ⟨frames, roots, warnings⟩ := draft
  cases frames <;> rfl

/-- What must hold between a draft and the node that comes next: two texts do not meet. -/
def Admits (node : Node) : Prop :=
  ∀ last, draft.children.head? = some last → (last.isText && node.isText) = false

end Draft

namespace Builder

def draft (builder : Builder) : Draft :=
  ⟨builder.frames.map fun frame => (frame.head, nodesOf frame.children), nodesOf builder.roots,
    builder.warnings⟩

theorem tags_draft (builder : Builder) : builder.draft.tags = openTags builder.frames := by
  rw [draft, Draft.tags, openTags, List.map_map]
  rfl

theorem nodesOf_children (builder : Builder) : nodesOf builder.children = builder.draft.children := by
  obtain ⟨frames, roots, warnings⟩ := builder
  cases frames <;> rfl

/-- A change is known by what it does to the children that are there. -/
theorem draft_change {builder : Builder} {edit : List Linked → List Linked}
    {change : List Node → List Node}
    (same : nodesOf (edit builder.children) = change builder.draft.children) :
    (builder.change edit).draft = builder.draft.change change := by
  obtain ⟨frames, roots, warnings⟩ := builder
  cases frames with
  | nil => exact congrArg (Draft.mk [] · warnings) same
  | cons frame outer =>
      exact congrArg (fun children => Draft.mk ((frame.head, children) :: outer.map
        fun frame => (frame.head, nodesOf frame.children)) (nodesOf roots) warnings) same

theorem closeImplicitly_of_unreached {tag : Text} {builder : Builder}
    (unreached : reaches tag (openTags builder.frames) = false) :
    closeImplicitly tag builder = builder := by
  rw [closeImplicitly, framesTo?_eq_none.mpr unreached]

/-- An element that opens in its place closes nothing on the way. -/
theorem prepareFor_of_opens {tag : Text} {builder : Builder}
    (opens : Opens tag (openTags builder.frames)) : prepareFor tag builder = builder := by
  have paragraph : (if paragraphClosers.contains tag then closeImplicitly "p" builder else builder) =
      builder := by
    split
    · rename_i closer
      exact closeImplicitly_of_unreached (opens.paragraph closer)
    · rfl
  rw [prepareFor, paragraph]
  split
  · rename_i item
    exact closeImplicitly_of_unreached (opens.item (beq_iff_eq.mp item))
  · rfl

/-- The end tag of the innermost open element closes it and nothing else. -/
theorem draft_endTag_innermost {head : Element} (some : head.tag ≠ []) {children : List Node}
    {outer : List (Element × List Node)} {roots : List Node} {warnings : List Warning}
    {builder : Builder} (drafted : builder.draft = ⟨(head, children) :: outer, roots, warnings⟩) :
    (builder.endTag head.tag).draft =
      Draft.change ⟨outer, roots, warnings⟩ (.element head children.reverse :: ·) := by
  obtain ⟨frames, inRoots, warned⟩ := builder
  cases frames with
  | nil => cases drafted
  | cons frame around =>
      obtain ⟨parent, innermost, inner⟩ := frame
      cases drafted
      have found : framesTo? innermost.tag [] (⟨parent, innermost, inner⟩ :: around) =
          Option.some 1 := by
        rw [framesTo?, if_pos (beq_self_eq_true _)]
      rw [endTag, if_neg (by simpa using some)]
      simp only [List.isEmpty_cons, Bool.false_eq_true, if_false, found]
      refine draft_change ?_
      rw [nodesOf, Linked.node, nodesOf_reverse, nodesOf_children]

/-- Where no element is open, nothing is left to be closed. -/
theorem finish_of_draft {builder : Builder} {nodes : List Node} {warnings : List Warning}
    (drafted : builder.draft = ⟨[], nodes, warnings⟩) :
    nodesOf builder.finish.1 = nodes.reverse ∧ builder.finish.2 = warnings.reverse := by
  obtain ⟨frames, roots, warned⟩ := builder
  cases frames with
  | cons frame outer => cases drafted
  | nil =>
      cases drafted
      exact ⟨nodesOf_reverse roots, List.append_nil _⟩

theorem addAll_tokensAll {outer : List Text} {nodes : List Node} (apart : Apart nodes)
    (each : ∀ node ∈ nodes, ∀ builder : Builder, openTags builder.frames = outer →
      builder.draft.Admits node →
        (node.tokens.foldl add builder).draft = builder.draft.change (node :: ·))
    (builder : Builder) (inside : openTags builder.frames = outer)
    (admits : ∀ first, nodes.head? = some first → builder.draft.Admits first) :
    ((tokensAll nodes).foldl add builder).draft = builder.draft.change (nodes.reverse ++ ·) := by
  induction nodes generalizing builder with
  | nil => exact builder.draft.change_self.symm
  | cons node others ih =>
      obtain ⟨joint, inner⟩ := List.isChain_cons.mp apart
      have first := each node List.mem_cons_self builder inside (admits node rfl)
      rw [tokensAll, List.foldl_append,
        ih inner (fun other member => each other (List.mem_cons_of_mem _ member)), first,
        Draft.change_change]
      · congr 1
        funext children
        rw [List.reverse_cons, List.append_assoc, List.singleton_append]
      · rw [← tags_draft, first, Draft.tags_change, tags_draft, inside]
      · intro next isNext last latest
        rw [first, Draft.children_change] at latest
        cases latest
        exact joint next isNext

end Builder

/-- The tokens of a grown node build it again, on top of any builder with the same open tags. -/
theorem Grown.addAll_tokens {outer : List Text} {node : Node} (grown : Grown outer node)
    {builder : Builder} (inside : openTags builder.frames = outer)
    (admits : builder.draft.Admits node) :
    (node.tokens.foldl Builder.add builder).draft = builder.draft.change (node :: ·) := by
  induction grown generalizing builder with
  | text some =>
      rename_i outer content
      refine Builder.draft_change ?_
      unfold addText
      rw [if_neg (by simpa using some)]
      split
      · rename_i link previous rest shape
        have meets := admits (.text previous) (by rw [← builder.nodesOf_children, shape]; rfl)
        cases meets
      · exact congrArg (Node.text content :: ·) builder.nodesOf_children
  | void readable opens isVoid =>
      rename_i outer head
      have notRaw : rawTextTags.contains head.tag = false := by
        cases isRaw : rawTextTags.contains head.tag with
        | false => rfl
        | true => rw [not_void_of_raw isRaw] at isVoid; cases isVoid
      simp only [Node.tokens, notRaw, isVoid, Bool.false_eq_true, if_false, if_true, List.foldl_cons,
        List.foldl_nil, Builder.add, Bool.or_true]
      rw [Builder.prepareFor_of_opens (inside ▸ opens)]
      exact Builder.draft_change (congrArg (Node.element head [] :: ·) builder.nodesOf_children)
  | raw readable opens isRaw kept =>
      rename_i outer head content
      simp only [Node.tokens, isRaw, if_true, List.foldl_cons, List.foldl_nil, Builder.add,
        innerTexts_textNodes]
      rw [Builder.prepareFor_of_opens (inside ▸ opens)]
      refine Builder.draft_change ?_
      rw [nodesOf, Linked.node, nodesOf_addText_nil, builder.nodesOf_children]
  | nodes readable opens holds apart inner ih =>
      rename_i outer head children
      have started : builder.add (.startTag head false) =
          { builder with frames := ⟨builder.here, head, []⟩ :: builder.frames } := by
        simp only [Builder.add, holds.notVoid, Bool.or_false, Bool.false_eq_true, if_false]
        rw [Builder.prepareFor_of_opens (inside ▸ opens)]
      have content := Builder.addAll_tokensAll apart
        (fun node member builder same follows => ih node member same follows)
        { builder with frames := ⟨builder.here, head, []⟩ :: builder.frames }
        (congrArg (head.tag :: ·) inside) (by rintro first _ last ⟨⟩)
      simp only [Node.tokens, holds.notRaw, holds.notVoid, Bool.false_eq_true, if_false,
        List.foldl_cons, List.foldl_append, List.foldl_nil, started]
      have closed := Builder.draft_endTag_innermost readable.tag.some content
      simp only [nodesOf, List.append_nil, List.reverse_reverse] at closed
      exact closed

/-- Writing a document that was read and reading it again gives the same document, and nothing has
to be repaired on the way. -/
theorem parse_write_parse (html : Text) :
    Document.parse (Document.parse html).1.write = ((Document.parse html).1, []) := by
  obtain ⟨apart, grown⟩ := siblings_parse html
  generalize (Document.parse html).1 = document at apart grown ⊢
  have plain : verbatimTags.contains documentTag = false := by decide
  have read := readAll_writeAll apart
    (fun node member rest markup => (grown node member).readAll_write plain rest markup) []
    (by rintro byte ⟨⟩)
  have tokens : Token.readAll document.write = tokensAll document.children := by
    rw [List.append_nil, Token.readAll, List.append_nil] at read
    exact read
  have built := Builder.addAll_tokensAll apart
    (fun node member builder same admits => (grown node member).addAll_tokens same admits)
    Builder.start rfl (by rintro first _ last ⟨⟩)
  obtain ⟨nodes, warnings⟩ := Builder.finish_of_draft built
  simp only [Builder.draft, Builder.start, nodesOf, List.append_nil, List.reverse_reverse] at nodes
  rw [Document.parse, Linked.parse, tokens]
  exact Prod.ext (congrArg Document.mk nodes) warnings

end Html

end SlidePress
