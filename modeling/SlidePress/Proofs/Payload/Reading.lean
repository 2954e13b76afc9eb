import SlidePress.Proofs.Payload.Grammar
import SlidePress.Proofs.Text.Case
import SlidePress.Proofs.Text.Marks
import SlidePress.Proofs.Text.Utf8

/-! A JSON text stands for one value. A reader that goes through a text from the left finds the
value of every JSON text, whatever follows it; two values of one text are then the same. The reader
is generous with texts that are no JSON. -/

namespace SlidePress.Payload

namespace Json

def skip (text : Text) : Text := text.dropWhile isBlank

def bytesOf (point : Nat) : Text := String.utf8EncodeChar (Char.ofNat point)

/-- The bytes that an escape stands for, and what follows it. The backslash is read already. -/
def readEscape : Text → Option (Text × Text)
  | [] => none
  | mark :: rest =>
      if mark ≠ 'u'.toUInt8 then (shortEscapes.lookup mark).map fun byte => ([byte], rest)
      else
        match rest with
        | first :: second :: third :: fourth :: rest => do
            let unit ← hexNumber? first second third fourth
            if unit < 0xD800 ∨ 0xDFFF < unit then some (bytesOf unit, rest)
            else
              match rest with
              | _ :: _ :: first :: second :: third :: fourth :: rest => do
                  let other ← hexNumber? first second third fourth
                  some (bytesOf (0x10000 + (unit - 0xD800) * 0x400 + (other - 0xDC00)), rest)
              | _ => none
        | _ => none

/-- The bytes of a string up to its closing quotation mark, and what follows the mark. The number
limits the steps. -/
def readCharacters : Nat → Text → Option (Text × Text)
  | 0, _ | _, [] => none
  | steps + 1, byte :: rest =>
      if byte = Byte.doubleQuote then some ([], rest)
      else do
        let (bytes, rest) ← if byte = Byte.backslash then readEscape rest else some ([byte], rest)
        let (more, rest) ← readCharacters steps rest
        some (bytes ++ more, rest)

def readQuoted : Text → Option (Text × Text)
  | [] => none
  | mark :: rest => if mark = Byte.doubleQuote then readCharacters rest.length rest else none

section Strings

theorem readEscape_short {mark byte : UInt8} (known : (mark, byte) ∈ shortEscapes) (rest : Text) :
    readEscape (mark :: rest) = some ([byte], rest) := by
  simp only [shortEscapes, List.mem_cons, List.not_mem_nil, or_false, Prod.mk.injEq] at known
  rcases known with ⟨rfl, rfl⟩ | ⟨rfl, rfl⟩ | ⟨rfl, rfl⟩ | ⟨rfl, rfl⟩ | ⟨rfl, rfl⟩ | ⟨rfl, rfl⟩ |
    ⟨rfl, rfl⟩ | ⟨rfl, rfl⟩
  all_goals rfl

/-- No character is a surrogate. -/
theorem not_surrogate (character : Char) :
    character.toNat < 0xD800 ∨ 0xDFFF < character.toNat := by
  rcases character.valid with low | ⟨high, _⟩
  · exact .inl low
  · exact .inr high

theorem bytesOf_toNat (character : Char) :
    bytesOf character.toNat = String.utf8EncodeChar character := by
  rw [bytesOf, Char.ofNat_toNat]

theorem readEscape_unit {escape : Text} {character : Char}
    (escaped : UnitEscape escape character.toNat) (rest : Text) :
    readEscape (escape ++ rest) = some (String.utf8EncodeChar character, rest) := by
  obtain ⟨known⟩ := escaped
  rw [readEscape.eq_def]
  simp only [List.cons_append, List.nil_append, ne_eq, not_true_eq_false, if_false, known,
    Option.bind_eq_bind, Option.bind_some, if_pos (not_surrogate character), bytesOf_toNat]

theorem readEscape_pair {high low : Text} {character : Char} {upper lower : Nat}
    (small : upper < 0x400 ∧ lower < 0x400)
    (together : character.toNat = 0x10000 + upper * 0x400 + lower)
    (escapedHigh : UnitEscape high (0xD800 + upper)) (escapedLow : UnitEscape low (0xDC00 + lower))
    (rest : Text) :
    readEscape (high ++ Byte.backslash :: (low ++ rest)) =
      some (String.utf8EncodeChar character, rest) := by
  obtain ⟨knownHigh⟩ := escapedHigh
  obtain ⟨knownLow⟩ := escapedLow
  have surrogate : ¬ (0xD800 + upper < 0xD800 ∨ 0xDFFF < 0xD800 + upper) := by omega
  rw [readEscape.eq_def]
  simp only [List.cons_append, List.nil_append, ne_eq, not_true_eq_false, if_false, knownHigh,
    knownLow, Option.bind_eq_bind, Option.bind_some, if_neg surrogate, Nat.add_sub_cancel_left,
    ← together, bytesOf_toNat]

/-- Bytes other than quotation marks and backslashes stand for themselves. -/
theorem readCharacters_plain {bytes : Text}
    (ordinary : ∀ byte ∈ bytes, byte ≠ Byte.doubleQuote ∧ byte ≠ Byte.backslash) {steps : Nat}
    {rest more after : Text} (read : readCharacters steps rest = some (more, after)) :
    readCharacters (bytes.length + steps) (bytes ++ rest) = some (bytes ++ more, after) := by
  induction bytes with
  | nil => simpa using read
  | cons byte tail ih =>
      obtain ⟨⟨notQuote, notBackslash⟩, ordinaryTail⟩ := List.forall_mem_cons.mp ordinary
      rw [List.length_cons, Nat.add_right_comm, List.cons_append, readCharacters]
      simp [notQuote, notBackslash, ih ordinaryTail]

theorem readCharacters_escape {text bytes rest more after : Text} {steps : Nat}
    (escaped : readEscape text = some (bytes, rest))
    (read : readCharacters steps rest = some (more, after)) :
    readCharacters (steps + 1) (Byte.backslash :: text) = some (bytes ++ more, after) := by
  have notQuote : Byte.backslash ≠ Byte.doubleQuote := by decide
  rw [readCharacters]
  simp [notQuote, escaped, read]

/-- The bytes of a character that is no mark are read as they are. -/
theorem ordinary_of_mem_utf8EncodeChar {character : Char} (notQuote : character ≠ '"')
    (notBackslash : character ≠ '\\') :
    ∀ byte ∈ String.utf8EncodeChar character,
      byte ≠ Byte.doubleQuote ∧ byte ≠ Byte.backslash := by
  intro byte member
  have number := Utf8.toNat_of_mem_utf8EncodeChar member
  constructor
  · rintro rfl
    refine notQuote (Char.toNat_inj.mp ?_)
    exact (number.resolve_right (by decide)).symm
  · rintro rfl
    refine notBackslash (Char.toNat_inj.mp ?_)
    exact (number.resolve_right (by decide)).symm

/-- The run: all characters up to the closing mark. Every one of them takes at least a byte, so that
a step for each byte and one for the mark are enough. -/
theorem readCharacters_of_characters {written text : Text} (characters : Characters written text)
    {steps : Nat} (enough : written.length < steps) (rest : Text) :
    readCharacters steps (written ++ Byte.doubleQuote :: rest) = some (text, rest) := by
  induction characters generalizing steps with
  | nil =>
      obtain ⟨fewer, rfl⟩ := Nat.exists_eq_add_one.mpr enough
      simp [readCharacters]
  | plain character printed notQuote notBackslash _ ih =>
      rw [List.length_append] at enough
      obtain ⟨fewer, rfl⟩ := Nat.exists_eq_add_of_le (Nat.le_of_lt (Nat.lt_of_add_right_lt enough))
      rw [List.append_assoc]
      exact readCharacters_plain (ordinary_of_mem_utf8EncodeChar notQuote notBackslash)
        (ih (by omega))
  | short mark byte known _ ih =>
      obtain ⟨fewer, rfl⟩ := Nat.exists_eq_add_one.mpr (Nat.zero_lt_of_lt enough)
      simp only [List.length_cons] at enough
      exact readCharacters_escape (readEscape_short known _) (ih (by omega))
  | unit character escaped _ ih =>
      obtain ⟨fewer, rfl⟩ := Nat.exists_eq_add_one.mpr (Nat.zero_lt_of_lt enough)
      simp only [List.length_cons, List.length_append] at enough
      rw [List.cons_append, List.append_assoc]
      exact readCharacters_escape (readEscape_unit escaped _) (ih (by omega))
  | pair character upper lower small together escapedHigh escapedLow _ ih =>
      obtain ⟨fewer, rfl⟩ := Nat.exists_eq_add_one.mpr (Nat.zero_lt_of_lt enough)
      simp only [List.length_cons, List.length_append] at enough
      rw [List.cons_append, List.append_assoc, List.cons_append, List.append_assoc]
      exact readCharacters_escape (readEscape_pair small together escapedHigh escapedLow _)
        (ih (by omega))

theorem readQuoted_of_quoted {written text : Text} (quoted : Quoted written text) (rest : Text) :
    readQuoted (written ++ rest) = some (text, rest) := by
  obtain ⟨characters⟩ := quoted
  simp only [List.cons_append, List.append_assoc, List.nil_append, readQuoted, if_true]
  exact readCharacters_of_characters characters (by simp) rest

end Strings

def isWordByte (byte : UInt8) : Bool :=
  Byte.isDigit byte || Byte.isLetter byte ||
    ['+'.toUInt8, '-'.toUInt8, '.'.toUInt8].contains byte

def ofWord (word : Text) : Json :=
  if word = Text.ofString "null" then .null
  else if word = Text.ofString "true" then .boolean true
  else if word = Text.ofString "false" then .boolean false
  else .number word

/-- Pieces with commas between them up to a closing byte, and what follows it. The number limits
the pieces. -/
def readPieces {α : Type} (close : UInt8) (readPiece : Text → Option (α × Text)) :
    Nat → Text → Option (List α × Text)
  | 0, _ => none
  | count + 1, text => do
      let (piece, rest) ← readPiece text
      match rest with
      | [] => none
      | mark :: rest =>
          if mark = ','.toUInt8 then do
            let (pieces, rest) ← readPieces close readPiece count rest
            some (piece :: pieces, rest)
          else if mark = close then some ([piece], rest)
          else none

def readList {α : Type} (close : UInt8) (readPiece : Text → Option (α × Text)) (text : Text) :
    Option (List α × Text) :=
  match readPieces close readPiece text.length text with
  | some read => some read
  | none => some ([], (skip text).tail)

def readMember (readValue : Text → Option (Json × Text)) (text : Text) :
    Option ((Text × Json) × Text) := do
  let (name, rest) ← readQuoted (skip text)
  let (value, rest) ← readValue (skip rest).tail
  some ((name, value), rest)

/-- The value at the start of a text, with the blanks around it, and what follows. The number limits
the depth. -/
def readValue : Nat → Text → Option (Json × Text)
  | 0, _ => none
  | depth + 1, text =>
      match skip text with
      | [] => none
      | mark :: rest =>
          if mark = Byte.doubleQuote then do
            let (text, rest) ← readQuoted (mark :: rest)
            some (.string text, skip rest)
          else if mark = '['.toUInt8 then do
            let (items, rest) ← readList ']'.toUInt8 (readValue depth) rest
            some (.array items, skip rest)
          else if mark = Byte.openBrace then do
            let (members, rest) ← readList Byte.closeBrace (readMember (readValue depth)) rest
            some (.object members, skip rest)
          else if isWordByte mark then
            let (word, rest) := Text.cut isWordByte (mark :: rest)
            some (ofWord word, skip rest)
          else none

section Values

theorem skip_append {blanks : Text} (blank : Blanks blanks) (rest : Text) :
    skip (blanks ++ rest) = skip rest :=
  List.dropWhile_append_of_pos blank

theorem skip_cons_of_not {byte : UInt8} (mark : isBlank byte = false) (rest : Text) :
    skip (byte :: rest) = byte :: rest := by
  simp [skip, mark]

def Stops (rest : Text) : Prop := ∀ byte, rest.head? = some byte → isWordByte byte = false

theorem not_isWordByte_of_isBlank {byte : UInt8} (blank : isBlank byte = true) :
    isWordByte byte = false := by
  simp only [isBlank, Bool.or_eq_true, beq_iff_eq] at blank
  rcases blank with ((rfl | rfl) | rfl) | rfl <;> decide

theorem Stops.append {blanks rest : Text} (blank : Blanks blanks) (stops : Stops rest) :
    Stops (blanks ++ rest) := by
  cases blanks with
  | nil => exact stops
  | cons byte more =>
      intro first same
      cases same
      exact not_isWordByte_of_isBlank (blank byte List.mem_cons_self)

/-- A byte that closes a list, or parts its pieces. -/
def Parts (byte : UInt8) : Prop := isBlank byte = false ∧ isWordByte byte = false

theorem Parts.stops {byte : UInt8} (parts : Parts byte) (rest : Text) : Stops (byte :: rest) := by
  intro first same
  cases same
  exact parts.2

/-- A reader finds a value where it is written, whatever follows. -/
def Finds {α : Type} (read : Text → Option (α × Text)) (written : Text) (value : α) : Prop :=
  ∀ rest, Stops rest → read (written ++ rest) = some (value, skip rest)

section Lists

variable {α β : Type} {close : UInt8} {read : Text → Option (α × Text)} {written : β → Text}
  {value : β → α}

theorem commas_cons_cons (first second : Text) (rest : List Text) :
    commas (first :: second :: rest) = first ++ ','.toUInt8 :: commas (second :: rest) := by
  simp [commas, Text.join]

theorem length_le_commas {piece : Text} {pieces : List Text} (member : piece ∈ pieces) :
    piece.length ≤ (commas pieces).length := by
  induction pieces with
  | nil => cases member
  | cons first more ih =>
      cases more with
      | nil => rw [List.mem_singleton.mp member]; exact Nat.le_refl _
      | cons second others =>
          rw [commas_cons_cons, List.length_append, List.length_cons]
          rcases List.mem_cons.mp member with rfl | later
          · exact Nat.le_add_right _ _
          · exact Nat.le_trans (ih later) (by omega)

theorem length_le_length_commas (pieces : List Text) :
    pieces.length ≤ (commas pieces).length + 1 := by
  induction pieces with
  | nil => exact Nat.zero_le _
  | cons first more ih =>
      cases more with
      | nil => exact Nat.le_add_left _ _
      | cons second others =>
          rw [commas_cons_cons, List.length_append]
          simp only [List.length_cons] at ih ⊢
          omega

theorem readPieces_commas (parts : Parts close) (distinct : close ≠ ','.toUInt8) {pieces : List β}
    (some : pieces ≠ []) (finds : ∀ piece ∈ pieces, Finds read (written piece) (value piece))
    {count : Nat} (enough : pieces.length ≤ count) (rest : Text) :
    readPieces close read count (commas (pieces.map written) ++ close :: rest) =
      .some (pieces.map value, rest) := by
  induction pieces generalizing count with
  | nil => exact absurd rfl some
  | cons first more ih =>
      obtain ⟨fewer, rfl⟩ := Nat.exists_eq_add_one.mpr (Nat.zero_lt_of_lt enough)
      obtain ⟨findsFirst, findsMore⟩ := List.forall_mem_cons.mp finds
      cases more with
      | nil =>
          have found := findsFirst (close :: rest) (parts.stops rest)
          rw [skip_cons_of_not parts.1] at found
          have last : commas ([first].map written) = written first := rfl
          rw [readPieces, last, found]
          simp [distinct]
      | cons second others =>
          have comma : Parts ','.toUInt8 := ⟨by decide, by decide⟩
          have found := findsFirst
            (','.toUInt8 :: (commas ((second :: others).map written) ++ close :: rest))
            (comma.stops _)
          rw [skip_cons_of_not comma.1] at found
          have later := ih (List.cons_ne_nil _ _) findsMore (Nat.le_of_succ_le_succ enough)
          simp only [List.map_cons] at found later ⊢
          rw [readPieces, commas_cons_cons, List.append_assoc, List.cons_append, found]
          simp [later]

theorem readList_commas (parts : Parts close) (distinct : close ≠ ','.toUInt8) {pieces : List β}
    (some : pieces ≠ []) (finds : ∀ piece ∈ pieces, Finds read (written piece) (value piece))
    (rest : Text) :
    readList close read (commas (pieces.map written) ++ close :: rest) =
      .some (pieces.map value, rest) := by
  have enough := length_le_length_commas (pieces.map written)
  rw [List.length_map] at enough
  rw [readList, readPieces_commas parts distinct some finds]
  rw [List.length_append, List.length_cons]
  omega

theorem readList_blanks (parts : Parts close) {blanks : Text} (blank : Blanks blanks) (rest : Text)
    (refuses : read (blanks ++ close :: rest) = none) :
    readList close read (blanks ++ close :: rest) = .some ([], rest) := by
  have nothing : ∀ count, readPieces close read count (blanks ++ close :: rest) = none := by
    intro count
    cases count with
    | zero => rfl
    | succ count => rw [readPieces, refuses]; rfl
  rw [readList, nothing]
  simp only [skip_append blank, skip_cons_of_not parts.1, List.tail_cons]

end Lists

theorem readQuoted_of_name {written name : Text} (named : Name written name) (rest : Text) :
    ∃ blanks, Blanks blanks ∧
      readQuoted (skip (written ++ rest)) = some (name, blanks ++ rest) := by
  obtain @⟨before, quotation, after, _, blanksBefore, quoted, blanksAfter⟩ := named
  refine ⟨after, blanksAfter, ?_⟩
  have read := readQuoted_of_quoted quoted (after ++ rest)
  obtain ⟨characters⟩ := quoted
  rw [List.append_assoc, List.append_assoc, skip_append blanksBefore]
  exact read

theorem finds_readMember {readValue : Text → Option (Json × Text)} {member : Member}
    (named : Name member.writtenName member.name)
    (finds : Finds readValue member.writtenValue member.value) :
    Finds (readMember readValue) member.written (member.name, member.value) := by
  intro rest stops
  obtain ⟨blanks, blank, read⟩ :=
    readQuoted_of_name named (':'.toUInt8 :: (member.writtenValue ++ rest))
  have colon : isBlank ':'.toUInt8 = false := by decide
  rw [readMember, Member.written, List.append_assoc, List.cons_append, read]
  simp [skip_append blank, skip_cons_of_not colon, finds rest stops]

/-- The blanks at the start of a text do not count. -/
theorem readValue_skip (depth : Nat) {first second : Text} (same : skip first = skip second) :
    readValue depth first = readValue depth second := by
  cases depth with
  | zero => rfl
  | succ depth => rw [readValue, readValue, same]

theorem finds_word {word : Text} (some : word ≠ [])
    (bytes : ∀ byte ∈ word, isWordByte byte = true) (depth : Nat) :
    Finds (readValue (depth + 1)) word (ofWord word) := by
  intro rest stops
  have taken := Text.takeWhile_append_stop bytes stops
  have dropped := Text.dropWhile_append_stop bytes stops
  cases word with
  | nil => exact absurd rfl some
  | cons first more =>
      have isWord := bytes first List.mem_cons_self
      have notBlank : isBlank first = false := by
        rw [← Bool.not_eq_true]
        intro blank
        rw [not_isWordByte_of_isBlank blank] at isWord
        cases isWord
      have notMark : ∀ mark, isWordByte mark = false → first ≠ mark := by
        rintro mark outside rfl
        rw [outside] at isWord
        cases isWord
      rw [List.cons_append] at taken dropped ⊢
      rw [readValue, skip_cons_of_not notBlank]
      simp only [if_neg (notMark Byte.doubleQuote (by decide)),
        if_neg (notMark '['.toUInt8 (by decide)), if_neg (notMark Byte.openBrace (by decide)),
        isWord, if_true, Text.cut, taken, dropped]

theorem finds_quoted {written text : Text} (quoted : Quoted written text) (depth : Nat) :
    Finds (readValue (depth + 1)) written (.string text) := by
  intro rest stops
  have read := readQuoted_of_quoted quoted rest
  obtain ⟨characters⟩ := quoted
  rw [List.cons_append, List.cons_append] at read ⊢
  rw [readValue, skip_cons_of_not (by decide)]
  simp only [if_true, read]
  rfl

theorem readValue_array {depth : Nat} {text rest : Text} {items : List Json}
    (read : readList ']'.toUInt8 (readValue depth) text = some (items, rest)) :
    readValue (depth + 1) ('['.toUInt8 :: text) = some (.array items, skip rest) := by
  have mark : '['.toUInt8 ≠ Byte.doubleQuote := by decide
  rw [readValue, skip_cons_of_not (by decide)]
  simp [mark, read]

theorem readValue_object {depth : Nat} {text rest : Text} {members : List (Text × Json)}
    (read : readList Byte.closeBrace (readMember (readValue depth)) text = some (members, rest)) :
    readValue (depth + 1) (Byte.openBrace :: text) = some (.object members, skip rest) := by
  have mark : Byte.openBrace ≠ Byte.doubleQuote ∧ Byte.openBrace ≠ '['.toUInt8 := by decide
  rw [readValue, skip_cons_of_not (by decide)]
  simp [mark, read]

/-- There is no value at a bracket that closes an array. -/
theorem readValue_blanks (depth : Nat) {blanks : Text} (blank : Blanks blanks) (rest : Text) :
    readValue depth (blanks ++ ']'.toUInt8 :: rest) = none := by
  cases depth with
  | zero => rfl
  | succ depth =>
      have mark : ']'.toUInt8 ≠ Byte.doubleQuote ∧ ']'.toUInt8 ≠ '['.toUInt8 ∧
        ']'.toUInt8 ≠ Byte.openBrace ∧ isWordByte ']'.toUInt8 = false := by decide
      rw [readValue, skip_append blank, skip_cons_of_not (by decide)]
      simp [mark]

theorem readMember_blanks (read : Text → Option (Json × Text)) {blanks : Text}
    (blank : Blanks blanks) (rest : Text) :
    readMember read (blanks ++ Byte.closeBrace :: rest) = none := by
  have mark : Byte.closeBrace ≠ Byte.doubleQuote := by decide
  rw [readMember, skip_append blank, skip_cons_of_not (by decide)]
  simp [readQuoted, mark]

theorem parts_brackets : Parts ']'.toUInt8 ∧ Parts Byte.closeBrace :=
  ⟨⟨by decide, by decide⟩, by decide, by decide⟩

theorem Digits.word {text : Text} (digits : Digits text) :
    ∀ byte ∈ text, isWordByte byte = true := by
  intro byte member
  rw [isWordByte, List.all_eq_true.mp digits.2 byte member]
  rfl

theorem FractionPart.word {text : Text} (fraction : FractionPart text) :
    ∀ byte ∈ text, isWordByte byte = true := by
  rcases fraction with rfl | ⟨digits, rfl, some⟩
  · simp
  · exact List.forall_mem_cons.mpr ⟨by decide, some.word⟩

theorem ExponentPart.word {text : Text} (exponent : ExponentPart text) :
    ∀ byte ∈ text, isWordByte byte = true := by
  rcases exponent with rfl | ⟨mark, sign, digits, rfl, marks, signs, some⟩
  · simp
  · simp only [List.mem_cons, List.not_mem_nil, or_false] at marks signs
    have marked : isWordByte mark = true := by
      rcases marks with rfl | rfl <;> rfl
    have signed : ∀ byte ∈ sign, isWordByte byte = true := by
      refine List.all_eq_true.mp ?_
      rcases signs with rfl | rfl | rfl <;> rfl
    exact List.forall_mem_cons.mpr ⟨marked, List.forall_mem_append.mpr ⟨signed, some.word⟩⟩

theorem NumberToken.word {token : Text} (number : NumberToken token) :
    ∀ byte ∈ token, isWordByte byte = true := by
  obtain ⟨sign, whole, fraction, exponent, rfl, signs, wholes, fractions, exponents⟩ := number
  simp only [List.mem_cons, List.not_mem_nil, or_false] at signs
  have signed : ∀ byte ∈ sign, isWordByte byte = true := by
    refine List.all_eq_true.mp ?_
    rcases signs with rfl | rfl <;> rfl
  simp only [List.forall_mem_append]
  exact ⟨⟨⟨signed, wholes.1.word⟩, fractions.word⟩, exponents.word⟩

/-- A number begins with a sign or a digit. -/
theorem NumberToken.head {token : Text} (number : NumberToken token) :
    ∃ first rest, token = first :: rest ∧ (Byte.isDigit first = true ∨ first = '-'.toUInt8) := by
  obtain ⟨sign, whole, fraction, exponent, rfl, signs, wholes, _, _⟩ := number
  obtain ⟨⟨some, digits⟩, _⟩ := wholes
  obtain ⟨first, rest, rfl⟩ := List.exists_cons_of_ne_nil some
  simp only [List.mem_cons, List.not_mem_nil, or_false] at signs
  rcases signs with rfl | rfl
  · exact ⟨first, _, rfl, .inl (List.all_eq_true.mp digits first List.mem_cons_self)⟩
  · exact ⟨_, _, rfl, .inr rfl⟩

/-- No number is a literal. -/
theorem NumberToken.ofWord_eq {token : Text} (number : NumberToken token) :
    ofWord token = .number token := by
  obtain ⟨first, rest, whole, start⟩ := number.head
  have other : ∀ letter more, Byte.isLetter letter = true → token ≠ letter :: more := by
    rintro letter more isLetter rfl
    cases whole
    rcases start with digit | rfl
    · rw [Byte.isDigit_of_isLetter _ isLetter] at digit
      cases digit
    · cases isLetter
  have notNull : token ≠ Text.ofString "null" := other 'n'.toUInt8 _ rfl
  have notTrue : token ≠ Text.ofString "true" := other 't'.toUInt8 _ rfl
  have notFalse : token ≠ Text.ofString "false" := other 'f'.toUInt8 _ rfl
  rw [ofWord, if_neg notNull, if_neg notTrue, if_neg notFalse]

/-- The reader finds the value of a JSON text. Pieces are shorter than the text around them, so that
its length bounds the depth. -/
theorem finds_of_denotes {text : Text} {json : Json} (denotes : Denotes text json) {depth : Nat}
    (enough : text.length < depth) : Finds (readValue depth) text json := by
  obtain ⟨fewer, rfl⟩ := Nat.exists_eq_add_one.mpr (Nat.zero_lt_of_lt enough)
  induction denotes generalizing fewer with
  | null => exact finds_word (List.cons_ne_nil _ _) (List.all_eq_true.mp rfl) fewer
  | true => exact finds_word (List.cons_ne_nil _ _) (List.all_eq_true.mp rfl) fewer
  | false => exact finds_word (List.cons_ne_nil _ _) (List.all_eq_true.mp rfl) fewer
  | number number =>
      obtain ⟨first, rest, whole, _⟩ := number.head
      rw [← number.ofWord_eq]
      exact finds_word (by simp [whole]) number.word fewer
  | string quoted => exact finds_quoted quoted fewer
  | emptyArray blank =>
      intro rest stops
      rw [List.cons_append, List.cons_append, List.append_assoc]
      exact readValue_array
        (readList_blanks parts_brackets.1 blank rest (readValue_blanks fewer blank rest))
  | array items some _ ih =>
      intro rest stops
      have finds : ∀ item ∈ items, Finds (readValue fewer) item.1 item.2 := by
        intro item inside
        have shorter := length_le_commas (List.mem_map_of_mem (f := (·.1)) inside)
        rw [List.cons_append, List.length_cons, List.length_append] at enough
        obtain ⟨less, rfl⟩ := Nat.exists_eq_add_one.mpr (show 0 < fewer by omega)
        exact ih item inside less (by omega)
      rw [List.cons_append, List.cons_append, List.append_assoc]
      exact readValue_array (readList_commas parts_brackets.1 (by decide) some finds rest)
  | emptyObject blank =>
      intro rest stops
      rw [List.cons_append, List.cons_append, List.append_assoc]
      exact readValue_object
        (readList_blanks parts_brackets.2 blank rest (readMember_blanks _ blank rest))
  | object members some names _ ih =>
      intro rest stops
      have finds : ∀ member ∈ members,
          Finds (readMember (readValue fewer)) member.written (member.name, member.value) := by
        intro member inside
        refine finds_readMember (names member inside) ?_
        have shorter := length_le_commas (List.mem_map_of_mem (f := Member.written) inside)
        rw [Member.written, List.length_append, List.length_cons] at shorter
        rw [List.cons_append, List.length_cons, List.length_append] at enough
        obtain ⟨less, rfl⟩ := Nat.exists_eq_add_one.mpr (show 0 < fewer by omega)
        exact ih member inside less (by omega)
      rw [List.cons_append, List.cons_append, List.append_assoc]
      exact readValue_object (readList_commas parts_brackets.2 (by decide) some finds rest)
  | padded blanksBefore _ blanksAfter ih =>
      intro rest stops
      simp only [List.length_append] at enough
      have found := ih fewer (by omega) _ (Stops.append blanksAfter stops)
      rw [skip_append blanksAfter] at found
      rw [List.append_assoc, List.append_assoc,
        readValue_skip (fewer + 1) (skip_append blanksBefore _), found]

end Values

end Json

/-- A JSON text stands for one value. -/
theorem Denotes.unique {text : Text} {first second : Json} (denotes : Denotes text first)
    (denotesToo : Denotes text second) : first = second := by
  have ends : Json.Stops [] := by simp [Json.Stops]
  have found := Json.finds_of_denotes denotes (Nat.lt_succ_self _) [] ends
  have foundToo := Json.finds_of_denotes denotesToo (Nat.lt_succ_self _) [] ends
  rw [found] at foundToo
  cases foundToo
  rfl

end SlidePress.Payload
