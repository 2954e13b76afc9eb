import SlidePress.Payload.Value
import SlidePress.Proofs.Payload.Reading

/-! What is written is JSON. A value whose strings are valid UTF-8 and whose numbers are written as
JSON writes them gives a JSON text that stands for it. -/

namespace SlidePress.Payload

open Json

def IsUtf8 (text : Text) : Prop := ∃ string : String, text = Text.ofString string

theorem ofString_eq_flatMap (string : String) :
    Text.ofString string = string.toList.flatMap String.utf8EncodeChar := by
  have encoded : string.toUTF8 = (string.toList.flatMap String.utf8EncodeChar).toByteArray := by
    rw [← List.utf8Encode.eq_1, String.utf8Encode_toList]
    rfl
  rw [Text.ofString, encoded, List.toList_data_toByteArray]

section Strings

theorem escape_ordinary {byte : UInt8} (printed : 32 ≤ byte.toNat)
    (notQuote : byte ≠ Byte.doubleQuote) (notBackslash : byte ≠ Byte.backslash) :
    escape byte = [byte] := by
  have least : ¬ byte < 32 := by
    rw [UInt8.lt_iff_toNat_lt]
    exact Nat.not_lt.mpr printed
  have notControl : byte ≠ 10 ∧ byte ≠ 13 ∧ byte ≠ 9 := by
    refine ⟨?_, ?_, ?_⟩ <;> rintro rfl <;> exact absurd printed (by decide)
  simp [escape, notQuote, notBackslash, notControl, least]

theorem flatMap_escape {bytes : Text} (ordinary : ∀ byte ∈ bytes, escape byte = [byte]) :
    bytes.flatMap escape = bytes := by
  induction bytes with
  | nil => rfl
  | cons byte rest ih =>
      obtain ⟨first, others⟩ := List.forall_mem_cons.mp ordinary
      rw [List.flatMap_cons, first, ih others]
      rfl

/-- Control characters without a letter of their own are written by number. -/
theorem escape_control : ∀ number < 32, number ∉ [9, 10, 13] →
    escape number.toUInt8 =
        [Byte.backslash, 'u'.toUInt8, '0'.toUInt8, '0'.toUInt8, hexDigit (number / 16),
          hexDigit (number % 16)] ∧
      hexNumber? '0'.toUInt8 '0'.toUInt8 (hexDigit (number / 16)) (hexDigit (number % 16)) =
        some number := by
  decide

/-- The step: one character before the others of a string. It is escaped by a letter, stands for
itself, or is escaped by its number. -/
theorem characters_cons (character : Char) {written text : Text} (rest : Characters written text) :
    Characters ((String.utf8EncodeChar character).flatMap escape ++ written)
      (String.utf8EncodeChar character ++ text) := by
  by_cases lettered : character ∈ ['"', '\\', '\n', '\r', '\t']
  · simp only [List.mem_cons, List.not_mem_nil, or_false] at lettered
    rcases lettered with rfl | rfl | rfl | rfl | rfl
    all_goals exact .short _ _ (by decide) rest
  · simp only [List.mem_cons, List.not_mem_nil, or_false, not_or] at lettered
    obtain ⟨notQuote, notBackslash, notFeed, notReturn, notTab⟩ := lettered
    by_cases printed : 32 ≤ character.toNat
    · have ordinary : ∀ byte ∈ String.utf8EncodeChar character, escape byte = [byte] := by
        intro byte member
        obtain ⟨quote, backslash⟩ :=
          ordinary_of_mem_utf8EncodeChar notQuote notBackslash byte member
        have number := Utf8.toNat_of_mem_utf8EncodeChar member
        exact escape_ordinary (by omega) quote backslash
      rw [flatMap_escape ordinary]
      exact .plain character printed notQuote notBackslash rest
    · have unlettered : character.toNat ∉ [9, 10, 13] := by
        simp only [List.mem_cons, List.not_mem_nil, or_false, not_or]
        exact ⟨fun same => notTab (Char.toNat_inj.mp same),
          fun same => notFeed (Char.toNat_inj.mp same),
          fun same => notReturn (Char.toNat_inj.mp same)⟩
      obtain ⟨escaped, known⟩ := escape_control _ (Nat.lt_of_not_le printed) unlettered
      have single : String.utf8EncodeChar character = [character.toNat.toUInt8] :=
        Utf8.utf8EncodeChar_of_ascii (by omega)
      rw [single, List.flatMap_singleton, escaped, ← single]
      exact .unit character ⟨known⟩ rest

/-- The run: all characters of a string. -/
theorem characters_flatMap (characters : List Char) :
    Characters ((characters.flatMap String.utf8EncodeChar).flatMap escape)
      (characters.flatMap String.utf8EncodeChar) := by
  induction characters with
  | nil => exact .nil
  | cons character rest ih =>
      rw [List.flatMap_cons, List.flatMap_append]
      exact characters_cons character ih

theorem quoted_quote {text : Text} (valid : IsUtf8 text) : Quoted (quote text) text := by
  obtain ⟨string, rfl⟩ := valid
  rw [ofString_eq_flatMap]
  exact .marks (characters_flatMap string.toList)

end Strings

section Numbers

/-- Only the numeral of zero begins with a zero. -/
theorem ofNat_of_head {number : Nat}
    (zero : (Text.ofNat number).head? = some '0'.toUInt8) : Text.ofNat number = ['0'.toUInt8] := by
  induction number using Nat.strongRecOn with
  | ind number ih =>
      by_cases small : number < 10
      · rw [Text.ofNat, Nat.toDigits_of_lt_base small] at zero ⊢
        exact congrArg (fun digit => [digit]) (Option.some.inj zero)
      · have divided := Nat.toDigits_of_base_le (by decide) (Nat.le_of_not_lt small)
        have front : (Text.ofNat (number / 10)).head? = some '0'.toUInt8 := by
          obtain ⟨first, rest, digits⟩ :=
            List.exists_cons_of_ne_nil (Nat.toDigits_ne_nil (n := number / 10) (b := 10))
          rw [Text.ofNat, divided, digits] at zero
          rw [Text.ofNat, digits]
          exact zero
        have nothing : number / 10 = 0 :=
          Text.ofNat_injective (ih _ (Nat.div_lt_self (by omega) (by decide)) front)
        omega

theorem wholePart_ofNat (number : Nat) : WholePart (Text.ofNat number) :=
  ⟨⟨by simp [Text.ofNat], List.all_eq_true.mpr fun _ => Text.isDigit_of_mem_ofNat⟩, ofNat_of_head⟩

theorem numberToken_ofNat (number : Nat) : NumberToken (Text.ofNat number) :=
  ⟨[], _, [], [], by simp, by simp, wholePart_ofNat number, .inl rfl, .inl rfl⟩

theorem numberToken_ofInt (number : Int) : NumberToken (Text.ofInt number) := by
  unfold Text.ofInt
  split
  · exact ⟨['-'.toUInt8], Text.ofNat number.natAbs, [], [], by simp, by simp, wholePart_ofNat _,
      .inl rfl, .inl rfl⟩
  · exact numberToken_ofNat _

end Numbers

mutual

def Value.json : Value → Json
  | .string text => .string text
  | .number written => .number written
  | .boolean value => .boolean value
  | .array items => .array (jsonItems items)
  | .object members => .object (jsonMembers members)

def jsonItems : List Value → List Json
  | [] => []
  | item :: rest => item.json :: jsonItems rest

def jsonMembers : List (Text × Value) → List (Text × Json)
  | [] => []
  | (name, value) :: rest => (name, value.json) :: jsonMembers rest

end

theorem jsonItems_eq_map (items : List Value) : jsonItems items = items.map Value.json := by
  induction items with
  | nil => rfl
  | cons item rest ih => rw [jsonItems, ih, List.map_cons]

theorem jsonMembers_eq_map (members : List (Text × Value)) :
    jsonMembers members = members.map fun member => (member.1, member.2.json) := by
  induction members with
  | nil => rfl
  | cons member rest ih => rw [jsonMembers, ih, List.map_cons]

theorem writeItems_eq (items : List Value) : writeItems items = commas (items.map Value.write) := by
  induction items with
  | nil => rfl
  | cons item rest ih =>
      cases rest with
      | nil => rfl
      | cons second others =>
          rw [writeItems, ih, List.map_cons, List.map_cons, List.map_cons, commas_cons_cons]
          simp

/-- Every string in the value is valid UTF-8, and every number is written as one of JSON. -/
inductive Value.Sound : Value → Prop where
  | string {text : Text} (valid : IsUtf8 text) : Sound (.string text)
  | number {written : Text} (token : NumberToken written) : Sound (.number written)
  | boolean (value : Bool) : Sound (.boolean value)
  | array {items : List Value} (each : ∀ item ∈ items, Sound item) : Sound (.array items)
  | object {members : List (Text × Value)} (names : ∀ member ∈ members, IsUtf8 member.1)
      (each : ∀ member ∈ members, Sound member.2) : Sound (.object members)

def writtenMember (member : Text × Value) : Member where
  writtenName := quote member.1
  name := member.1
  writtenValue := member.2.write
  value := member.2.json

theorem writeMembers_eq (members : List (Text × Value)) :
    writeMembers members = commas (members.map fun member => (writtenMember member).written) := by
  induction members with
  | nil => rfl
  | cons member rest ih =>
      cases rest with
      | nil => rfl
      | cons second others =>
          rw [writeMembers, ih]
          · simp only [List.map_cons, commas_cons_cons]
            simp [Member.written, writtenMember]
          · simp

theorem name_quote {name : Text} (valid : IsUtf8 name) : Name (quote name) name := by
  have noBlanks : Blanks [] := by simp [Blanks]
  have padded := Name.padded noBlanks (quoted_quote valid) noBlanks
  rwa [List.nil_append, List.append_nil] at padded

/-- A sound value is written as a JSON text that stands for it. -/
theorem denotes_write {value : Value} (sound : value.Sound) : Denotes value.write value.json := by
  have noBlanks : Blanks [] := by simp [Blanks]
  induction sound with
  | string valid => exact .string (quoted_quote valid)
  | number token => exact .number token
  | boolean value => cases value <;> constructor
  | @array items _ ih =>
      rw [Value.write, Value.json, writeItems_eq, jsonItems_eq_map]
      by_cases empty : items = []
      · rw [empty]
        exact .emptyArray noBlanks
      · have each : ∀ item ∈ items.map fun item => (item.write, item.json),
            Denotes item.1 item.2 := List.forall_mem_map.mpr ih
        have array := Denotes.array _ (by simpa using empty) each
        rwa [List.map_map, List.map_map] at array
  | @object members names _ ih =>
      rw [Value.write, Value.json, writeMembers_eq, jsonMembers_eq_map]
      by_cases empty : members = []
      · rw [empty]
        exact .emptyObject noBlanks
      · have named : ∀ member ∈ members.map writtenMember,
            Name member.writtenName member.name :=
          List.forall_mem_map.mpr fun member inside => name_quote (names member inside)
        have each : ∀ member ∈ members.map writtenMember,
            Denotes member.writtenValue member.value := List.forall_mem_map.mpr ih
        have object := Denotes.object _ (by simpa using empty) named each
        rwa [List.map_map, List.map_map] at object

end SlidePress.Payload
