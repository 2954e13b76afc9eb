import SlidePress.Text.Basic

/-! The grammar of JSON, as a relation between a text and the value it stands for. Blanks may stand
around every value and every name. Strings are taken as the bytes of their characters in UTF-8,
numbers as they are written, and the members of an object in their order. -/

namespace SlidePress.Payload

inductive Json where
  | null
  | boolean (value : Bool)
  /-- A number as it is written. -/
  | number (token : Text)
  /-- A string in UTF-8. -/
  | string (text : Text)
  | array (items : List Json)
  | object (members : List (Text × Json))

namespace Json

def isBlank (byte : UInt8) : Bool := byte == 32 || byte == 9 || byte == 10 || byte == 13

def Blanks (text : Text) : Prop := ∀ byte ∈ text, isBlank byte = true

def Digits (text : Text) : Prop := text ≠ [] ∧ text.all Byte.isDigit = true

instance (text : Text) : Decidable (Digits text) := inferInstanceAs (Decidable (_ ∧ _))

/-- The part of a number before the point. Only zero itself begins with a zero. -/
def WholePart (text : Text) : Prop :=
  Digits text ∧ (text.head? = some '0'.toUInt8 → text = ['0'.toUInt8])

instance (text : Text) : Decidable (WholePart text) := inferInstanceAs (Decidable (_ ∧ _))

def FractionPart (text : Text) : Prop :=
  text = [] ∨ ∃ digits, text = '.'.toUInt8 :: digits ∧ Digits digits

def ExponentPart (text : Text) : Prop :=
  text = [] ∨ ∃ mark sign digits, text = mark :: (sign ++ digits) ∧
    mark ∈ ['e'.toUInt8, 'E'.toUInt8] ∧ sign ∈ [[], ['+'.toUInt8], ['-'.toUInt8]] ∧ Digits digits

def NumberToken (token : Text) : Prop :=
  ∃ sign whole fraction exponent, token = sign ++ whole ++ fraction ++ exponent ∧
    sign ∈ [[], ['-'.toUInt8]] ∧ WholePart whole ∧ FractionPart fraction ∧ ExponentPart exponent

/-- The escapes of one letter after the backslash, with the bytes they stand for. -/
def shortEscapes : List (UInt8 × UInt8) :=
  [(Byte.doubleQuote, Byte.doubleQuote), (Byte.backslash, Byte.backslash),
    ('/'.toUInt8, '/'.toUInt8), ('b'.toUInt8, 8), ('f'.toUInt8, 12), ('n'.toUInt8, 10),
    ('r'.toUInt8, 13), ('t'.toUInt8, 9)]

def hexNumber? (first second third fourth : UInt8) : Option Nat := do
  let first ← Byte.hexDigit? first
  let second ← Byte.hexDigit? second
  let third ← Byte.hexDigit? third
  let fourth ← Byte.hexDigit? fourth
  some (((first * 16 + second) * 16 + third) * 16 + fourth)

/-- The rest of an escape by number, after the backslash. -/
inductive UnitEscape : Text → Nat → Prop where
  | digits {first second third fourth : UInt8} {unit : Nat}
      (known : hexNumber? first second third fourth = some unit) :
      UnitEscape ['u'.toUInt8, first, second, third, fourth] unit

/-- The characters between the quotation marks of a string, with the bytes they stand for. A
surrogate stands for a character only as one of a pair. -/
inductive Characters : Text → Text → Prop where
  | nil : Characters [] []
  | plain {written text : Text} (character : Char) (printed : 32 ≤ character.toNat)
      (notQuote : character ≠ '"') (notBackslash : character ≠ '\\')
      (rest : Characters written text) :
      Characters (String.utf8EncodeChar character ++ written)
        (String.utf8EncodeChar character ++ text)
  | short {written text : Text} (mark byte : UInt8) (known : (mark, byte) ∈ shortEscapes)
      (rest : Characters written text) :
      Characters (Byte.backslash :: mark :: written) (byte :: text)
  | unit {escape written text : Text} (character : Char)
      (escaped : UnitEscape escape character.toNat) (rest : Characters written text) :
      Characters (Byte.backslash :: (escape ++ written)) (String.utf8EncodeChar character ++ text)
  | pair {high low written text : Text} (character : Char) (upper lower : Nat)
      (small : upper < 0x400 ∧ lower < 0x400)
      (together : character.toNat = 0x10000 + upper * 0x400 + lower)
      (escapedHigh : UnitEscape high (0xD800 + upper))
      (escapedLow : UnitEscape low (0xDC00 + lower)) (rest : Characters written text) :
      Characters (Byte.backslash :: (high ++ Byte.backslash :: (low ++ written)))
        (String.utf8EncodeChar character ++ text)

inductive Quoted : Text → Text → Prop where
  | marks {written text : Text} (characters : Characters written text) :
      Quoted (Byte.doubleQuote :: written ++ [Byte.doubleQuote]) text

inductive Name : Text → Text → Prop where
  | padded {before written after name : Text} (blanksBefore : Blanks before)
      (quoted : Quoted written name) (blanksAfter : Blanks after) :
      Name (before ++ written ++ after) name

structure Member where
  writtenName : Text
  name : Text
  writtenValue : Text
  value : Json

def Member.written (member : Member) : Text :=
  member.writtenName ++ ':'.toUInt8 :: member.writtenValue

def commas (pieces : List Text) : Text := Text.join [','.toUInt8] pieces

end Json

open Json in
/-- The text is a JSON text and stands for the value. -/
inductive Denotes : Text → Json → Prop where
  | null : Denotes "null" .null
  | true : Denotes "true" (.boolean Bool.true)
  | false : Denotes "false" (.boolean Bool.false)
  | number {token : Text} (number : NumberToken token) : Denotes token (.number token)
  | string {written text : Text} (quoted : Quoted written text) : Denotes written (.string text)
  | emptyArray {blanks : Text} (blank : Blanks blanks) :
      Denotes ('['.toUInt8 :: blanks ++ [']'.toUInt8]) (.array [])
  | array (items : List (Text × Json)) (some : items ≠ [])
      (each : ∀ item ∈ items, Denotes item.1 item.2) :
      Denotes ('['.toUInt8 :: commas (items.map (·.1)) ++ [']'.toUInt8]) (.array (items.map (·.2)))
  | emptyObject {blanks : Text} (blank : Blanks blanks) :
      Denotes (Byte.openBrace :: blanks ++ [Byte.closeBrace]) (.object [])
  | object (members : List Member) (some : members ≠ [])
      (names : ∀ member ∈ members, Name member.writtenName member.name)
      (each : ∀ member ∈ members, Denotes member.writtenValue member.value) :
      Denotes (Byte.openBrace :: commas (members.map Member.written) ++ [Byte.closeBrace])
        (.object (members.map fun member => (member.name, member.value)))
  | padded {before written after : Text} {value : Json} (blanksBefore : Blanks before)
      (inner : Denotes written value) (blanksAfter : Blanks after) :
      Denotes (before ++ written ++ after) value

end SlidePress.Payload
