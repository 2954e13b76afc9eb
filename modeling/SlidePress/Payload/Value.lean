import SlidePress.Text.Basic

/-! Values of the interchange format and their text. Members keep their order, and a number is
given by its written form, so that equal values have the same bytes. -/
namespace SlidePress.Payload

inductive Value where
  | string (text : Text)
  /-- A number by its written form. -/
  | number (written : Text)
  | boolean (value : Bool)
  | array (items : List Value)
  | object (members : List (Text × Value))

def hexDigit (value : Nat) : UInt8 :=
  if value < 10 then (48 + value).toUInt8 else (87 + value).toUInt8

/-- A byte of a string as it is written: quotation marks, backslashes and control characters are
escaped. -/
def escape (byte : UInt8) : Text :=
  if byte == Byte.doubleQuote || byte == Byte.backslash then [Byte.backslash, byte]
  else if byte == 10 then [Byte.backslash, 'n'.toUInt8]
  else if byte == 13 then [Byte.backslash, 'r'.toUInt8]
  else if byte == 9 then [Byte.backslash, 't'.toUInt8]
  else if byte < 32 then
    Byte.backslash :: 'u'.toUInt8 :: '0'.toUInt8 :: '0'.toUInt8 ::
      [hexDigit (byte.toNat / 16), hexDigit (byte.toNat % 16)]
  else [byte]

def quote (text : Text) : Text :=
  Byte.doubleQuote :: text.flatMap escape ++ [Byte.doubleQuote]

mutual

def Value.write : Value → Text
  | .string text => quote text
  | .number written => written
  | .boolean value => if value then "true" else "false"
  | .array items => '['.toUInt8 :: writeItems items ++ [']'.toUInt8]
  | .object members => Byte.openBrace :: writeMembers members ++ [Byte.closeBrace]

def writeItems : List Value → Text
  | [] => []
  | [last] => last.write
  | item :: rest => item.write ++ ','.toUInt8 :: writeItems rest

def writeMembers : List (Text × Value) → Text
  | [] => []
  | [(name, last)] => quote name ++ ':'.toUInt8 :: last.write
  | (name, value) :: rest =>
      quote name ++ ':'.toUInt8 :: value.write ++ ','.toUInt8 :: writeMembers rest

end

namespace Value

def ofNat (number : Nat) : Value := .number (Text.ofNat number)

def ofInt (number : Int) : Value := .number (Text.ofInt number)

def record (groups : List (List (Text × Value))) : Value := .object groups.flatten

end Value

def optional {α : Type} (name : Text) (encode : α → Value) : Option α → List (Text × Value)
  | some value => [(name, encode value)]
  | none => []

end SlidePress.Payload
