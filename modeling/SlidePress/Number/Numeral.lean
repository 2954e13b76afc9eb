import SlidePress.Text.Basic
import SlidePress.Number.Basic

/-! Numerals in text. Reading takes the longest start of a text that is a numeral: white space, a
sign, then decimal digits with an optional fraction and exponent, or a hexadecimal numeral with an
optional binary exponent, or the words for infinity and not-a-number. A text ends at its first
zero byte. What a numeral stands for is exact; rounding it to a number is a second step. -/
namespace SlidePress

inductive Numeral where
  /-- The value `digits * 10 ^ exponent`. -/
  | decimal (negative : Bool) (digits : Nat) (exponent : Int)
  /-- The value `digits * 2 ^ exponent`. -/
  | binary (negative : Bool) (digits : Nat) (exponent : Int)
  | infinite (negative : Bool)
  | nan (negative : Bool)
  deriving DecidableEq, Repr

namespace Numeral

def digitsValue (base : Nat) (digits : Text) : Nat :=
  digits.foldl (fun number byte => base * number + (Byte.hexDigit? byte).getD 0) 0

def readSign : Text → Bool × Text
  | byte :: rest =>
      if byte == '-'.toUInt8 then (true, rest)
      else if byte == '+'.toUInt8 then (false, rest)
      else (false, byte :: rest)
  | [] => (false, [])

/-- Digits with an optional point among them: the digits before and after it, and what follows. -/
def readPoint? (isDigit : UInt8 → Bool) (text : Text) : Option (Text × Text × Text) :=
  let (whole, rest) := Text.cut isDigit text
  let (fraction, rest) :=
    match rest with
    | byte :: more => if byte == '.'.toUInt8 then Text.cut isDigit more else ([], rest)
    | [] => ([], [])
  if whole.isEmpty && fraction.isEmpty then none else some (whole, fraction, rest)

/-- An exponent after its mark. Without digits there is none, and the mark is left unread. -/
def readExponent (mark : UInt8) (text : Text) : Int × Text :=
  match text with
  | byte :: more =>
      if Byte.toLower byte == mark then
        let (negative, more) := readSign more
        let (digits, rest) := Text.cut Byte.isDigit more
        if digits.isEmpty then (0, text)
        else
          let size : Int := digitsValue 10 digits
          (if negative then -size else size, rest)
      else (0, text)
  | [] => (0, [])

def readDecimal? (negative : Bool) (text : Text) : Option (Numeral × Text) :=
  (readPoint? Byte.isDigit text).map fun (whole, fraction, rest) =>
    let (exponent, rest) := readExponent 'e'.toUInt8 rest
    (.decimal negative (digitsValue 10 (whole ++ fraction)) (exponent - fraction.length), rest)

def isHexDigit (byte : UInt8) : Bool :=
  (Byte.hexDigit? byte).isSome

/-- A hexadecimal numeral after its mark `0x`. -/
def readBinary? (negative : Bool) (text : Text) : Option (Numeral × Text) :=
  (readPoint? isHexDigit text).map fun (whole, fraction, rest) =>
    let (exponent, rest) := readExponent 'p'.toUInt8 rest
    (.binary negative (digitsValue 16 (whole ++ fraction)) (exponent - 4 * fraction.length), rest)

/-- What follows the word for not-a-number: a note in parentheses belongs to it. -/
def skipNote (text : Text) : Text :=
  match text with
  | byte :: more =>
      if byte == '('.toUInt8 then
        match more.dropWhile fun byte => Byte.isAlphanumeric byte || byte == '_'.toUInt8 with
        | close :: rest => if close == ')'.toUInt8 then rest else text
        | [] => text
      else text
  | [] => []

def startsWith (word text : Text) : Bool :=
  word.isPrefixOf (Text.lower (text.take word.length))

def readUnsigned? (negative : Bool) (text : Text) : Option (Numeral × Text) :=
  if startsWith "infinity" text then some (.infinite negative, text.drop 8)
  else if startsWith "inf" text then some (.infinite negative, text.drop 3)
  else if startsWith "nan" text then some (.nan negative, skipNote (text.drop 3))
  else if startsWith "0x" text then
    (readBinary? negative (text.drop 2)).or (some (.decimal negative 0 0, text.drop 1))
  else readDecimal? negative text

/-- The longest numeral that a text begins with after white space, and what follows it. -/
def read? (text : Text) : Option (Numeral × Text) :=
  let (negative, rest) := readSign (Text.trimLeft (Text.before 0 text))
  readUnsigned? negative rest

/-- The number nearest to a numeral, and whether it lies in the range of numbers. -/
def toNumber : Numeral → Number × Bool
  | .nan negative => (Number.nan negative, true)
  | .infinite negative => (.ofFloat (if negative then -1.0 / 0.0 else 1.0 / 0.0), true)
  | .decimal negative digits exponent =>
      if digits == 0 then (.ofFloat (Binary64.assemble negative 0 0), true)
      else if 400 < exponent then
        (.ofFloat (if negative then -1.0 / 0.0 else 1.0 / 0.0), false)
      else if exponent + digits.log2 < -400 then
        (.ofFloat (Binary64.assemble negative 0 0), false)
      else
        let rounded :=
          if 0 ≤ exponent then Binary64.nearest negative (digits * Nat.pow 10 exponent.toNat) 1
          else Binary64.nearest negative digits (Nat.pow 10 (-exponent).toNat)
        (.ofFloat rounded.value, rounded.inRange)
  | .binary negative digits exponent =>
      if digits == 0 then (.ofFloat (Binary64.assemble negative 0 0), true)
      else if 1100 < exponent then
        (.ofFloat (if negative then -1.0 / 0.0 else 1.0 / 0.0), false)
      else if exponent + digits.log2 < -1200 then
        (.ofFloat (Binary64.assemble negative 0 0), false)
      else
        let (numerator, denominator) := Binary64.scaled digits exponent
        let rounded := Binary64.nearest negative numerator denominator
        (.ofFloat rounded.value, rounded.inRange)

end Numeral

namespace Number

/-- The number that a text begins with; zero when it begins with none. -/
def leading (text : Text) : Number :=
  match Numeral.read? text with
  | some (numeral, _) => numeral.toNumber.1
  | none => 0

end Number

end SlidePress
