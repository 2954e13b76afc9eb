/-! Classes of single bytes. Markup, style sheets and numerals are read byte by byte; only the
ASCII range carries meaning there, so every byte from 128 on belongs to no class and has no
other case. -/
namespace SlidePress.Byte

def doubleQuote : UInt8 := 34

def singleQuote : UInt8 := 39

def openBrace : UInt8 := 123

def closeBrace : UInt8 := 125

def backslash : UInt8 := 92

/-- White space: blank, tab, line feed, vertical tab, form feed and carriage return. -/
def isSpace (byte : UInt8) : Bool :=
  byte == 32 || (9 ≤ byte && byte ≤ 13)

def isDigit (byte : UInt8) : Bool :=
  48 ≤ byte && byte ≤ 57

def isUpper (byte : UInt8) : Bool :=
  65 ≤ byte && byte ≤ 90

def isLower (byte : UInt8) : Bool :=
  97 ≤ byte && byte ≤ 122

def isLetter (byte : UInt8) : Bool :=
  isUpper byte || isLower byte

def isAlphanumeric (byte : UInt8) : Bool :=
  isLetter byte || isDigit byte

def toLower (byte : UInt8) : UInt8 :=
  if isUpper byte then byte + 32 else byte

def toUpper (byte : UInt8) : UInt8 :=
  if isLower byte then byte - 32 else byte

def hexDigit? (byte : UInt8) : Option Nat :=
  if isDigit byte then some (byte.toNat - 48)
  else if 97 ≤ byte && byte ≤ 102 then some (byte.toNat - 87)
  else if 65 ≤ byte && byte ≤ 70 then some (byte.toNat - 55)
  else none

theorem isUpper_toLower (byte : UInt8) : isUpper (toLower byte) = false := by
  by_cases upper : isUpper byte
  · simp only [toLower, upper, if_true]
    simp only [isUpper, Bool.and_eq_true, decide_eq_true_eq, UInt8.le_iff_toNat_le] at upper
    simp only [isUpper, Bool.and_eq_false_iff, decide_eq_false_iff_not, UInt8.le_iff_toNat_le,
      UInt8.toNat_add]
    simp at upper ⊢
    omega
  · simp [toLower, upper]

theorem toLower_idem (byte : UInt8) : toLower (toLower byte) = toLower byte := by
  rw [toLower, if_neg (by simp [isUpper_toLower])]

end SlidePress.Byte
