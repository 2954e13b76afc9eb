import SlidePress.Text.Utf8

/-! Character references: a name or a code point between an ampersand and a semicolon. A body of
more than eleven bytes is no reference, and one that names no character stays as it is written. -/
namespace SlidePress.Html

def namedCharacters : List (Text × Nat) :=
  [("amp", 0x26), ("lt", 0x3C), ("gt", 0x3E), ("quot", 0x22), ("apos", 0x27), ("nbsp", 0xA0),
    ("cent", 0xA2), ("pound", 0xA3), ("yen", 0xA5), ("sect", 0xA7), ("copy", 0xA9),
    ("reg", 0xAE), ("deg", 0xB0), ("middot", 0xB7), ("times", 0xD7), ("bull", 0x2022),
    ("hellip", 0x2026), ("ndash", 0x2013), ("mdash", 0x2014), ("lsquo", 0x2018),
    ("rsquo", 0x2019), ("ldquo", 0x201C), ("rdquo", 0x201D), ("euro", 0x20AC),
    ("trade", 0x2122), ("larr", 0x2190), ("rarr", 0x2192)]

namespace Reference

/-- The number that digits of a base stand for; none when there are no digits or a byte is not a
digit. -/
def digits? (base : Nat) (digit? : UInt8 → Option Nat) (text : Text) : Option Nat :=
  if text.isEmpty then none
  else text.foldlM (fun number byte => (digit? byte).map (base * number + ·)) 0

def decimalDigit? (byte : UInt8) : Option Nat :=
  if Byte.isDigit byte then Byte.hexDigit? byte else none

def codePoint? (body : Text) : Option Nat :=
  match body with
  | mark :: digits =>
      if mark == '#'.toUInt8 then
        match digits with
        | first :: rest =>
            if Byte.toLower first == 'x'.toUInt8 then digits? 16 Byte.hexDigit? rest
            else digits? 10 decimalDigit? digits
        | [] => none
      else none
  | [] => none

/-- The bytes of the character that a body names. -/
def character? (body : Text) : Option Text :=
  match namedCharacters.find? (·.1 == body) with
  | some (_, point) => some (Utf8.encode point)
  | none =>
      match codePoint? body with
      | some point => if Utf8.isWritable point then some (Utf8.encode point) else none
      | none => none

def longestBody : Nat := 11

def decode (text : Text) : Text :=
  match text with
  | [] => []
  | byte :: rest =>
      if byte == '&'.toUInt8 then
        match _found : Text.splitAtByte? ';'.toUInt8 rest with
        | some (body, more) =>
            if body.length ≤ longestBody then
              (character? body).getD (byte :: body ++ ";") ++ decode more
            else byte :: decode rest
        | none => byte :: decode rest
      else byte :: decode rest
termination_by text.length
decreasing_by
  · have whole := (Text.splitAtByte?_eq_some _found).1
    simp only [whole, List.length_cons, List.length_append]
    omega
  all_goals simp

end Reference

end SlidePress.Html
