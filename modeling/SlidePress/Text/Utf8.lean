import SlidePress.Text.Basic

/-! UTF-8: the bytes of a code point, and the number of bytes that a lead byte announces. -/
namespace SlidePress.Utf8

/-- Code points that may be written: not zero, no surrogate, at most 0x10FFFF. -/
def isWritable (point : Nat) : Bool :=
  point != 0 && point ≤ 0x10FFFF && !(0xD800 ≤ point && point ≤ 0xDFFF)

/-- A continuation byte that carries the low six bits of a number. -/
def continuation (bits : Nat) : UInt8 :=
  (0x80 + bits % 0x40).toUInt8

/-- The one to four bytes of a code point. -/
def encode (point : Nat) : Text :=
  if point < 0x80 then [point.toUInt8]
  else if point < 0x800 then [(0xC0 + point / 0x40).toUInt8, continuation point]
  else if point < 0x10000 then
    [(0xE0 + point / 0x1000).toUInt8, continuation (point / 0x40), continuation point]
  else
    [(0xF0 + point / 0x40000).toUInt8, continuation (point / 0x1000),
      continuation (point / 0x40), continuation point]

/-- The number of bytes that a character takes, read off its first byte. A byte that can begin no
character counts as a character of its own. -/
def width (lead : UInt8) : Nat :=
  if lead &&& 0xE0 == 0xC0 then 2
  else if lead &&& 0xF0 == 0xE0 then 3
  else if lead &&& 0xF8 == 0xF0 then 4
  else 1

/-- The first `limit` characters of a text, and what is left after them. -/
def takeCharacters : Nat → Text → Text × Text
  | 0, text => ([], text)
  | _ + 1, [] => ([], [])
  | limit + 1, lead :: rest =>
      let character := (lead :: rest).take (width lead)
      let (taken, left) := takeCharacters limit ((lead :: rest).drop (width lead))
      (character ++ taken, left)

/-- At most `limit` characters of a text, with three dots after them when more follows. -/
def excerpt (limit : Nat) (text : Text) : Text :=
  let (taken, left) := takeCharacters limit text
  if left.isEmpty then text else taken ++ "..."

end SlidePress.Utf8
