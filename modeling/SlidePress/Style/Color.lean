import SlidePress.Number.Integral
import SlidePress.Number.Numeral
import SlidePress.Text.Basic

/-! Colors: three channels of a byte each and an opacity. They are read from names, from
hexadecimal digits, and from the functional forms by channel and by hue. -/
namespace SlidePress.Style

structure Color where
  red : UInt8
  green : UInt8
  blue : UInt8
  alpha : Number := 1

namespace Color

def black : Color := ⟨0, 0, 0, 1⟩

instance : Inhabited Color := ⟨black⟩

/-- Equality of the channels and of the opacity as numbers. -/
instance : BEq Color :=
  ⟨fun first second => first.red == second.red && first.green == second.green &&
    first.blue == second.blue && first.alpha == second.alpha⟩

/-- Not fully transparent. -/
def isVisible (color : Color) : Bool :=
  decide (0 < color.alpha)

/-- The share of transparency in percent: 0 for an opaque color. -/
def transparency (color : Color) : Int :=
  ((1 - color.alpha.clamp 0 1) * 100).toIntNearest

def hexDigit (value : Nat) : UInt8 :=
  if value < 10 then (48 + value).toUInt8 else (55 + value).toUInt8

def hex (color : Color) : Text :=
  [color.red, color.green, color.blue].flatMap fun channel =>
    [hexDigit (channel.toNat / 16), hexDigit (channel.toNat % 16)]

/-- The plain colors, each in one or two channels or in equal parts. -/
def plainColors : List (Text × Nat) :=
  [("black", 0x000000), ("white", 0xFFFFFF), ("red", 0xFF0000), ("green", 0x008000),
    ("lime", 0x00FF00), ("blue", 0x0000FF), ("navy", 0x000080), ("teal", 0x008080),
    ("olive", 0x808000), ("maroon", 0x800000), ("purple", 0x800080), ("orange", 0xFFA500),
    ("gold", 0xFFD700), ("yellow", 0xFFFF00), ("cyan", 0x00FFFF), ("aqua", 0x00FFFF),
    ("magenta", 0xFF00FF), ("fuchsia", 0xFF00FF), ("indigo", 0x4B0082)]

def grayColors : List (Text × Nat) :=
  [("gray", 0x808080), ("grey", 0x808080), ("silver", 0xC0C0C0), ("darkgray", 0xA9A9A9),
    ("darkgrey", 0xA9A9A9), ("lightgray", 0xD3D3D3), ("lightgrey", 0xD3D3D3),
    ("dimgray", 0x696969), ("slategray", 0x708090), ("whitesmoke", 0xF5F5F5),
    ("gainsboro", 0xDCDCDC)]

def mixedColors : List (Text × Nat) :=
  [("beige", 0xF5F5DC), ("chartreuse", 0x7FFF00), ("coral", 0xFF7F50), ("crimson", 0xDC143C),
    ("firebrick", 0xB22222), ("salmon", 0xFA8072), ("khaki", 0xF0E68C), ("tan", 0xD2B48C),
    ("peru", 0xCD853F), ("sienna", 0xA0522D), ("plum", 0xDDA0DD), ("orchid", 0xDA70D6),
    ("lavender", 0xE6E6FA), ("tomato", 0xFF6347), ("seagreen", 0x2E8B57), ("slateblue", 0x6A5ACD),
    ("turquoise", 0x40E0D0), ("rebeccapurple", 0x663399), ("darkblue", 0x00008B),
    ("darkgreen", 0x006400), ("darkred", 0x8B0000), ("steelblue", 0x4682B4),
    ("skyblue", 0x87CEEB), ("lightblue", 0xADD8E6), ("royalblue", 0x4169E1),
    ("dodgerblue", 0x1E90FF), ("midnightblue", 0x191970)]

def ofBytes (bytes : Nat) : Color :=
  ⟨(bytes / 0x10000).toUInt8, (bytes / 0x100).toUInt8, bytes.toUInt8, 1⟩

def named? (name : Text) : Option Color :=
  if name == "transparent" then some { black with alpha := 0 }
  else
    ((plainColors ++ grayColors ++ mixedColors).find? (·.1 == name)).map fun (_, bytes) =>
      ofBytes bytes

/-- A text that is one number in range, up to a zero byte. -/
def number? (text : Text) : Option Number :=
  match Numeral.read? text with
  | some (numeral, []) =>
      let (number, inRange) := numeral.toNumber
      if inRange then some number else none
  | _ => none

def percentage? (text : Text) : Option Number :=
  if text.getLast? == some '%'.toUInt8 then number? (Text.trim text.dropLast) else none

def byteOf (value : Int) : UInt8 :=
  (max 0 (min 255 value)).toNat.toUInt8

/-- A channel: a number, or a share of 255. -/
def channel? (text : Text) : Option UInt8 :=
  let value? :=
    if text.getLast? == some '%'.toUInt8 then
      (percentage? text).map fun share => share * 255 / 100
    else number? text
  value?.map fun value => byteOf value.toIntNearest

/-- An opacity: a number or a share, brought between 0 and 1. -/
def opacity? (text : Text) : Option Number :=
  let value? :=
    if text.getLast? == some '%'.toUInt8 then (percentage? text).map (· / 100)
    else number? text
  value?.map (Number.clamp · 0 1)

def share? (text : Text) : Option Number :=
  (percentage? text).map fun share => share.clamp 0 100 / 100

def hue? (text : Text) : Option Number :=
  if 3 < text.length && ("deg" : Text).isSuffixOf text then
    number? (text.take (text.length - 3))
  else number? text

/-- A channel between 0 and 1 as a byte, a half going up. -/
def unitChannel (value : Number) : UInt8 :=
  byteOf (value.clamp 0 1 * 255 + 0.5).toIntTowardZero

def ofHue (degrees saturation lightness alpha : Number) : Color :=
  let rest := degrees.remainder 360
  let hue := if rest < 0 then rest + 360 else rest
  let chroma := (1 - (2 * lightness - 1).abs) * saturation
  let sector := hue / 60
  let second := chroma * (1 - (sector.remainder 2 - 1).abs)
  let (red, green, blue) :=
    if sector < 1 then (chroma, second, 0)
    else if sector < 2 then (second, chroma, 0)
    else if sector < 3 then (0, chroma, second)
    else if sector < 4 then (0, second, chroma)
    else if sector < 5 then (second, 0, chroma)
    else (chroma, 0, second)
  let base := lightness - chroma / 2
  ⟨unitChannel (red + base), unitChannel (green + base), unitChannel (blue + base), alpha⟩

def cutAt (separates : UInt8 → Bool) : Text → List Text
  | [] => [[]]
  | byte :: rest =>
      if separates byte then [] :: cutAt separates rest
      else
        match cutAt separates rest with
        | piece :: others => (byte :: piece) :: others
        | [] => [[byte]]

/-- The arguments between the parentheses of a function. They are divided by commas, or where
there is none by white space and slashes. -/
def splitArguments (body : Text) : List Text :=
  if body.contains ','.toUInt8 then (cutAt (· == ','.toUInt8) body).map Text.trim
  else
    (cutAt (fun byte => Byte.isSpace byte || byte == '/'.toUInt8) body).filter (! ·.isEmpty)

def arguments? (name value : Text) : Option (List Text) :=
  if name.isPrefixOf value then
    match Text.trimLeft (value.drop name.length) with
    | byte :: rest =>
        if byte == '('.toUInt8 then
          match Text.splitAtByte? ')'.toUInt8 rest with
          | some (body, after) => if Text.isBlank after then some (splitArguments body) else none
          | none => none
        else none
    | [] => none
  else none

def parseChannels? (value : Text) : Option Color := do
  match ← (arguments? "rgba" value).or (arguments? "rgb" value) with
  | [red, green, blue] =>
      return ⟨← channel? red, ← channel? green, ← channel? blue, 1⟩
  | [red, green, blue, alpha] =>
      return ⟨← channel? red, ← channel? green, ← channel? blue, ← opacity? alpha⟩
  | _ => none

def parseHue? (value : Text) : Option Color := do
  match ← (arguments? "hsla" value).or (arguments? "hsl" value) with
  | [hue, saturation, lightness] =>
      return ofHue (← hue? hue) (← share? saturation) (← share? lightness) 1
  | [hue, saturation, lightness, alpha] =>
      return ofHue (← hue? hue) (← share? saturation) (← share? lightness) (← opacity? alpha)
  | _ => none

/-- The bytes that hexadecimal digits stand for: three or four digits, each for a byte of twice the
digit, or two digits for each byte. -/
def hexBytes? (digits : List Nat) : Option (List Nat) :=
  match digits with
  | [r, g, b] => some [17 * r, 17 * g, 17 * b, 255]
  | [r, g, b, a] => some [17 * r, 17 * g, 17 * b, 17 * a]
  | [r, r', g, g', b, b'] => some [16 * r + r', 16 * g + g', 16 * b + b', 255]
  | [r, r', g, g', b, b', a, a'] =>
      some [16 * r + r', 16 * g + g', 16 * b + b', 16 * a + a']
  | _ => none

def parseHex? (value : Text) : Option Color :=
  match value with
  | mark :: digits =>
      if mark == '#'.toUInt8 then
        match (digits.mapM Byte.hexDigit?).bind hexBytes? with
        | some [red, green, blue, alpha] =>
            some ⟨red.toUInt8, green.toUInt8, blue.toUInt8, Number.ofNat alpha / 255⟩
        | _ => none
      else none
  | [] => none

/-- A color from its text, where the color of text is the current one. -/
def parse? (raw : Text) (current : Color) : Option Color :=
  let value := Text.keyword raw
  if value.isEmpty then none
  else if value == "currentcolor" then some current
  else
    (((named? value).or (parseChannels? value)).or (parseHue? value)).or (parseHex? value)

end Color

end SlidePress.Style
