import SlidePress.Text.Basic

/-! Cutting a value at the separators that stand outside every parenthesis. A closing parenthesis
without a partner counts for nothing, and a group that is never closed reaches to the end of the
value. A text with n separators at the top level has n + 1 pieces. -/
namespace SlidePress.Text

/-- The number of open groups after a byte. -/
def nesting (depth : Nat) (byte : UInt8) : Nat :=
  if byte == '('.toUInt8 then depth + 1
  else if byte == ')'.toUInt8 then depth - 1
  else depth

/-- The piece that a text begins with at a given depth, and the pieces after it. A separator is
judged after its own effect on the depth. -/
def piecesFrom (separates : UInt8 → Bool) : Nat → Text → Text × List Text
  | _, [] => ([], [])
  | depth, byte :: rest =>
      let inner := nesting depth byte
      let (piece, others) := piecesFrom separates inner rest
      if inner == 0 && separates byte then ([], piece :: others)
      else (byte :: piece, others)

def pieces (separates : UInt8 → Bool) (text : Text) : List Text :=
  let (piece, others) := piecesFrom separates 0 text
  piece :: others

/-- The pieces between white space that are not empty. -/
def tokens (text : Text) : List Text :=
  (pieces Byte.isSpace text).filter (! ·.isEmpty)

/-- The trimmed pieces between separators. A last piece that is blank counts for nothing, so a
closing separator adds no entry; blank entries before it stay. -/
def entries (separator : UInt8) (text : Text) : List Text :=
  let (piece, others) := piecesFrom (· == separator) 0 text
  let all := (piece :: others).map trim
  if all.getLast? == some [] then all.dropLast else all

/-- The trimmed pieces of a list. White space as the separator drops blank pieces; with any other
separator every piece counts, except that a blank text is the empty list. -/
def listing (separator : UInt8) (text : Text) : List Text :=
  if separator == ' '.toUInt8 then
    ((pieces Byte.isSpace text).map trim).filter (! ·.isEmpty)
  else
    match (pieces (· == separator) text).map trim with
    | [[]] => []
    | all => all

end SlidePress.Text
