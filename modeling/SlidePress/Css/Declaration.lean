import SlidePress.Table
import SlidePress.Text.Pieces

/-! Declarations: a property, a value, and whether the value is important. -/
namespace SlidePress.Css

structure Declaration where
  property : Text
  value : Text
  important : Bool := false
  deriving DecidableEq

namespace Declaration

def splitAtLast? (mark : UInt8) (text : Text) : Option (Text × Text) :=
  (Text.splitAtByte? mark text.reverse).map fun (after, before) => (before.reverse, after.reverse)

/-- A trimmed value without the mark of importance, and whether it had one. -/
def readImportance (value : Text) : Text × Bool :=
  match splitAtLast? '!'.toUInt8 value with
  | some (before, after) =>
      if Text.keyword after == "important" then (Text.trim before, true) else (value, false)
  | none => (value, false)

/-- A declaration from its text; none without a colon or without a property before it. -/
def parse? (text : Text) : Option Declaration :=
  match Text.splitAtByte? ':'.toUInt8 text with
  | none => none
  | some (left, right) =>
      let property := Text.keyword left
      let (value, important) := readImportance (Text.trim right)
      if property.isEmpty then none else some ⟨property, value, important⟩

def parseBlock (block : Text) : List Declaration :=
  (Text.entries ';'.toUInt8 block).filterMap parse?

/-- The values of declarations, later ones over earlier ones. -/
def values (declarations : List Declaration) : Properties :=
  Table.ofList (declarations.map fun declaration => (declaration.property, declaration.value))

end Declaration

end SlidePress.Css
