import SlidePress.Text.Pieces
import SlidePress.Html.Node

/-! Selectors: compounds of a tag, identifiers, classes and attribute tests, joined by the
descendant and the child combinator. A selector is kept from the inside out: the compound for the
element itself first, then the compounds for the elements around it. Pseudo-classes and sibling
combinators are not part of the grammar. -/
namespace SlidePress.Css

open Html (Element)

inductive AttributeTest where
  | present (name : Text)
  | equals (name value : Text)
  /-- The value is one of the tokens of the attribute. -/
  | hasToken (name value : Text)
  deriving DecidableEq

structure Compound where
  /-- The tag that is asked for, if any. -/
  tag : Option Text := none
  ids : List Text := []
  classes : List Text := []
  attributes : List AttributeTest := []
  deriving DecidableEq

inductive Combinator where
  | descendant
  | child
  deriving DecidableEq

structure Selector where
  subject : Compound
  /-- What is asked of the elements around the subject, nearest first. -/
  context : List (Combinator × Compound) := []
  deriving DecidableEq

def isIdentifierByte (byte : UInt8) : Bool :=
  Byte.isAlphanumeric byte || byte == '-'.toUInt8 || byte == '_'.toUInt8

namespace AttributeTest

/-- A test from the text before and after its equals sign. A tilde right before the sign asks for a
token; any other byte there must be one of an identifier. -/
def parseComparison? (left right : Text) : Option AttributeTest :=
  let value := Text.unquote (Text.trim right)
  match left.getLast? with
  | none => none
  | some last =>
      if last == '~'.toUInt8 then
        let name := Text.keyword left.dropLast
        if name.isEmpty then none else some (.hasToken name value)
      else if isIdentifierByte last then some (.equals (Text.keyword left) value)
      else none

def parse? (body : Text) : Option AttributeTest :=
  let body := Text.trim body
  match Text.splitAtByte? '='.toUInt8 body with
  | none => if body.isEmpty then none else some (.present (Text.lower body))
  | some (left, right) => parseComparison? left right

def holds (test : AttributeTest) (element : Element) : Bool :=
  match test with
  | .present name => element.hasAttribute name
  | .equals name value => element.attributes.get? name == some value
  | .hasToken name value =>
      element.hasAttribute name && (Text.tokens (element.valueOf name)).contains value

end AttributeTest

namespace Compound

/-- A compound with the parts of a text added to it; none when a part cannot be read. -/
def parseParts? (found : Compound) (text : Text) : Option Compound :=
  match text with
  | [] => some found
  | mark :: rest =>
      if mark == '#'.toUInt8 || mark == '.'.toUInt8 then
        let name := rest.takeWhile isIdentifierByte
        if name.isEmpty then none
        else
          let found :=
            if mark == '#'.toUInt8 then { found with ids := found.ids ++ [name] }
            else { found with classes := found.classes ++ [name] }
          parseParts? found (rest.dropWhile isIdentifierByte)
      else if mark == '['.toUInt8 then
        match _found : Text.splitAtByte? ']'.toUInt8 rest with
        | none => none
        | some (body, more) =>
            match AttributeTest.parse? body with
            | none => none
            | some test => parseParts? { found with attributes := found.attributes ++ [test] } more
      else none
termination_by text.length
decreasing_by
  · have shorter := (List.dropWhile_sublist (l := rest) isIdentifierByte).length_le
    simp only [List.length_cons]
    omega
  · have whole := (Text.splitAtByte?_eq_some _found).1
    simp only [whole, List.length_cons, List.length_append]
    omega

/-- A compound from its text: a tag or an asterisk, if any, and then the other parts. -/
def parse? (text : Text) : Option Compound :=
  match text with
  | [] => some {}
  | first :: rest =>
      if first == '*'.toUInt8 then parseParts? {} rest
      else if isIdentifierByte first then
        parseParts? { tag := some (Text.lower (text.takeWhile isIdentifierByte)) }
          (text.dropWhile isIdentifierByte)
      else parseParts? {} text

def holds (compound : Compound) (element : Element) : Bool :=
  compound.tag.all (· == element.tag) &&
    compound.ids.all (element.valueOf "id" == ·) &&
    compound.classes.all element.hasClass &&
    compound.attributes.all (·.holds element)

end Compound

namespace Selector

/-- The parts of a selector text: compounds, and marks of the child combinator. -/
inductive Piece where
  | compound (text : Text)
  | childMark
  deriving DecidableEq

/-- A compound in front of other pieces, unless it is empty. -/
def withCompound (text : Text) (others : List Piece) : List Piece :=
  if text.isEmpty then others else .compound text :: others

/-- The compound that a text begins with, and the pieces after it. Inside brackets every byte
belongs to the compound; sibling combinators make the text unreadable. -/
def piecesFrom? (inBrackets : Bool) : Text → Option (Text × List Piece)
  | [] => some ([], [])
  | byte :: rest =>
      if inBrackets then
        (piecesFrom? (byte != ']'.toUInt8) rest).map fun (text, others) => (byte :: text, others)
      else if Byte.isSpace byte then
        (piecesFrom? false rest).map fun (text, others) => ([], withCompound text others)
      else if byte == '>'.toUInt8 then
        (piecesFrom? false rest).map fun (text, others) =>
          ([], .childMark :: withCompound text others)
      else if byte == '+'.toUInt8 || byte == '~'.toUInt8 then none
      else
        (piecesFrom? (byte == '['.toUInt8) rest).map fun (text, others) => (byte :: text, others)

def pieces? (text : Text) : Option (List Piece) :=
  (piecesFrom? false text).map fun (first, others) => withCompound first others

/-- The selector that pieces spell, after what was read of it and with whether a child mark is
pending. There is no selector without a compound, and none that begins or ends with a mark. -/
def assemble? : Option Selector → Bool → List Piece → Option Selector
  | found, pending, [] => if pending then none else found
  | found, _, .childMark :: rest => assemble? found true rest
  | none, pending, .compound text :: rest =>
      if pending then none
      else
        match Compound.parse? text with
        | none => none
        | some compound => assemble? (some { subject := compound }) false rest
  | some outer, pending, .compound text :: rest =>
      match Compound.parse? text with
      | none => none
      | some compound =>
          let combinator := if pending then Combinator.child else .descendant
          assemble? (some ⟨compound, (combinator, outer.subject) :: outer.context⟩) false rest

/-- A selector from its text; none when the text lies outside the grammar. -/
def parse? (text : Text) : Option Selector :=
  (pieces? text).bind (assemble? none false)

def ofTag (tag : Text) : Selector :=
  { subject := { tag := some tag } }

def someAncestor (test : Element → List Element → Bool) : List Element → Bool
  | [] => false
  | nearest :: outer => test nearest outer || someAncestor test outer

/-- What is asked of the elements around an element holds of its ancestors, nearest first. -/
def contextHolds : List (Combinator × Compound) → List Element → Bool
  | [], _ => true
  | (.child, compound) :: rest, ancestors =>
      match ancestors with
      | [] => false
      | parent :: outer => compound.holds parent && contextHolds rest outer
  | (.descendant, compound) :: rest, ancestors =>
      someAncestor (fun ancestor outer => compound.holds ancestor && contextHolds rest outer)
        ancestors

def selects (selector : Selector) (ancestors : List Element) (element : Element) : Bool :=
  selector.subject.holds element && contextHolds selector.context ancestors

def compounds (selector : Selector) : List Compound :=
  selector.subject :: selector.context.map (·.2)

end Selector

namespace Compound

/-- The weight of a compound: a hundred for an identifier, ten for a class or an attribute test,
one for a tag. -/
def specificity (compound : Compound) : Nat :=
  100 * compound.ids.length + 10 * (compound.classes.length + compound.attributes.length) +
    (if compound.tag.isSome then 1 else 0)

end Compound

def Selector.specificity (selector : Selector) : Nat :=
  (selector.compounds.map Compound.specificity).foldr (· + ·) 0

/-- The weight of a selector from its text; a text outside the grammar weighs nothing. -/
def Selector.specificityOf (source : Text) : Nat :=
  match Selector.parse? source with
  | some selector => selector.specificity
  | none => 0

end SlidePress.Css
