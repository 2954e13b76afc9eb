import SlidePress.Css.Declaration
import SlidePress.Css.Selector

/-! Style sheets: rules of one selector with declarations. A rule with several selectors stands
for several rules. Conditional and other special rules are skipped together with their block, and
selectors outside the grammar are dropped; both leave a warning. -/
namespace SlidePress.Css

structure Rule where
  /-- The selector as it is written. -/
  source : Text
  selector : Selector
  declarations : List Declaration

structure Stylesheet where
  rules : List Rule

/-- What of a sheet was not taken over. -/
inductive Warning where
  | skippedBlock (lead : Text)
  | unsupportedSelector (selector : Text)
  deriving DecidableEq

namespace Warning

def message : Warning → Text
  | .skippedBlock _ => "At-rule skipped"
  | .unsupportedSelector _ => "Unsupported selector skipped"

def subject : Warning → Text
  | .skippedBlock lead => lead
  | .unsupportedSelector selector => selector

end Warning

namespace Stylesheet

/-- A sheet without its comments. A comment that is not closed reaches to the end. -/
def stripComments (css : Text) : Text :=
  match css with
  | [] => []
  | first :: rest =>
      if first == '/'.toUInt8 && rest.head? == some '*'.toUInt8 then
        match _found : Text.splitAtWord? "*/" (rest.drop 1) with
        | some (_, after) => stripComments after
        | none => []
      else first :: stripComments rest
termination_by css.length
decreasing_by
  · have shorter := Text.length_splitAtWord?_le _found
    simp only [List.length_drop] at shorter
    simp only [List.length_cons]
    omega
  · simp

/-- What follows a block, from inside it at a given depth of open braces. -/
def afterBlock : Nat → Text → Text
  | _, [] => []
  | depth, byte :: rest =>
      if byte == Byte.openBrace then afterBlock (depth + 1) rest
      else if byte == Byte.closeBrace then
        if depth ≤ 1 then rest else afterBlock (depth - 1) rest
      else afterBlock depth rest

def rulesOf (lead : Text) (declarations : List Declaration) : List (Rule ⊕ Warning) :=
  (Text.entries ','.toUInt8 lead).map fun source =>
    match Selector.parse? source with
    | some selector => .inl ⟨source, selector, declarations⟩
    | none => .inr (.unsupportedSelector source)

theorem length_afterBlock_le (depth : Nat) (text : Text) :
    (afterBlock depth text).length ≤ text.length := by
  induction text generalizing depth with
  | nil => simp [afterBlock]
  | cons byte rest step =>
    simp only [afterBlock, List.length_cons]
    split
    · exact Nat.le_succ_of_le (step _)
    · split
      · split
        · omega
        · exact Nat.le_succ_of_le (step _)
      · exact Nat.le_succ_of_le (step _)

/-- The rules and warnings of a sheet without comments, in order. Reading ends where a block is
missing or not closed. -/
def readRules (css : Text) : List (Rule ⊕ Warning) :=
  match _opened : Text.splitAtByte? Byte.openBrace css with
  | none => []
  | some (before, inside) =>
      let lead := Text.trim before
      if lead.head? == some '@'.toUInt8 then
        .inr (.skippedBlock lead) :: readRules (afterBlock 1 inside)
      else
        match _closed : Text.splitAtByte? Byte.closeBrace inside with
        | none => []
        | some (block, after) =>
            rulesOf lead (Declaration.parseBlock block) ++ readRules after
termination_by css.length
decreasing_by
  all_goals
    have whole := (Text.splitAtByte?_eq_some _opened).1
    simp only [whole, List.length_append, List.length_cons]
  · have shorter := length_afterBlock_le 1 inside
    omega
  · have block := (Text.splitAtByte?_eq_some _closed).1
    simp only [block, List.length_append, List.length_cons]
    omega

def parse (css : Text) : Stylesheet × List Warning :=
  let read := readRules (stripComments css)
  (⟨read.filterMap Sum.getLeft?⟩, read.filterMap Sum.getRight?)

end Stylesheet

end SlidePress.Css
