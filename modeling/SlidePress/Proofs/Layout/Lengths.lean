import SlidePress.Layout.Measure
import SlidePress.Proofs.Layout.Skeleton
import SlidePress.Proofs.Number.Unsigned
import SlidePress.Proofs.Table

/-! Lengths that are not below zero, in rounded arithmetic. Font sizes and the widths of borders are
brought to zero or more when a style is settled, and stay so when they are read again from the text that
the settled style holds. Margins and paddings are as the style declares them. -/

namespace SlidePress.Layout

open Number (NotNegative)
open Numeral (Starts)

section Order

variable {first second : Number}

theorem notNegative_zero : NotNegative 0.0 := by decide +kernel

theorem notNegative_max (notNegative : NotNegative first) (second : Number) :
    NotNegative (Scalar.max first second) := by
  unfold Scalar.max
  split
  · exact fun below => notNegative (Number.lt_trans ‹_› below)
  · exact notNegative

theorem notNegative_min (notNegative : NotNegative first) (notNegativeToo : NotNegative second) :
    NotNegative (Scalar.min first second) := by
  unfold Scalar.min
  split
  · exact notNegativeToo
  · exact notNegative

theorem zero_le_max (least : 0.0 ≤ first) (second : Number) : 0.0 ≤ Scalar.max first second := by
  unfold Scalar.max
  split
  · exact Number.le_trans least (Number.le_of_lt ‹_›)
  · exact least

theorem zero_le_positive (number : Number) : 0.0 ≤ Scalar.positive number := by
  have zero : (0.0 : Number) ≤ 0.0 := by decide +kernel
  exact zero_le_max zero number

theorem notNegative_positive (number : Number) : NotNegative (Scalar.positive number) :=
  notNegative_max notNegative_zero number

end Order

def NoneNegative (found : Option Number) : Prop := ∀ number ∈ found, NotNegative number

namespace NoneNegative

variable {found other : Option Number} {number : Number}

theorem none : NoneNegative none := fun _ inside => nomatch inside

theorem some (notNegative : NotNegative number) : NoneNegative (some number) := by
  rintro _ ⟨⟩
  exact notNegative

theorem ite {condition : Prop} [Decidable condition] (yes : NoneNegative found)
    (no : NoneNegative other) : NoneNegative (if condition then found else other) := by
  split
  · exact yes
  · exact no

theorem or (first : NoneNegative found) (second : NoneNegative other) :
    NoneNegative (found.or other) := by
  cases found with
  | none => exact second
  | some number => exact first

theorem getD (all : NoneNegative found) (notNegative : NotNegative number) :
    NotNegative (found.getD number) := by
  cases found with
  | none => exact notNegative
  | some found => exact all found rfl

end NoneNegative

section Lengths

variable {context : LengthContext Number}

/-- A context that turns numbers that are not below zero into lengths that are not below zero. -/
structure LengthContext.NotNegative (context : LengthContext Number) : Prop where
  font : context.fontSize.NotNegative
  root : context.rootFontSize.NotNegative
  base : context.percentBase.NotNegative

theorem noneNegative_inPixels? (notNegative : context.NotNegative) {number : Number}
    (least : NotNegative number) (unit : Text) : NoneNegative (inPixels? context number unit) := by
  have product {factor : Number} (positive : 0.0 < factor) : NoneNegative (some (number * factor)) :=
    .some (least.mul (Number.notNegative_of_pos positive))
  have quotient {factor divisor : Number} (positive : 0.0 < factor) (positiveToo : 0.0 < divisor) :
      NoneNegative (some (number * factor / divisor)) :=
    .some ((least.mul (Number.notNegative_of_pos positive)).div positiveToo)
  unfold inPixels?
  refine .ite (.ite (.some notNegative_zero) .none) (.ite (.some least) (.ite ?points (.ite ?picas
    (.ite ?inches (.ite ?centimeters (.ite ?millimeters (.ite (.some (least.mul notNegative.font))
      (.ite (.some (least.mul notNegative.root)) (.ite ?percent .none)))))))))
  case points => exact quotient (by decide +kernel) (by decide +kernel)
  case picas => exact product (by decide +kernel)
  case inches => exact product (by decide +kernel)
  case centimeters => exact quotient (by decide +kernel) (by decide +kernel)
  case millimeters => exact quotient (by decide +kernel) (by decide +kernel)
  case percent => exact .some ((least.mul notNegative.base).div (by decide +kernel))

/-- The length of a text that begins without a sign. -/
theorem noneNegative_resolveLength? (notNegative : context.NotNegative) {raw : Text}
    (starts : Starts raw) : NoneNegative (resolveLength? context raw) := by
  unfold resolveLength?
  refine .ite .none ?_
  split
  · exact .none
  · rename_i number unit quantity
    unfold readQuantity? at quantity
    split at quantity
    · cases quantity
    · rename_i numeral rest read
      dsimp only at quantity
      split at quantity
      · obtain ⟨rfl, rfl⟩ := Prod.mk.inj (Option.some.inj quantity)
        have least := Numeral.notNegative_toNumber (starts.keyword.read read)
        exact noneNegative_inPixels? notNegative least _
      · cases quantity

/-- The size of a font is not below zero where the one around it is not. -/
theorem notNegative_resolveFontSize (raw : Text) {outer : Number} (notNegative : NotNegative outer) :
    NotNegative (resolveFontSize raw outer) := by
  have named : ∀ entry ∈ (fontSizeNames : List (Text × Number)), NotNegative entry.2 := by
    decide +kernel
  unfold resolveFontSize
  dsimp only
  split
  · rename_i name size found
    exact named (name, size) (List.mem_of_find?_eq_some found)
  · split
    · have smaller : (0.0 : Number) < 1.2 := by decide +kernel
      exact notNegative.div smaller
    · split
      · have larger : NotNegative 1.2 := by decide +kernel
        exact notNegative.mul larger
      · exact notNegative_positive _

/-- The width of a border: zero or above zero. -/
theorem resolveBorderWidth_cases (raw : Text) :
    (resolveBorderWidth raw : Number) = 0.0 ∨ (0.0 : Number) < resolveBorderWidth raw := by
  unfold resolveBorderWidth
  dsimp only
  split
  · exact .inr (by decide +kernel)
  · split
    · exact .inr (by decide +kernel)
    · split
      · exact .inr (by decide +kernel)
      · unfold Scalar.positive Scalar.max
        split
        · exact .inr ‹_›
        · exact .inl rfl

end Lengths

section Borders

def HasBorder (style : Properties) (side : Side) : Prop :=
  ∃ width : Number, (width = 0.0 ∨ 0.0 < width) ∧
    style.get? (Css.sideProperty "border" side "width") = some (writtenPixels width)

variable {style : Properties} {side other : Side}

theorem width_ne_of_ne (different : side ≠ other) :
    Css.sideProperty "border" side "width" ≠ Css.sideProperty "border" other "width" := by
  revert different
  cases side <;> cases other <;> decide

theorem style_ne_width (side other : Side) :
    Css.sideProperty "border" side "style" ≠ Css.sideProperty "border" other "width" := by
  cases side <;> cases other <;> decide

theorem color_ne_width (side other : Side) :
    Css.sideProperty "border" side "color" ≠ Css.sideProperty "border" other "width" := by
  cases side <;> cases other <;> decide

def settledWidth (style : Properties) (side : Side) : Number :=
  let line := styleValue style (Css.sideProperty "border" side "style") "none"
  if line == "none" || line == "hidden" then 0.0
  else resolveBorderWidth (styleValue style (Css.sideProperty "border" side "width") "medium")

theorem settledWidth_cases (style : Properties) (side : Side) :
    settledWidth style side = 0.0 ∨ 0.0 < settledWidth style side := by
  unfold settledWidth
  dsimp only
  split
  · exact .inl rfl
  · exact resolveBorderWidth_cases _

theorem get?_width_settleBorder (style : Properties) (side other : Side) :
    (settleBorder Number style side).get? (Css.sideProperty "border" other "width") =
      (style.insert (Css.sideProperty "border" side "width")
        (writtenPixels (settledWidth style side))).get? (Css.sideProperty "border" other "width") := by
  unfold settleBorder
  dsimp only
  split
  · rw [Table.get?_insert_of_ne (color_ne_width side other),
      Table.get?_insert_of_ne (style_ne_width side other)]
    rfl
  · rw [Table.get?_insert_of_ne (style_ne_width side other)]
    rfl

/-- A border stays settled when another one is settled. -/
theorem hasBorder_settleBorder (has : side = other ∨ HasBorder style other) :
    HasBorder (settleBorder Number style side) other := by
  have found := get?_width_settleBorder style side other
  by_cases same : side = other
  · subst same
    exact ⟨_, settledWidth_cases style side, found.trans (Table.get?_insert_self _ _ _)⟩
  · obtain ⟨width, cases, before⟩ := has.resolve_left same
    rw [Table.get?_insert_of_ne (width_ne_of_ne same)] at found
    exact ⟨width, cases, found.trans before⟩

theorem hasBorder_foldl (sides : List Side) (has : side ∈ sides ∨ HasBorder style side) :
    HasBorder (sides.foldl (settleBorder Number) style) side := by
  induction sides generalizing style with
  | nil => exact has.resolve_left List.not_mem_nil
  | cons first rest ih =>
      refine ih (or_iff_not_imp_left.mpr fun later => hasBorder_settleBorder ?_)
      rcases has with member | before
      · exact .inl ((List.mem_cons.mp member).resolve_right later).symm
      · exact .inr before

theorem exists_style_settle (outer : Surroundings Number) (cascaded : Properties) :
    ∃ before, (settle outer cascaded).style = Side.all.foldl (settleBorder Number) before := by
  unfold settle
  dsimp only
  exact ⟨_, rfl⟩

theorem hasBorder_settle (outer : Surroundings Number) (cascaded : Properties) (side : Side) :
    HasBorder (settle outer cascaded).style side := by
  have listed := side.mem_all
  obtain ⟨before, same⟩ := exists_style_settle outer cascaded
  rw [same]
  exact hasBorder_foldl Side.all (.inl listed)

structure Edges.NotNegative (edges : Edges Number) : Prop where
  top : edges.top.NotNegative
  right : edges.right.NotNegative
  bottom : edges.bottom.NotNegative
  left : edges.left.NotNegative

namespace Edges.NotNegative

variable {edges : Edges Number}

theorem horizontal (notNegative : edges.NotNegative) : edges.horizontal.NotNegative :=
  notNegative.left.add notNegative.right

theorem vertical (notNegative : edges.NotNegative) : edges.vertical.NotNegative :=
  notNegative.top.add notNegative.bottom

end Edges.NotNegative

theorem starts_writtenPixels {width : Number} (cases : width = 0.0 ∨ 0.0 < width) :
    Starts (writtenPixels width) := by
  rcases cases with rfl | positive
  · have zero : Scalar.written (0.0 : Number) = "0" := by decide +kernel
    rw [writtenPixels, zero]
    exact ⟨'0'.toUInt8, "px", rfl, .inl (by decide)⟩
  · exact (Number.starts_general significantDigits positive).append "px"

/-- The borders of a node are read from its style as they were settled. -/
theorem notNegative_border {node : Styled Number} (font : node.fontSize.NotNegative)
    (settled : ∀ side, HasBorder node.style side) : node.border.NotNegative := by
  have root : NotNegative defaultFontSize := by decide +kernel
  have context : (node.lengths 0.0).NotNegative := ⟨font, root, notNegative_zero⟩
  have each (side : Side) : NotNegative
      ((node.length? (Css.sideProperty "border" side "width") 0.0).getD 0.0) := by
    obtain ⟨width, cases, found⟩ := settled side
    have value : node.value (Css.sideProperty "border" side "width") =
        Text.keyword (writtenPixels width) := by
      rw [Styled.value, styleValueOf, styleValue, found]
    rw [Styled.length?, value]
    exact (noneNegative_resolveLength? context (starts_writtenPixels cases).keyword).getD notNegative_zero
  exact ⟨each .top, each .right, each .bottom, each .left⟩

end Borders

section Trees

open Css (Stylesheet)
open Html (Element)
open Polling

/-- A styled tree as styling makes it: texts stand in the flow, and no border is below zero. -/
inductive Styled.Settled : Styled Number → Prop where
  | text {content : Text} {style : Properties} {fontSize : Number}
      (flows : (Styled.text content style fontSize).isAbsolute = false) :
      Settled (.text content style fontSize)
  | element {head : Element} {style : Properties} {fontSize : Number}
      {children : List (Styled Number)}
      (border : (Styled.element head style fontSize children).border.NotNegative)
      (inside : ∀ child ∈ children, Settled child) : Settled (.element head style fontSize children)

theorem notNegative_fontSize_settle {outer : Surroundings Number} (font : outer.fontSize.NotNegative)
    (cascaded : Properties) : (settle outer cascaded).fontSize.NotNegative := by
  unfold settle
  dsimp only
  split
  · exact font
  · exact notNegative_resolveFontSize _ font

theorem settled_assembleElement {outer : Surroundings Number} (font : outer.fontSize.NotNegative)
    (cascaded : Properties) (head : Element) {inside : Progress (List (Styled Number))}
    (settled : ∀ child ∈ inside.state, child.Settled) :
    (assembleElement head (settle outer cascaded) inside).Settled := by
  refine .element (notNegative_border (notNegative_fontSize_settle font cascaded)
    (hasBorder_settle outer cascaded)) fun child member => ?_
  exact settled child (mem_of_mem_assembleElement member)

/-- A border is not below zero where the font is not. -/
theorem holdsStyled_settled (sheets : List (Option Stylesheet)) :
    HoldsStyled sheets fun _ outer _ styled =>
      outer.fontSize.NotNegative → Styled.Settled styled where
  text _ outer content _ := .text ((settable_text content outer).flows rfl)
  element _ _ head _ _ styled font := by
    refine settled_assembleElement font _ head (forall_mem_of_forall₂ styled fun _ _ _ settled => ?_)
    exact settled (notNegative_fontSize_settle font _)

theorem settled_styleDocument (author : Stylesheet) (document : Html.Document) :
    (styleDocument author document : Polling (Styled Number)).Gives fun root =>
      root.Settled ∧ root.isText = false ∧ root.tag ≠ "img" := by
  have font : (⟨∅, defaultFontSize⟩ : Surroundings Number).fontSize.NotNegative := by decide +kernel
  have notImage : Html.documentTag ≠ "img" := by decide
  refine (gives_styleDocument (holdsStyled_settled _) document).weaken fun root assembled => ?_
  obtain ⟨state, styled, rfl⟩ := assembled
  refine ⟨settled_assembleElement font ∅ documentElement ?_, rfl, notImage⟩
  refine forall_mem_of_forall₂ styled fun _ _ _ settled => ?_
  exact settled (notNegative_fontSize_settle font ∅)

end Trees

end SlidePress.Layout
