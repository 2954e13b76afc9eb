import Mathlib.Data.List.Nodup
import SlidePress.Css.Shorthand
import SlidePress.Proofs.Table

/-! Expansion as a table of rules. Every shorthand has one rule, which reads its value and gives
entries for properties it covers. No rule covers a shorthand, so all of them read the style as it was
given: expanding a style adds what the rules give for it, in the order of the rules, wherever there
is nothing yet. -/

namespace SlidePress.Css.Shorthand

/-- A shorthand with the properties it covers and the entries that a value of it gives. -/
structure Rule where
  shorthand : Text
  properties : List Text
  longhands : Text → List (Text × Text)
  listed : ∀ value, ((longhands value).map (·.1)).Sublist properties

namespace Rule

variable (rule : Rule)

def given (style : Properties) : List (Text × Text) :=
  (style.get? rule.shorthand).elim [] rule.longhands

def apply (style : Properties) : Properties := style.addNew (rule.given style)

variable {rule}

theorem mem_properties {value : Text} {entry : Text × Text} (member : entry ∈ rule.longhands value) :
    entry.1 ∈ rule.properties :=
  (rule.listed value).subset (List.mem_map_of_mem member)

theorem mem_properties_of_given {style : Properties} {entry : Text × Text}
    (member : entry ∈ rule.given style) : entry.1 ∈ rule.properties := by
  rw [given] at member
  cases found : style.get? rule.shorthand with
  | none => rw [found] at member; cases member
  | some value => rw [found] at member; exact mem_properties member

theorem given_congr {style other : Properties}
    (same : style.get? rule.shorthand = other.get? rule.shorthand) :
    rule.given style = rule.given other := by
  rw [given, given, same]

end Rule

/-! ## The rules -/

section Rules

theorem length_sideValues {tokens values : List Text} (some : sideValues tokens = some values) :
    values.length = 4 := by
  unfold sideValues at some
  split at some <;> cases some <;> rfl

def sidesRule (shorthand base detail : Text) : Rule where
  shorthand := shorthand
  properties := Side.all.map (sideProperty base · detail)
  longhands value :=
    ((sideValues (Text.tokens value)).map fun values =>
      (Side.all.zip values).map fun (side, value) => (sideProperty base side detail, value)).getD []
  listed value := by
    cases some : sideValues (Text.tokens value) with
    | none => exact List.nil_sublist _
    | some values =>
        have sides : (Side.all.zip values).map (·.1) = Side.all :=
          List.map_fst_zip (Nat.le_of_eq (length_sideValues some).symm)
        have keys : (Side.all.zip values).map (fun entry => sideProperty base entry.1 detail) =
            Side.all.map (sideProperty base · detail) := by
          rw [← sides, List.map_map, sides]
          rfl
        simpa [Function.comp_def] using keys ▸ List.Sublist.refl _

def borderProperties (side : Side) : List Text :=
  [sideProperty "border" side "width", sideProperty "border" side "style",
    sideProperty "border" side "color"]

def borderLonghands (value : Text) (side : Side) : List (Text × Text) :=
  let parts := borderParts value
  (sideProperty "border" side "width", orElse parts.width "medium") ::
    (sideProperty "border" side "style", orElse parts.style "none") ::
      if parts.color.isEmpty then [] else [(sideProperty "border" side "color", parts.color)]

theorem borderLonghands_listed (value : Text) (side : Side) :
    ((borderLonghands value side).map (·.1)).Sublist (borderProperties side) := by
  rw [borderLonghands]
  split
  · exact List.Sublist.cons_cons _ (List.Sublist.cons_cons _ (List.nil_sublist _))
  · exact List.Sublist.refl _

def borderSideRule (side : Side) : Rule where
  shorthand := sideProperty "border" side []
  properties := borderProperties side
  longhands value := borderLonghands value side
  listed value := borderLonghands_listed value side

def borderRule : Rule where
  shorthand := "border"
  properties := Side.all.flatMap borderProperties
  longhands value := Side.all.flatMap (borderLonghands value)
  listed value := by
    simp only [Side.all, List.flatMap_cons, List.flatMap_nil, List.map_append, List.map_nil]
    exact (borderLonghands_listed value _).append ((borderLonghands_listed value _).append
      ((borderLonghands_listed value _).append ((borderLonghands_listed value _).append (.refl _))))

def backgroundRule : Rule where
  shorthand := "background"
  properties := ["background-image", "background-color"]
  longhands value :=
    let parts := backgroundParts value
    [("background-image", orElse parts.image "none"),
      ("background-color", orElse parts.color "transparent")]
  listed _ := List.Sublist.refl _

def flexRule : Rule where
  shorthand := "flex"
  properties := ["flex-grow", "flex-shrink", "flex-basis"]
  longhands value :=
    let parts := flexParts value
    [("flex-grow", parts.grow), ("flex-shrink", parts.shrink), ("flex-basis", parts.basis)]
  listed _ := List.Sublist.refl _

def gapRule : Rule where
  shorthand := "gap"
  properties := ["row-gap", "column-gap"]
  longhands value :=
    match Text.tokens value with
    | row :: rest => [("row-gap", row), ("column-gap", rest.head?.getD row)]
    | [] => []
  listed value := by
    split
    · exact List.Sublist.refl _
    · exact List.nil_sublist _

/-- All rules, the more specific ones first. -/
def rules : List Rule :=
  Side.all.map borderSideRule ++
    [borderRule, sidesRule "margin" "margin" [], sidesRule "padding" "padding" [],
      sidesRule "border-width" "border" "width", sidesRule "border-style" "border" "style",
      sidesRule "border-color" "border" "color", backgroundRule, flexRule, gapRule]

/-- Every shorthand has one rule. -/
theorem rules_distinct : (rules.map (·.shorthand)).Nodup := by decide +kernel

/-- What a rule gives is not read by any rule. -/
theorem rules_apart : ∀ rule ∈ rules, ∀ other ∈ rules, other.shorthand ∉ rule.properties := by
  decide +kernel

theorem properties_distinct : ∀ rule ∈ rules, rule.properties.Nodup := by decide +kernel

end Rules

/-! ## Expanding by rules -/

section Expanding

variable {style : Properties}

theorem expandSides_eq (shorthand base detail : Text) (style : Properties) :
    expandSides shorthand base detail style = (sidesRule shorthand base detail).apply style := by
  rw [expandSides, Rule.apply, Rule.given]
  change _ = style.addNew ((style.get? shorthand).elim [] _)
  cases style.get? shorthand with
  | none => rfl
  | some value =>
      cases some : sideValues (Text.tokens value) with
      | none => simp [some, sidesRule, Table.addNew]
      | some values => simp [some, sidesRule, Table.addNew, List.foldl_map]

theorem expandBorder_eq (value : Text) (style : Properties) (side : Side) :
    expandBorder value style side = style.addNew (borderLonghands value side) := by
  rw [expandBorder, borderLonghands]
  split <;> rfl

theorem expandBorderSide_eq (style : Properties) (side : Side) :
    expandBorderSide style side = (borderSideRule side).apply style := by
  rw [expandBorderSide, Rule.apply, Rule.given]
  change _ = style.addNew ((style.get? (sideProperty "border" side [])).elim [] _)
  cases style.get? (sideProperty "border" side []) with
  | none => rfl
  | some value => exact expandBorder_eq value style side

theorem expandBorderAll_eq (style : Properties) :
    expandBorderAll style = borderRule.apply style := by
  rw [expandBorderAll, Rule.apply, Rule.given]
  change _ = style.addNew ((style.get? "border").elim [] _)
  cases style.get? "border" with
  | none => rfl
  | some value =>
      have each : expandBorder value = fun style side => style.addNew (borderLonghands value side) :=
        funext fun style => funext fun side => expandBorder_eq value style side
      change Side.all.foldl (expandBorder value) style =
        style.addNew (Side.all.flatMap (borderLonghands value))
      rw [each, Table.addNew, List.foldl_flatMap]
      rfl

theorem expandBackground_eq (style : Properties) :
    expandBackground style = backgroundRule.apply style := by
  rw [expandBackground, Rule.apply, Rule.given]
  change _ = style.addNew ((style.get? "background").elim [] _)
  cases style.get? "background" <;> rfl

theorem expandFlex_eq (style : Properties) : expandFlex style = flexRule.apply style := by
  rw [expandFlex, Rule.apply, Rule.given]
  change _ = style.addNew ((style.get? "flex").elim [] _)
  cases style.get? "flex" <;> rfl

theorem expandGap_eq (style : Properties) : expandGap style = gapRule.apply style := by
  rw [expandGap, Rule.apply, Rule.given]
  change _ = style.addNew ((style.get? "gap").elim [] gapRule.longhands)
  cases style.get? "gap" with
  | none => rfl
  | some value =>
      simp only [Option.map_some, Option.elim_some, gapRule]
      cases Text.tokens value <;> rfl

/-- Expanding applies the rules one after another. -/
theorem expand_eq_foldl (style : Properties) :
    expand style = rules.foldl (fun style rule => rule.apply style) style := by
  have sides : expandBorderSide = fun style side => (borderSideRule side).apply style :=
    funext fun style => funext fun side => expandBorderSide_eq style side
  simp only [expand, sides, expandBorderAll_eq, expandSides_eq, expandBackground_eq, expandFlex_eq,
    expandGap_eq, rules, List.foldl_append, List.foldl_map, List.foldl_cons, List.foldl_nil]

def longhandsOf (style : Properties) : List (Text × Text) :=
  rules.flatMap (Rule.given · style)

/-- Rules that do not read what others give all see the style as it was. -/
theorem foldl_apply {list : List Rule}
    (apart : ∀ rule ∈ list, ∀ other ∈ list, other.shorthand ∉ rule.properties)
    (style : Properties) :
    list.foldl (fun style rule => rule.apply style) style =
      style.addNew (list.flatMap (Rule.given · style)) := by
  induction list generalizing style with
  | nil => rfl
  | cons rule rest ih =>
      -- The later rules read shorthands, and this rule gives none.
      have unread : ∀ other ∈ rest, other.given (rule.apply style) = other.given style := by
        intro other member
        refine Rule.given_congr ?_
        have absent : other.shorthand ∉ (rule.given style).map (·.1) := by
          intro inside
          obtain ⟨entry, isGiven, same⟩ := List.mem_map.mp inside
          exact apart rule List.mem_cons_self other (List.mem_cons_of_mem _ member)
            (same ▸ Rule.mem_properties_of_given isGiven)
        rw [Rule.apply, Table.get?_addNew, Table.lookup_eq_none_of_not_mem absent, Option.or_none]
      rw [List.foldl_cons, ih fun first member second isOther =>
        apart first (List.mem_cons_of_mem _ member) second (List.mem_cons_of_mem _ isOther)]
      rw [List.flatMap_cons, Table.addNew_append, List.flatMap_congr unread]
      rfl

/-- Expanding adds what the rules give for the style itself. -/
theorem expand_eq_addNew (style : Properties) : expand style = style.addNew (longhandsOf style) := by
  rw [expand_eq_foldl, foldl_apply rules_apart]
  rfl

theorem get?_expand (style : Properties) (property : Text) :
    (expand style).get? property = (style.get? property).or ((longhandsOf style).lookup property) := by
  rw [expand_eq_addNew, Table.get?_addNew]

/-- A style of one shorthand gets what its rule gives. -/
theorem longhandsOf_single {rule : Rule} (member : rule ∈ rules) (value : Text) :
    longhandsOf (Table.empty.insert rule.shorthand value) = rule.longhands value := by
  have others : ∀ list : List Rule, rule.shorthand ∉ list.map (·.shorthand) →
      list.flatMap (Rule.given · (Table.empty.insert rule.shorthand value)) = [] := by
    intro list absent
    refine List.flatMap_eq_nil_iff.mpr fun other inside => ?_
    have different : rule.shorthand ≠ other.shorthand :=
      fun same => absent (same ▸ List.mem_map_of_mem inside)
    rw [Rule.given, Table.get?_insert_of_ne different]
    rfl
  have distinct := rules_distinct
  obtain ⟨before, after, split⟩ := List.append_of_mem member
  rw [split, List.map_append, List.map_cons, List.nodup_middle, List.nodup_cons,
    List.mem_append, not_or] at distinct
  rw [longhandsOf, split, List.flatMap_append, List.flatMap_cons, others before distinct.1.1,
    others after distinct.1.2, Rule.given, Table.get?_insert_self]
  exact List.append_nil _

/-- In a style of one shorthand, a property finds what the rule gives it. -/
theorem get?_expand_single {rule : Rule} (member : rule ∈ rules) {value property longhand : Text}
    (isGiven : (property, longhand) ∈ rule.longhands value) :
    (expand (Table.empty.insert rule.shorthand value)).get? property = some longhand := by
  have other : rule.shorthand ≠ property := by
    rintro rfl
    exact rules_apart rule member rule member (Rule.mem_properties isGiven)
  have distinct := (rule.listed value).nodup (properties_distinct rule member)
  rw [get?_expand, longhandsOf_single member, Table.get?_insert_of_ne other,
    Table.lookup_of_mem distinct isGiven]
  rfl

end Expanding

end SlidePress.Css.Shorthand
