import SlidePress.Proofs.Css.Longhands

/-! What expanding a style keeps and adds. Every entry of a style stays, what comes in are longhands
of its shorthands, and expanding once more changes nothing, as no rule gives a shorthand. Of the rules
that give one longhand of a border the first one has its way: that of the side, then that of all
sides, then that of the one detail on all sides. -/

namespace SlidePress.Css.Shorthand

/-! ## What is kept and what is added -/

section Entries

variable {style : Properties}

theorem mem_properties_of_longhandsOf {entry : Text × Text} (member : entry ∈ longhandsOf style) :
    ∃ rule ∈ rules, style.contains rule.shorthand = true ∧ entry.1 ∈ rule.properties := by
  obtain ⟨rule, isRule, isGiven⟩ := List.mem_flatMap.mp member
  refine ⟨rule, isRule, ?_, Rule.mem_properties_of_given isGiven⟩
  rw [Table.contains]
  cases found : style.get? rule.shorthand with
  | none => rw [Rule.given, found] at isGiven; cases isGiven
  | some value => rfl

theorem get?_expand_of_mem {entry : Text × Text} (member : entry ∈ style.entries) :
    (expand style).get? entry.1 = some entry.2 := by
  rw [get?_expand, Table.get?_of_mem member, Option.some_or]

/-- An entry of an expanded style was there before, or it is a longhand of a shorthand there. -/
theorem mem_expand {entry : Text × Text} (member : entry ∈ (expand style).entries) :
    entry ∈ style.entries ∨
      ∃ rule ∈ rules, style.contains rule.shorthand = true ∧ entry.1 ∈ rule.properties := by
  have found := Table.get?_of_mem member
  rw [get?_expand, Option.or_eq_some_iff] at found
  rcases found with old | ⟨-, added⟩
  · exact .inl (Table.mem_of_get? old)
  · exact .inr (mem_properties_of_longhandsOf (Table.mem_of_lookup added))

/-- Expanding gives no shorthand. -/
theorem get?_expand_shorthand {rule : Rule} (isRule : rule ∈ rules) :
    (expand style).get? rule.shorthand = style.get? rule.shorthand := by
  have absent : rule.shorthand ∉ (longhandsOf style).map (·.1) := by
    intro member
    obtain ⟨entry, isAdded, same⟩ := List.mem_map.mp member
    obtain ⟨other, isOther, -, covered⟩ := mem_properties_of_longhandsOf isAdded
    exact rules_apart other isOther rule isRule (same ▸ covered)
  rw [get?_expand, Table.lookup_eq_none_of_not_mem absent, Option.or_none]

/-- The rules give the same for an expanded style. -/
theorem longhandsOf_expand (style : Properties) : longhandsOf (expand style) = longhandsOf style :=
  List.flatMap_congr fun _ isRule => Rule.given_congr (get?_expand_shorthand isRule)

theorem expand_expand (style : Properties) : expand (expand style) = expand style := by
  rw [expand_eq_addNew (expand style), longhandsOf_expand, expand_eq_addNew style,
    Table.addNew_addNew]

end Entries

/-! ## Where the longhands of a border come from -/

inductive BorderDetail where
  | width
  | style
  | color
  deriving DecidableEq

namespace BorderDetail

def all : List BorderDetail := [.width, .style, .color]

def name : BorderDetail → Text
  | .width => "width"
  | .style => "style"
  | .color => "color"

/-- The value that a border gives a detail. A border without a color gives none. -/
def givenBy (border : Text) : BorderDetail → Option Text
  | .width => some (orElse (borderParts border).width "medium")
  | .style => some (orElse (borderParts border).style "none")
  | .color =>
      let color := (borderParts border).color
      if color.isEmpty then none else some color

end BorderDetail

def borderProperty (side : Side) (detail : BorderDetail) : Text :=
  sideProperty "border" side detail.name

def sideValue? (side : Side) (value : Text) : Option Text :=
  (sideValues (Text.tokens value)).bind fun values => (Side.all.zip values).lookup side

section Borders

variable {side other : Side} {detail aspect : BorderDetail}

theorem BorderDetail.mem_all (detail : BorderDetail) : detail ∈ BorderDetail.all := by
  cases detail <;> decide

theorem borderProperty_inj (same : borderProperty side detail = borderProperty other aspect) :
    side = other ∧ detail = aspect := by
  have distinct : ∀ side ∈ Side.all, ∀ detail ∈ BorderDetail.all, ∀ other ∈ Side.all,
      ∀ aspect ∈ BorderDetail.all, borderProperty side detail = borderProperty other aspect →
        side = other ∧ detail = aspect := by
    decide +kernel
  exact distinct side side.mem_all detail (BorderDetail.mem_all detail) other
    other.mem_all aspect (BorderDetail.mem_all aspect) same

/-- Three rules give a longhand of a border. -/
theorem rules_of_border (side : Side) (detail : BorderDetail) :
    rules.filter (fun rule => borderProperty side detail ∈ rule.properties) =
      [borderSideRule side, borderRule,
        sidesRule ("border-" ++ detail.name) "border" detail.name] := by
  cases side <;> cases detail <;> rfl

theorem Rule.lookup_given (rule : Rule) (style : Properties) (property : Text) :
    (rule.given style).lookup property =
      (style.get? rule.shorthand).bind fun value => (rule.longhands value).lookup property := by
  rw [given]
  cases style.get? rule.shorthand <;> rfl

theorem Rule.lookup_given_of_not_mem {rule : Rule} {property : Text}
    (foreign : property ∉ rule.properties) (style : Properties) :
    (rule.given style).lookup property = none := by
  refine Table.lookup_eq_none_of_not_mem fun member => ?_
  obtain ⟨entry, isGiven, rfl⟩ := List.mem_map.mp member
  exact foreign (Rule.mem_properties_of_given isGiven)

theorem lookup_borderLonghands (border : Text) (side : Side) (detail : BorderDetail) :
    (borderLonghands border side).lookup (borderProperty side detail) = detail.givenBy border := by
  have others : ∀ {aspect : BorderDetail}, detail ≠ aspect →
      (borderProperty side detail == borderProperty side aspect) = false := fun different =>
    beq_eq_false_iff_ne.mpr fun same => different (borderProperty_inj same).2
  have listed : borderLonghands border side =
      (borderProperty side .width, orElse (borderParts border).width "medium") ::
        (borderProperty side .style, orElse (borderParts border).style "none") ::
          if (borderParts border).color.isEmpty then []
          else [(borderProperty side .color, (borderParts border).color)] := rfl
  rw [listed, List.lookup_cons, List.lookup_cons, BorderDetail.givenBy.eq_def]
  cases detail with
  | width => rw [beq_self_eq_true]
  | style => rw [others (by decide), beq_self_eq_true]
  | color =>
      rw [others (by decide), others (by decide)]
      dsimp only
      split
      · rfl
      · rw [List.lookup_cons, beq_self_eq_true]

theorem lookup_borderLonghands_of_ne (different : other ≠ side) (border : Text) :
    (borderLonghands border other).lookup (borderProperty side detail) = none := by
  refine Table.lookup_eq_none_of_not_mem fun member => different ?_
  have listed := (borderLonghands_listed border other).subset member
  have keys : borderProperties other = BorderDetail.all.map (borderProperty other) := rfl
  rw [keys] at listed
  obtain ⟨aspect, -, same⟩ := List.mem_map.mp listed
  exact (borderProperty_inj same).1

theorem lookup_borderRule (border : Text) (side : Side) (detail : BorderDetail) :
    (borderRule.longhands border).lookup (borderProperty side detail) = detail.givenBy border := by
  have own : Side.all.filter (· == side) = [side] := by cases side <;> rfl
  change (Side.all.flatMap (borderLonghands border)).lookup _ = _
  rw [Table.lookup_flatMap_filter (· == side) fun other _ different =>
    lookup_borderLonghands_of_ne (beq_eq_false_iff_ne.mp different) border]
  rw [own, List.flatMap_singleton, lookup_borderLonghands]

theorem lookup_sidesRule (shorthand value : Text) (side : Side) (detail : BorderDetail) :
    ((sidesRule shorthand "border" detail.name).longhands value).lookup (borderProperty side detail) =
      sideValue? side value := by
  have found : ∀ entries : List (Side × Text),
      (entries.map fun entry => (borderProperty entry.1 detail, entry.2)).lookup
        (borderProperty side detail) = entries.lookup side := by
    intro entries
    induction entries with
    | nil => rfl
    | cons entry rest ih =>
        have alike : (borderProperty side detail == borderProperty entry.1 detail) =
            (side == entry.1) := by
          rw [Bool.eq_iff_iff, beq_iff_eq, beq_iff_eq]
          exact ⟨fun same => (borderProperty_inj same).1, fun same => same ▸ rfl⟩
        rw [List.map_cons, List.lookup_cons, List.lookup_cons, ih, alike]
  change List.lookup _ (((sideValues (Text.tokens value)).map _).getD []) = _
  rw [sideValue?]
  cases sideValues (Text.tokens value) with
  | none => rfl
  | some values => exact found _

/-- A longhand of a border stays as it is, or it comes from the first shorthand that gives it. -/
theorem get?_expand_border (style : Properties) (side : Side) (detail : BorderDetail) :
    (expand style).get? (borderProperty side detail) =
      (((style.get? (borderProperty side detail)).or
        ((style.get? (sideProperty "border" side [])).bind detail.givenBy)).or
          ((style.get? "border").bind detail.givenBy)).or
            ((style.get? ("border-" ++ detail.name)).bind (sideValue? side)) := by
  have given : (longhandsOf style).lookup (borderProperty side detail) =
      ((style.get? (sideProperty "border" side [])).bind detail.givenBy).or
        (((style.get? "border").bind detail.givenBy).or
          ((style.get? ("border-" ++ detail.name)).bind (sideValue? side))) := by
    have ofSide : (fun border => ((borderSideRule side).longhands border).lookup
        (borderProperty side detail)) = detail.givenBy :=
      funext fun border => lookup_borderLonghands border side detail
    have ofAll : (fun border => (borderRule.longhands border).lookup (borderProperty side detail)) =
        detail.givenBy :=
      funext fun border => lookup_borderRule border side detail
    have ofDetail : (fun value => ((sidesRule ("border-" ++ detail.name) "border"
        detail.name).longhands value).lookup (borderProperty side detail)) = sideValue? side :=
      funext fun value => lookup_sidesRule _ value side detail
    rw [longhandsOf, Table.lookup_flatMap_filter _ fun rule _ foreign =>
      Rule.lookup_given_of_not_mem (decide_eq_false_iff_not.mp foreign) style]
    rw [rules_of_border, List.flatMap_cons, List.flatMap_cons, List.flatMap_singleton,
      List.lookup_append, List.lookup_append, Rule.lookup_given, Rule.lookup_given,
      Rule.lookup_given, ofSide, ofAll, ofDetail]
    rfl
  rw [get?_expand, given, Option.or_assoc, Option.or_assoc]

end Borders

/-- Expanding a style keeps every entry and adds longhands of shorthands in it, once and for all. A
longhand of a border that is not there comes from the border of its side, or else from that of all
sides, or else from the values of its detail. -/
theorem expand_conservative (style : Properties) :
    style.entries ⊆ (expand style).entries ∧
      (∀ entry ∈ (expand style).entries, entry ∈ style.entries ∨
        ∃ rule ∈ rules, style.contains rule.shorthand = true ∧ entry.1 ∈ rule.properties) ∧
      expand (expand style) = expand style ∧
      ∀ (side : Side) (detail : BorderDetail),
        (expand style).get? (borderProperty side detail) =
          (((style.get? (borderProperty side detail)).or
            ((style.get? (sideProperty "border" side [])).bind detail.givenBy)).or
              ((style.get? "border").bind detail.givenBy)).or
                ((style.get? ("border-" ++ detail.name)).bind (sideValue? side)) := by
  refine ⟨fun entry member => ?_, fun entry => mem_expand, expand_expand style,
    get?_expand_border style⟩
  exact Table.mem_of_get? (get?_expand_of_mem member)

/-- The border of the left side names no color, and neither does that of all sides. -/
example : (expand (Table.ofList [("border", "thin dashed"), ("border-left", "2px"),
    ("border-color", "red blue")])).get? (borderProperty .left .color) = some "blue" := by
  decide +kernel

end SlidePress.Css.Shorthand
