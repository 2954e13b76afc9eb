import SlidePress.Proofs.Style.Hundredths
import SlidePress.Slide.Issue

/-! Primitives that reach past the slide. A side counts as passed when the frame reaches past it by more
than the tolerance; but the distances are rounded to hundredths of a point before it is asked which of
them are left, so a side is passed over in silence when its distance exceeds the tolerance and is still
below half a hundredth. That can only happen with a tolerance below half a hundredth. -/

namespace SlidePress.Slide

open Source (NodeRef Size Tree)
open Style

def distances (canvas : Size) (frame : Rect Number) : List (Text × Number) :=
  [("left", -frame.x), ("top", -frame.y), ("right", frame.right - canvas.width),
    ("bottom", frame.bottom - canvas.height)]

section Reports

variable (passed : Number → Bool) (options : ValidationOptions)

def sidesPassed (primitive : Primitive) : List (Text × Number) :=
  (distances options.canvas primitive.header.frame).filter (passed ·.2)

/-- The issue is about a primitive and names some sides, each with its distance, and no others. -/
structure NamesSides (primitive : Primitive) (sides : List (Text × Number)) (issue : Issue) : Prop where
  kind : issue.kind = .overflow
  node : issue.nodes = [primitive.header.source]
  detail : issue.detail = primitive.kindName ++ " " ++ primitive.header.id ++
    " extends past the canvas: " ++ Text.join ", " (sides.map fun (name, distance) =>
      name ++ " by " ++ writtenPoints (roundOutput distance))

/-- One issue for each primitive that passes a side, in order, and no other issue; each names exactly
the sides that are passed. -/
def ReportsOverflow (primitives : List Primitive) (issues : List Issue) : Prop :=
  List.Forall₂ (fun primitive => NamesSides primitive (sidesPassed passed options primitive))
    (primitives.filter fun primitive => !(sidesPassed passed options primitive).isEmpty) issues

theorem ReportsOverflow.congr {passed other : Number → Bool} {options : ValidationOptions}
    {primitives : List Primitive} {issues : List Issue}
    (reports : ReportsOverflow passed options primitives issues)
    (same : ∀ primitive ∈ primitives,
      sidesPassed passed options primitive = sidesPassed other options primitive) :
    ReportsOverflow other options primitives issues := by
  have selected : primitives.filter (fun primitive => !(sidesPassed passed options primitive).isEmpty) =
      primitives.filter fun primitive => !(sidesPassed other options primitive).isEmpty :=
    List.filter_congr fun primitive member => by rw [same primitive member]
  unfold ReportsOverflow at reports ⊢
  rw [selected] at reports
  have kept : ∀ primitive ∈ primitives.filter
      (fun primitive => !(sidesPassed other options primitive).isEmpty),
      sidesPassed passed options primitive = sidesPassed other options primitive :=
    fun primitive member => same primitive (List.mem_filter.mp member).1
  refine ((List.forall₂_and_left _ _).mpr ⟨kept, reports⟩).imp ?_
  rintro primitive issue ⟨same, names⟩
  exact same ▸ names

end Reports

def overflowIssues (options : ValidationOptions) (tree : Tree) (primitives : List Primitive)
    (findings : List Finding) : List Issue :=
  (validate options tree primitives findings).filter (·.kind == .overflow)

theorem overflowIssues_eq (options : ValidationOptions) (tree : Tree) (primitives : List Primitive)
    (findings : List Finding) :
    overflowIssues options tree primitives findings = primitives.filterMap (overflowIssue? options) := by
  have other : ∀ issues : List Issue, (∀ issue ∈ issues, issue.kind ≠ .overflow) →
      issues.filter (·.kind == .overflow) = [] := fun issues each =>
    List.filter_eq_nil_iff.mpr fun issue member same => each issue member (beq_iff_eq.mp same)
  have dimension : (dimensionIssues options tree).filter (·.kind == .overflow) = [] := by
    unfold dimensionIssues
    split <;> rfl
  have finding : ∀ kind, (findingIssues findings kind).filter (·.kind == .overflow) = [] := by
    refine fun kind => other _ fun issue member => ?_
    obtain ⟨_, _, rfl⟩ := List.mem_map.mp member
    cases kind <;> exact IssueKind.noConfusion
  have bullet : (primitives.flatMap (bulletIssues options)).filter (·.kind == .overflow) = [] := by
    refine other _ fun issue member => ?_
    obtain ⟨primitive, _, inside⟩ := List.mem_flatMap.mp member
    unfold bulletIssues at inside
    split at inside
    · obtain ⟨_, _, rfl⟩ := List.mem_map.mp inside
      exact IssueKind.noConfusion
    · cases inside
  have duplicate : (duplicateIssues primitives).filter (·.kind == .overflow) = [] := by
    refine other _ fun issue member => ?_
    obtain ⟨id, _, made⟩ := List.mem_filterMap.mp member
    dsimp only at made
    split at made
    · cases made
    · cases made
      exact IssueKind.noConfusion
  have overflow : (primitives.filterMap (overflowIssue? options)).filter (·.kind == .overflow) =
      primitives.filterMap (overflowIssue? options) := by
    refine List.filter_eq_self.mpr fun issue member => ?_
    obtain ⟨primitive, _, made⟩ := List.mem_filterMap.mp member
    unfold overflowIssue? at made
    dsimp only at made
    split at made
    · cases made
    · cases made
      rfl
  simp only [overflowIssues, validate, List.filter_append, dimension, finding, bullet, duplicate,
    overflow, List.nil_append, List.append_nil]

section Sides

variable {options : ValidationOptions}

/-- A distance by which a side is passed beyond the tolerance. -/
def isBeyond (options : ValidationOptions) (distance : Number) : Bool :=
  decide (options.overflowTolerance < distance)

/-- A distance that is named in the report: it is half a hundredth or more, too. -/
def isNamed (options : ValidationOptions) (distance : Number) : Bool :=
  isBeyond options distance && decide (halfHundredth ≤ distance)

theorem pos_of_isNamed (notNegative : 0 ≤ options.overflowTolerance) {distance : Number}
    (beyond : options.overflowTolerance < distance) : 0 < distance := by
  obtain ⟨-, -, least⟩ := Number.le_iff.mp notNegative
  obtain ⟨-, isNumber, less⟩ := Number.lt_iff.mp beyond
  exact Number.lt_iff.mpr ⟨rfl, isNumber, lt_of_le_of_lt least less⟩

/-- What a distance becomes when it is cut at zero, compared with the tolerance and rounded. -/
theorem rounded_beyond (notNegative : 0 ≤ options.overflowTolerance) (distance : Number) :
    (if options.overflowTolerance < Number.max 0 distance then roundOutput (Number.max 0 distance) else 0) =
      if isNamed options distance then roundOutput distance else 0 := by
  by_cases beyond : options.overflowTolerance < distance
  · have positive := pos_of_isNamed notNegative beyond
    have cut : Number.max 0 distance = distance := if_pos positive
    rw [cut, if_pos beyond, isNamed, isBeyond, decide_eq_true beyond, Bool.true_and]
    by_cases large : halfHundredth ≤ distance
    · rw [if_pos (decide_eq_true large)]
    · rw [if_neg (by simpa using large), (roundOutput_cases positive).2 large]
  · have notBeyond : ¬ options.overflowTolerance < Number.max 0 distance := by
      unfold Number.max
      split
      · exact beyond
      · exact fun less => Number.not_le_of_lt less notNegative
    rw [if_neg notBeyond, isNamed, isBeyond, decide_eq_false beyond, Bool.false_and, if_neg Bool.false_ne_true]

theorem pos_rounded (notNegative : 0 ≤ options.overflowTolerance) (distance : Number) :
    decide (0 < if isNamed options distance then roundOutput distance else 0) = isNamed options distance := by
  cases named : isNamed options distance with
  | false =>
      rw [if_neg Bool.false_ne_true]
      decide +kernel
  | true =>
      rw [isNamed, isBeyond, Bool.and_eq_true, decide_eq_true_eq, decide_eq_true_eq] at named
      rw [if_pos rfl]
      exact decide_eq_true ((roundOutput_cases (pos_of_isNamed notNegative named.1)).1 named.2)

theorem beq_zero_rounded (notNegative : 0 ≤ options.overflowTolerance) (distance : Number) :
    ((if isNamed options distance then roundOutput distance else 0) == 0) =
      !isNamed options distance := by
  cases named : isNamed options distance with
  | false =>
      rw [if_neg Bool.false_ne_true]
      decide +kernel
  | true =>
      have seen := pos_rounded notNegative distance
      rw [named, if_pos rfl, decide_eq_true_eq] at seen
      rw [if_pos rfl, Bool.not_true, ← Bool.not_eq_true]
      intro none
      obtain ⟨-, -, same⟩ := Number.beq_iff.mp none
      obtain ⟨-, -, above⟩ := Number.lt_iff.mp seen
      exact above.ne' same

theorem sides_overageOf (notNegative : 0 ≤ options.overflowTolerance) (frame : Rect Number) :
    (overageOf options frame).sides = (distances options.canvas frame).map fun (name, distance) =>
      (name, if isNamed options distance then roundOutput distance else 0) := by
  simp only [overageOf, Overage.sides, distances, List.map_cons, List.map_nil,
    rounded_beyond notNegative]

theorem isNone_overageOf_named (notNegative : 0 ≤ options.overflowTolerance) (primitive : Primitive) :
    (overageOf options primitive.header.frame).isNone =
      (sidesPassed (isNamed options) options primitive).isEmpty := by
  rw [Overage.isNone, sides_overageOf notNegative, List.all_map, sidesPassed, Bool.eq_iff_iff,
    List.all_eq_true, List.isEmpty_iff, List.filter_eq_nil_iff]
  refine forall₂_congr fun side _ => ?_
  rw [Function.comp_apply, beq_zero_rounded notNegative, Bool.not_eq_true', Bool.not_eq_true]

theorem written_overageOf (notNegative : 0 ≤ options.overflowTolerance) (primitive : Primitive) :
    (overageOf options primitive.header.frame).written =
      Text.join ", " ((sidesPassed (isNamed options) options primitive).map fun (name, distance) =>
        name ++ " by " ++ writtenPoints (roundOutput distance)) := by
  rw [Overage.written, sides_overageOf notNegative, sidesPassed, List.filter_map, List.map_map]
  simp only [Function.comp_def, pos_rounded notNegative]
  congr 1
  refine List.map_congr_left fun side member => ?_
  rw [if_pos (List.mem_filter.mp member).2]

/-- A primitive is reported exactly when it has a side to be named, and then all of these are named. -/
theorem overflowIssue?_cases (notNegative : 0 ≤ options.overflowTolerance) (primitive : Primitive) :
    if (sidesPassed (isNamed options) options primitive).isEmpty then
      overflowIssue? options primitive = none
    else ∃ issue, overflowIssue? options primitive = some issue ∧
      NamesSides primitive (sidesPassed (isNamed options) options primitive) issue := by
  rw [overflowIssue?, isNone_overageOf_named notNegative, written_overageOf notNegative]
  split
  · rfl
  · exact ⟨_, rfl, rfl, rfl, rfl⟩

theorem reportsOverflow_named (notNegative : 0 ≤ options.overflowTolerance)
    (primitives : List Primitive) : ReportsOverflow (isNamed options) options primitives
      (primitives.filterMap (overflowIssue? options)) := by
  induction primitives with
  | nil => exact .nil
  | cons primitive rest ih =>
      have own := overflowIssue?_cases notNegative primitive
      unfold ReportsOverflow
      split at own
      · rename_i none
        rw [List.filterMap_cons_none own, List.filter_cons_of_neg (by rw [none]; decide)]
        exact ih
      · rename_i some
        obtain ⟨issue, made, names⟩ := own
        rw [List.filterMap_cons_some made, List.filter_cons_of_pos (by simpa using some)]
        exact .cons names ih

end Sides

/-- Overflow is reported for exactly the primitives, and with exactly the sides, that reach past the slide
by more than the tolerance and by half a hundredth of a point or more. These are all that reach past it by
more than the tolerance when no distance lies in between, and so whenever the tolerance is half a hundredth
or more. -/
theorem overflow_reported (options : ValidationOptions) (notNegative : 0 ≤ options.overflowTolerance)
    (tree : Tree) (primitives : List Primitive) (findings : List Finding) :
    ReportsOverflow (isNamed options) options primitives
        (overflowIssues options tree primitives findings) ∧
      ((∀ primitive ∈ primitives, ∀ side ∈ distances options.canvas primitive.header.frame,
          options.overflowTolerance < side.2 → halfHundredth ≤ side.2) →
        ReportsOverflow (isBeyond options) options primitives
          (overflowIssues options tree primitives findings)) ∧
      (halfHundredth ≤ options.overflowTolerance →
        ReportsOverflow (isBeyond options) options primitives
          (overflowIssues options tree primitives findings)) := by
  have named := reportsOverflow_named notNegative primitives
  rw [← overflowIssues_eq options tree primitives findings] at named
  have all (large : ∀ primitive ∈ primitives,
      ∀ side ∈ distances options.canvas primitive.header.frame,
        options.overflowTolerance < side.2 → halfHundredth ≤ side.2) :
      ReportsOverflow (isBeyond options) options primitives
        (overflowIssues options tree primitives findings) := by
    refine named.congr fun primitive member => List.filter_congr fun side inside => ?_
    by_cases beyond : options.overflowTolerance < side.2
    · rw [isNamed, decide_eq_true (large primitive member side inside beyond), Bool.and_true]
    · rw [isNamed, isBeyond, decide_eq_false beyond, Bool.false_and]
  refine ⟨named, all, fun large => all fun primitive _ side _ beyond => ?_⟩
  obtain ⟨isNumber, -, least⟩ := Number.le_iff.mp large
  obtain ⟨-, isNumberToo, less⟩ := Number.lt_iff.mp beyond
  exact Number.le_iff.mpr ⟨isNumber, isNumberToo, (lt_of_le_of_lt least less).le⟩

def Rect.isFinite (frame : Rect Number) : Bool :=
  frame.x.isFinite && frame.y.isFinite && frame.width.isFinite && frame.height.isFinite

def blankShape (frame : Rect Number) : Primitive := ⟨{ id := "s", frame }, .shape {}⟩

def slideSize : Size := ⟨720, 405⟩

theorem overflow_reported_default :
    (0 : Number) ≤ ({ canvas := slideSize } : ValidationOptions).overflowTolerance ∧
      ReportsOverflow (isBeyond { canvas := slideSize }) { canvas := slideSize }
        [blankShape ⟨-5, 0, 10, 10⟩, blankShape ⟨0, 0, 720.5, 405⟩, blankShape ⟨700, 400, 100, 9⟩]
        (overflowIssues { canvas := slideSize } ⟨none, slideSize⟩
          [blankShape ⟨-5, 0, 10, 10⟩, blankShape ⟨0, 0, 720.5, 405⟩, blankShape ⟨700, 400, 100, 9⟩] []) := by
  have notNegative : (0 : Number) ≤ 0.72 := by decide +kernel
  exact ⟨notNegative, (overflow_reported { canvas := slideSize } notNegative _ _ _).2.2 (by decide +kernel)⟩

/-- The distances are rounded before it is asked which of them are left. -/
theorem not_overflow_reported :
    ¬ ∀ (options : ValidationOptions) (tree : Tree) (primitives : List Primitive) (findings : List Finding),
      0 ≤ options.overflowTolerance → options.overflowTolerance.isFinite = true →
      (∀ primitive ∈ primitives, Rect.isFinite primitive.header.frame = true) →
      ReportsOverflow (isBeyond options) options primitives
        (overflowIssues options tree primitives findings) := by
  intro all
  have reports := all { canvas := slideSize, overflowTolerance := 0 } ⟨none, slideSize⟩
    [blankShape ⟨-0.004, 0, 10, 10⟩] [] (by decide +kernel) (by decide +kernel) (by decide +kernel)
  have sizes := List.Forall₂.length_eq reports
  exact absurd sizes (by decide +kernel)

end SlidePress.Slide
