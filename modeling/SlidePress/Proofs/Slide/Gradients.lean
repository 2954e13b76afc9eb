import SlidePress.Proofs.Slide.Report
import SlidePress.Proofs.Slide.RoleOrigin
import SlidePress.Proofs.Slide.TextKept

/-! Gradients. A slide cannot show a gradient, so a conversion should report every element that has
one. It does so for shapes and for all elements of a text. What it passes over, outside of texts, are
images and line breaks with everything inside them, and the root. -/

namespace SlidePress.Slide

open Source (Node NodeRef Tree Kind Size Placed placedAll subtrees)
open Style

/-- Outside of texts the node is not asked for its gradient, nor is anything inside it. -/
def isPassedOver (node : Node) : Bool :=
  isShownImage node || node.kind == .text || node.kind == .lineBreak

/-- Nobody asks the node for its gradient: it is the root, or it is passed over outside of texts. -/
def isOverlooked (roles : List Role) (placed : Placed) : Bool :=
  placed.ancestors.isEmpty ||
    !placed.inText roles && (placed.node :: placed.ancestors.dropLast).any isPassedOver

structure HasGradient (roles : List Role) (placed : Placed) : Prop where
  element : placed.node.kind ≠ .text
  gradient : isGradient (placed.node.style.get "background-image") = true
  uncovered : ∀ outer ∈ placed.node :: placed.ancestors, roleOf roles outer ≠ .placeholder

section Origins

variable {placeholderClass : Text} {roles : List Role}

theorem IsContainer.not_passedOver {node : Node}
    (container : IsContainer placeholderClass roles node) : isPassedOver node = false := by
  obtain ⟨notShown, notText, notBreak⟩ := container.plain
  rw [isPassedOver, notShown, beq_eq_false_iff_ne.mpr notText, beq_eq_false_iff_ne.mpr notBreak]
  rfl

theorem not_passedOver_of_textBearing {node : Node} (bearing : isTextBearing node = true) :
    isPassedOver node = false := by
  unfold isTextBearing at bearing
  unfold isPassedOver isShownImage
  cases kind : node.kind with
  | paragraph | heading | list | listItem | inline => rfl
  | text | lineBreak | image | container => rw [kind] at bearing; cases bearing

theorem any_passedOver {nodes : List Node}
    (containers : ∀ node ∈ nodes, IsContainer placeholderClass roles node) :
    nodes.any isPassedOver = false := by
  rw [List.any_eq_false]
  intro node member
  rw [(containers node member).not_passedOver]
  exact Bool.false_ne_true

/-- A node has a text around it only if a block of text stands between it and the root. -/
theorem inText_of_around {placed : Placed} {around : List Node} {root : Node}
    (path : placed.ancestors = around ++ [root]) (ignorable : roleOf roles root = .ignorable) :
    placed.inText roles = around.any (roleOf roles · == .textBlock) := by
  rw [Placed.inText, path, List.any_append, List.any_cons, ignorable]
  exact Bool.or_false _

theorem not_inText_of_containers {around : List Node}
    (outside : ∀ outer ∈ around, IsContainer placeholderClass roles outer) :
    around.any (roleOf roles · == .textBlock) = false := by
  rw [List.any_eq_false]
  intro outer member
  rw [not_block_of_open (outside outer member).isOpen]
  exact Bool.false_ne_true

theorem not_inText_of_ignorable {between : List Node} {node : Node}
    (inside : ∀ other ∈ node :: between, roleOf roles other = .ignorable) :
    between.any (roleOf roles · == .textBlock) = false := by
  rw [List.any_eq_false]
  intro other member
  rw [inside other (List.mem_cons_of_mem _ member)]
  decide

/-- A gradient is lost from a node below the root unless the node is overlooked. -/
theorem losesGradient_eq {placed : Placed} {around : List Node} {root : Node}
    (path : placed.ancestors = around ++ [root]) (ignorable : roleOf roles root = .ignorable)
    (origin : Origin placeholderClass roles around placed.node) (has : HasGradient roles placed) :
    losesGradient roles placed = !isOverlooked roles placed := by
  have isElement : (placed.node.kind != .text) = true := bne_iff_ne.mpr has.element
  have inText := inText_of_around path ignorable
  have notRoot : placed.ancestors.isEmpty = false := by
    rw [path]
    cases around <;> rfl
  have between : placed.ancestors.dropLast = around := by
    rw [path, List.dropLast_concat]
  rw [losesGradient, isTextElement, isOverlooked, isElement, has.gradient, notRoot, between, inText]
  cases origin with
  | container outside own =>
      have shaped : hasShapeStyle placed.node = true := by
        simp [hasShapeStyle, has.gradient]
      have role := own.role
      rw [shaped, if_pos rfl] at role
      rw [role, not_inText_of_containers outside, List.any_cons, own.not_passedOver,
        any_passedOver outside]
      rfl
  | settled outside settles own =>
      rw [own, not_inText_of_containers outside, List.any_cons, any_passedOver outside]
      cases settles with
      | placeholder _ => exact (has.uncovered _ List.mem_cons_self own).elim
      | image shown =>
          rw [isPassedOver, shown]
          rfl
      | text bearing =>
          rw [not_passedOver_of_textBearing bearing]
          rfl
      | leaf kind =>
          rcases kind with isText | isBreak
          · exact (has.element isText).elim
          · simp [isPassedOver, isBreak]
  | within between settler outer shape outside settles own inside =>
      have ownRole := inside _ List.mem_cons_self
      have passed : isPassedOver settler = true →
          (placed.node :: (between ++ settler :: outer)).any isPassedOver = true := by
        intro isPassed
        simp [isPassed]
      rw [shape, List.any_append, List.any_cons, own, not_inText_of_containers outside, ownRole]
      cases settles with
      | placeholder _ =>
          refine (has.uncovered settler (List.mem_cons_of_mem _ ?_) own).elim
          rw [path, shape]
          simp
      | image shown =>
          rw [not_inText_of_ignorable inside, passed (by rw [isPassedOver, shown]; rfl)]
          rfl
      | text bearing => simp
      | leaf kind =>
          rw [not_inText_of_ignorable inside, passed (by rcases kind with kind | kind <;>
            simp [isPassedOver, kind])]
          rfl

end Origins

section Reports

variable (options : ConversionOptions) (root : Node) (declared : Size)

/-- A conversion is rejected with an issue that lays some blame exactly when the report has it. -/
theorem blames_iff_mem_report (blame : Blame) :
    (∃ issues, (convertTree options (Tree.numbered ⟨some root, declared⟩)).1 = .rejected issues ∧
        ∃ issue ∈ issues, issue.blame = blame) ↔ blame ∈ report options root declared := by
  rw [← blame_validate options root declared, outcome_convertTree]
  simp only [assemble_eq_rejected]
  constructor
  · rintro ⟨issues, ⟨_, rfl⟩, issue, member, rfl⟩
    exact List.mem_map_of_mem member
  · intro member
    obtain ⟨issue, found, same⟩ := List.mem_map.mp member
    exact ⟨_, ⟨List.ne_nil_of_mem found, rfl⟩, issue, found, same⟩

/-- A report blames a node for a gradient exactly when one is lost there. -/
theorem gradient_mem_report (ref : NodeRef) :
    (⟨.unsupportedGradient, [ref]⟩ : Blame) ∈ report options root declared ↔
      ∃ placed ∈ root.numbered.placed [],
        losesGradient (numberedRoles options.placeholderClass root declared) placed = true ∧
          placed.node.ref = ref := by
  have size : (⟨.unsupportedGradient, [ref]⟩ : Blame) ∉
      if fitsCanvas options declared then []
      else [(⟨.dimensionMismatch, [root.numbered.ref]⟩ : Blame)] := by
    split <;> simp
  have primitives : ∀ shown, (⟨.unsupportedGradient, [ref]⟩ : Blame) ∉
      primitiveBlames options shown := by
    intro shown
    simp [primitiveBlames]
  simp only [report, List.mem_append, size, primitives, List.mem_map, List.mem_filter,
    Blame.mk.injEq, reduceCtorEq, false_and, and_false, exists_false, or_false, false_or, true_and,
    List.cons.injEq, and_true, and_assoc]

/-- Placed nodes with the same number are the same. -/
theorem placed_eq_of_order {first second : Placed} (isFirst : first ∈ root.numbered.placed [])
    (isSecond : second ∈ root.numbered.placed []) (same : first.node.order = second.node.order) :
    first = second := by
  have orders : ((root.numbered.placed []).map fun placed => placed.node.order).Nodup := by
    have distinct := Source.distinct_orders root
    rw [← Source.map_node_placed root.numbered [], List.map_map] at distinct
    exact distinct
  exact List.inj_on_of_nodup_map orders isFirst isSecond same

/-- A conversion is rejected and blames an element for its gradient, unless the element is
overlooked. -/
theorem gradient_reported_iff (placed : Placed) (member : placed ∈ root.numbered.placed [])
    (has : HasGradient (numberedRoles options.placeholderClass root declared) placed) :
    (∃ issues, (convertTree options (Tree.numbered ⟨some root, declared⟩)).1 = .rejected issues ∧
        ∃ issue ∈ issues, issue.blame = ⟨.unsupportedGradient, [placed.node.ref]⟩) ↔
      isOverlooked (numberedRoles options.placeholderClass root declared) placed = false := by
  have loses : losesGradient (numberedRoles options.placeholderClass root declared) placed =
      !isOverlooked (numberedRoles options.placeholderClass root declared) placed := by
    rw [Node.placed_eq] at member
    rcases List.mem_cons.mp member with rfl | below
    · exact (root_blameless root declared options.placeholderClass).2
    · obtain ⟨around, path, origin⟩ := origin_descendants root declared placed below
      exact losesGradient_eq path (classified_children options.placeholderClass root declared).1
        origin has
  rw [blames_iff_mem_report, gradient_mem_report, ← Bool.not_eq_true', ← loses]
  constructor
  · rintro ⟨other, isPlaced, lost, sameRef⟩
    rw [← placed_eq_of_order root isPlaced member (congrArg NodeRef.order sameRef)]
    exact lost
  · exact fun lost => ⟨placed, member, lost, rfl⟩

end Reports

section Samples

instance (roles : List Role) (placed : Placed) : Decidable (HasGradient roles placed) :=
  decidable_of_iff
    (placed.node.kind ≠ .text ∧ isGradient (placed.node.style.get "background-image") = true ∧
      ∀ outer ∈ placed.node :: placed.ancestors, roleOf roles outer ≠ .placeholder)
    ⟨fun ⟨element, gradient, uncovered⟩ => ⟨element, gradient, uncovered⟩,
      fun has => ⟨has.element, has.gradient, has.uncovered⟩⟩

def gradientNode (tag : Text) : Node :=
  { bareNode tag [] [] with
    style := ⟨Table.ofList [("background-image", "linear-gradient(red, blue)")]⟩ }

def gradientWordPage : Node :=
  bareNode "body" []
    [bareNode "p" []
      [bareText "to ", { gradientNode "b" with children := [bareText "be"] }]]

theorem gradient_reported_iff_word :
    ∃ placed ∈ gradientWordPage.numbered.placed [],
      HasGradient (numberedRoles "placeholder" gradientWordPage ⟨720, 405⟩) placed ∧
        ∃ issues,
          (convertTree {} (Tree.numbered ⟨some gradientWordPage, ⟨720, 405⟩⟩)).1 = .rejected issues ∧
          ∃ issue ∈ issues, issue.blame = ⟨.unsupportedGradient, [placed.node.ref]⟩ := by
  let placed := (gradientWordPage.numbered.placed []).get ⟨3, by decide +kernel⟩
  have member : placed ∈ gradientWordPage.numbered.placed [] := List.get_mem ..
  have has : HasGradient (numberedRoles "placeholder" gradientWordPage ⟨720, 405⟩) placed := by
    decide +kernel
  refine ⟨placed, member, has, ?_⟩
  exact (gradient_reported_iff {} gradientWordPage ⟨720, 405⟩ placed member has).mpr
    (by decide +kernel)

/-- Every element with a gradient that no placeholder covers is blamed for it. -/
def ReportsGradients (root : Node) : Prop :=
  ∀ placed ∈ root.numbered.placed [],
    HasGradient (numberedRoles "placeholder" root ⟨720, 405⟩) placed →
      ∃ issues, (convertTree {} (Tree.numbered ⟨some root, ⟨720, 405⟩⟩)).1 = .rejected issues ∧
        ∃ issue ∈ issues, issue.blame = ⟨.unsupportedGradient, [placed.node.ref]⟩

theorem not_reportsGradients_of {root : Node} (index : Fin (root.numbered.placed []).length)
    (has : HasGradient (numberedRoles "placeholder" root ⟨720, 405⟩)
      ((root.numbered.placed []).get index))
    (nothing : (report {} root ⟨720, 405⟩).isEmpty = true) : ¬ ReportsGradients root := by
  intro reports
  have blamed := (blames_iff_mem_report {} root ⟨720, 405⟩ _).mp (reports _ (List.get_mem ..) has)
  rw [List.isEmpty_iff.mp nothing] at blamed
  cases blamed

/-- The gradients of a page itself, of an image in it and of a line break in it are lost without a
report. -/
theorem not_reportsGradients :
    ¬ ReportsGradients (gradientNode "body") ∧
      ¬ ReportsGradients (bareNode "body" []
        [{ gradientNode "img" with attributes := Table.ofList [("src", "a.png")] }]) ∧
      ¬ ReportsGradients (bareNode "body" [] [gradientNode "br"]) := by
  refine ⟨?_, ?_, ?_⟩
  · exact not_reportsGradients_of ⟨0, by decide +kernel⟩ (by decide +kernel) (by decide +kernel)
  · exact not_reportsGradients_of ⟨1, by decide +kernel⟩ (by decide +kernel) (by decide +kernel)
  · exact not_reportsGradients_of ⟨1, by decide +kernel⟩ (by decide +kernel) (by decide +kernel)

end Samples

end SlidePress.Slide
