import SlidePress.Proofs.Slide.TextKept

/-! Inline elements that stand alone. Such an element holds nothing but running text, some of which
shows. It is a block of text exactly when some text shows in every inline element inside it as well:
one without text, put in for an icon, keeps the text around it from becoming a block. -/

namespace SlidePress.Source

def Kind.isRunning : Kind → Bool
  | .text | .lineBreak | .inline => true
  | .paragraph | .heading | .list | .listItem | .image | .container => false

def Node.ShowsText (node : Node) : Prop :=
  ∃ text ∈ node.subtree, text.kind = .text ∧ ∃ byte ∈ text.text, Byte.isSpace byte = false

/-- Nothing but running text, some of which shows. -/
structure Node.HoldsLabel (node : Node) : Prop where
  running : ∀ inner ∈ node.subtree, inner.kind.isRunning = true
  shows : node.ShowsText

/-- What holds of all nodes in a subtree holds of the node and of all nodes in the subtrees of its
children. -/
theorem forall_subtree_iff {holds : Node → Prop} (node : Node) :
    (∀ inner ∈ node.subtree, holds inner) ↔
      holds node ∧ ∀ child ∈ node.children, ∀ inner ∈ child.subtree, holds inner := by
  rw [Node.subtree_eq, List.forall_mem_cons, Node.inside, subtrees_eq_flatMap]
  simp only [List.mem_flatMap, forall_exists_index, and_imp]
  exact and_congr_right fun _ =>
    ⟨fun all child isChild inner within => all inner child isChild within,
      fun all inner child isChild within => all child isChild inner within⟩

/-- A text or a line break has no subtree but itself. -/
theorem subtree_of_isProper {node : Node} (proper : node.IsProper)
    (leaf : node.kind = .text ∨ node.kind = .lineBreak) : node.subtree = [node] := by
  rw [Node.subtree_eq, Node.inside, proper leaf]
  rfl

/-- Text shows in an element when it shows in one of its children. -/
theorem showsText_iff {node : Node} (notText : node.kind ≠ .text) :
    node.ShowsText ↔ ∃ child ∈ node.children, child.ShowsText := by
  simp only [Node.ShowsText]
  rw [Node.subtree_eq, Node.inside, subtrees_eq_flatMap]
  constructor
  · rintro ⟨text, member, isText, byte⟩
    rcases List.mem_cons.mp member with rfl | below
    · exact (notText isText).elim
    · obtain ⟨child, isChild, within⟩ := List.mem_flatMap.mp below
      exact ⟨child, isChild, text, within, isText, byte⟩
  · rintro ⟨child, isChild, text, within, shows⟩
    exact ⟨text, List.mem_cons_of_mem _ (List.mem_flatMap.mpr ⟨child, isChild, within⟩), shows⟩

end SlidePress.Source

namespace SlidePress.Slide

open Source (Node Kind)

theorem anyVisibleText_eq_any (nodes : List Node) :
    anyVisibleText nodes = nodes.any hasVisibleText := by
  induction nodes with
  | nil => rfl
  | cons node rest ih => rw [anyVisibleText, List.any_cons, ih]

theorem hasVisibleText_eq (node : Node) :
    hasVisibleText node =
      if node.kind == .text then !Text.isBlank node.text else node.children.any hasVisibleText := by
  rw [← anyVisibleText_eq_any]
  cases node
  rfl

theorem allTextOnly_eq_all (nodes : List Node) :
    allTextOnly nodes = nodes.all fun node =>
      node.kind == .text || node.kind == .lineBreak || isTextOnlyInline node := by
  induction nodes with
  | nil => rfl
  | cons node rest ih => rw [allTextOnly, List.all_cons, ih]

theorem isTextOnlyInline_eq (node : Node) :
    isTextOnlyInline node =
      (node.kind == .inline &&
        (node.children.all fun child =>
          child.kind == .text || child.kind == .lineBreak || isTextOnlyInline child) &&
        node.children.any hasVisibleText) := by
  rw [← anyVisibleText_eq_any, ← allTextOnly_eq_all]
  cases node
  rfl

theorem hasVisibleText_iff (node : Node) :
    (∀ inner ∈ node.subtree, inner.IsProper) → (hasVisibleText node = true ↔ node.ShowsText) := by
  induction node using Node.byChildren with
  | step node ih =>
      intro proper
      obtain ⟨own, below⟩ := (Source.forall_subtree_iff node).mp proper
      rw [hasVisibleText_eq]
      split
      · rename_i isText
        have leaf := Source.subtree_of_isProper own (.inl (beq_iff_eq.mp isText))
        simp [Node.ShowsText, leaf, beq_iff_eq.mp isText, Text.isBlank]
      · rename_i notText
        rw [Source.showsText_iff (by simpa using notText), List.any_eq_true]
        exact exists_congr fun child => and_congr_right fun isChild =>
          ih child isChild (below child isChild)

/-- Only running text in the subtree, and text that shows in every inline element of it. -/
def HoldsOnlyLabels (node : Node) : Prop :=
  ∀ inner ∈ node.subtree,
    inner.kind.isRunning = true ∧ (inner.kind = .inline → inner.ShowsText)

theorem isTextOnlyInline_iff (node : Node) : (∀ inner ∈ node.subtree, inner.IsProper) →
    (isTextOnlyInline node = true ↔ node.kind = .inline ∧ HoldsOnlyLabels node) := by
  induction node using Node.byChildren with
  | step node ih =>
      intro proper
      obtain ⟨own, below⟩ := (Source.forall_subtree_iff node).mp proper
      -- A child passes as a leaf or, by induction, as an inline element of the same sort.
      have each : ∀ child ∈ node.children,
          ((child.kind == .text || child.kind == .lineBreak || isTextOnlyInline child) = true ↔
            HoldsOnlyLabels child) := by
        intro child isChild
        rw [Bool.or_eq_true, Bool.or_eq_true, beq_iff_eq, beq_iff_eq,
          ih child isChild (below child isChild)]
        constructor
        · rintro (leaf | ⟨_, holds⟩)
          · have alone := Source.subtree_of_isProper
              ((Source.forall_subtree_iff child).mp (below child isChild)).1 leaf
            rw [HoldsOnlyLabels, alone, List.forall_mem_singleton]
            rcases leaf with kind | kind <;> simp [kind, Kind.isRunning]
          · exact holds
        · intro holds
          have running := ((Source.forall_subtree_iff child).mp holds).1.1
          cases kind : child.kind with
          | text => exact .inl (.inl rfl)
          | lineBreak => exact .inl (.inr rfl)
          | inline => exact .inr ⟨rfl, holds⟩
          | _ =>
              rw [kind] at running
              cases running
      have visible : ∀ child ∈ node.children, (hasVisibleText child = true ↔ child.ShowsText) :=
        fun child isChild => hasVisibleText_iff child (below child isChild)
      rw [isTextOnlyInline_eq, Bool.and_eq_true, Bool.and_eq_true, beq_iff_eq, List.all_eq_true,
        List.any_eq_true, and_assoc]
      refine and_congr_right fun isInline => ?_
      have shows : node.ShowsText ↔ ∃ child ∈ node.children, hasVisibleText child = true := by
        rw [Source.showsText_iff (by rw [isInline]; exact nofun)]
        exact exists_congr fun child => and_congr_right fun isChild => (visible child isChild).symm
      rw [HoldsOnlyLabels, Source.forall_subtree_iff, ← shows, and_comm]
      have running : node.kind.isRunning = true := by rw [isInline]; rfl
      exact and_congr ⟨fun some => ⟨running, fun _ => some⟩, fun both => both.2 isInline⟩
        (forall₂_congr each)

/-- An inline element is a block of text exactly when it holds nothing but running text, some of
which shows, and text shows in every inline element inside it too. -/
theorem isTextBearing_inline_iff {node : Node} (isInline : node.kind = .inline)
    (proper : ∀ inner ∈ node.subtree, inner.IsProper) :
    isTextBearing node = true ↔
      node.HoldsLabel ∧ ∀ inner ∈ node.inside, inner.kind = .inline → inner.ShowsText := by
  have bearing : isTextBearing node = isTextOnlyInline node := by rw [isTextBearing, isInline]
  rw [bearing, isTextOnlyInline_iff node proper]
  constructor
  · rintro ⟨_, holds⟩
    refine ⟨⟨fun inner within => (holds inner within).1, ?_⟩, fun inner inside => ?_⟩
    · exact (holds node (by rw [Node.subtree_eq]; exact List.mem_cons_self)).2 isInline
    · exact (holds inner (by rw [Node.subtree_eq]; exact List.mem_cons_of_mem _ inside)).2
  · rintro ⟨label, nested⟩
    refine ⟨isInline, fun inner within => ⟨label.running inner within, ?_⟩⟩
    rw [Node.subtree_eq] at within
    rcases List.mem_cons.mp within with rfl | inside
    · exact fun _ => label.shows
    · exact nested inner inside

section Samples

def emphasizedLabel : Node :=
  bareNode "span" []
    [bareText "to ", bareNode "br" [] [], bareNode "em" [] [bareText "be"]]

theorem isTextBearing_inline_iff_emphasizedLabel :
    emphasizedLabel.kind = .inline ∧ (∀ inner ∈ emphasizedLabel.subtree, inner.IsProper) ∧
      isTextBearing emphasizedLabel = true ∧ emphasizedLabel.HoldsLabel := by
  have isInline : emphasizedLabel.kind = .inline := by decide +kernel
  have proper : ∀ inner ∈ emphasizedLabel.subtree, inner.IsProper := by decide +kernel
  have bearing : isTextBearing emphasizedLabel = true := by decide +kernel
  exact ⟨isInline, proper, bearing, ((isTextBearing_inline_iff isInline proper).mp bearing).1⟩

/-- A label with an icon, which is an element without text. -/
def iconLabel : Node :=
  bareNode "span" [] [bareNode "i" [] [], bareText "Label"]

/-- Not every inline element that holds nothing but running text, some of which shows, is a block of
text: a label with an icon is none. -/
theorem not_isTextBearing_iconLabel :
    ¬ ∀ node : Node, node.kind = .inline → (∀ inner ∈ node.subtree, inner.IsProper) →
      (isTextBearing node = true ↔ node.HoldsLabel) := by
  intro all
  have isInline : iconLabel.kind = .inline := by decide +kernel
  have proper : ∀ inner ∈ iconLabel.subtree, inner.IsProper := by decide +kernel
  have label : iconLabel.HoldsLabel := by
    refine ⟨by decide +kernel, iconLabel.subtree.get ⟨2, by decide⟩, List.get_mem .., ?_⟩
    decide +kernel
  have bearing := (all iconLabel isInline proper).mpr label
  exact absurd bearing (by decide +kernel)

end Samples

end SlidePress.Slide
