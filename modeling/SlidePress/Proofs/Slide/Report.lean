import Mathlib.Data.List.SplitBy
import SlidePress.Conversion
import SlidePress.Proofs.Slide.Emission

/-! The report of a conversion that fails. A report is read off the tree and the primitives: the
size of the page, then the nodes whose style is lost, then what reaches past the slide, typed bullets
and names that are shared. A conversion fails when there is something to report, and it reports all
of it, rule by rule and in order. -/

namespace SlidePress.Slide

open Source (Node NodeRef Tree Kind Size Placed placedAll subtrees)
open Style

/-- An issue without its wording: what is wrong, and the nodes that are to blame. -/
structure Blame where
  kind : IssueKind
  nodes : List NodeRef

def Issue.blame (issue : Issue) : Blame := ⟨issue.kind, issue.nodes⟩

section Rules

variable (options : ConversionOptions)

def fitsCanvas (declared : Size) : Prop :=
  (declared.width - options.canvas.width).abs ≤ options.canvasTolerance ∧
    (declared.height - options.canvas.height).abs ≤ options.canvasTolerance

instance (declared : Size) : Decidable (fitsCanvas options declared) :=
  inferInstanceAs (Decidable (_ ∧ _))

def isTextElement (roles : List Role) (placed : Placed) : Bool :=
  placed.node.kind != .text && (roleOf roles placed.node == .textBlock || placed.inText roles)

/-- An element of text has style that only a shape can show. -/
def losesStyle (roles : List Role) (placed : Placed) : Bool :=
  isTextElement roles placed && !(shapeProperties placed.node).isEmpty

def losesGradient (roles : List Role) (placed : Placed) : Bool :=
  (roleOf roles placed.node == .shapeContainer || isTextElement roles placed) &&
    isGradient (placed.node.style.get "background-image")

def excesses (frame : Rect Number) : List Number :=
  [-frame.x, -frame.y, frame.right - options.canvas.width,
    frame.bottom - options.canvas.height].map (Number.max 0)

/-- Some side of the frame is past the slide by more than the tolerance, also when rounded. -/
def overflows (primitive : Primitive) : Bool :=
  (excesses options primitive.header.frame).any fun excess =>
    decide (options.overflowTolerance < excess) && roundOutput excess != 0

def Primitive.runs (primitive : Primitive) : List TextRun :=
  match primitive.body with
  | .text content => content.runs
  | _ => []

def brokenTexts (runs : List TextRun) : List Text :=
  (runs.splitBy fun _ next => !next.breakBefore).map fun paragraph => paragraph.flatMap (·.text)

def usersOf (primitives : List Primitive) (id : Text) : List NodeRef :=
  ((primitives.filter isPlaceholderPrimitive).filter (·.header.id == id)).map (·.header.source)

/-- The names of placeholders in the order of their first use. -/
def placeholderNames (primitives : List Primitive) : List Text :=
  ((primitives.filter isPlaceholderPrimitive).map (·.header.id)).eraseDups

def primitiveBlames (primitives : List Primitive) : List Blame :=
  (primitives.filter (overflows options)).map (fun primitive =>
      ⟨.overflow, [primitive.header.source]⟩) ++
    primitives.flatMap (fun primitive =>
      ((brokenTexts primitive.runs).filter startsWithBullet).map fun _ =>
        ⟨.manualBulletSymbol, [primitive.header.source]⟩) ++
    ((placeholderNames primitives).filter fun id => decide (2 ≤ (usersOf primitives id).length)).map
      fun id => ⟨.duplicatePlaceholderId, usersOf primitives id⟩

def report (root : Node) (declared : Size) : List Blame :=
  let roles := numberedRoles options.placeholderClass root declared
  let nodes := root.numbered.placed []
  (if fitsCanvas options declared then [] else [⟨.dimensionMismatch, [root.numbered.ref]⟩]) ++
    (nodes.filter (losesStyle roles)).map
      (fun placed => ⟨.styleOnTextElement, [placed.node.ref]⟩) ++
    (nodes.filter (losesGradient roles)).map
      (fun placed => ⟨.unsupportedGradient, [placed.node.ref]⟩) ++
    primitiveBlames options
      (mapNumbered options.placeholderClass options.excerptLimit root declared).primitives

end Rules

/-- The nodes that are blamed by the findings of one kind. -/
def blamed (kind : FindingKind) (findings : List Finding) : List NodeRef :=
  (findings.filter (·.kind == kind)).map (·.node)

theorem blamed_append (kind : FindingKind) (first second : List Finding) :
    blamed kind (first ++ second) = blamed kind first ++ blamed kind second := by
  rw [blamed, List.filter_append, List.map_append]
  rfl

theorem blamed_flatMap {α : Type} (kind : FindingKind) (items : List α) (each : α → List Finding) :
    blamed kind (items.flatMap each) = items.flatMap fun item => blamed kind (each item) := by
  induction items with
  | nil => rfl
  | cons item rest ih => rw [List.flatMap_cons, List.flatMap_cons, blamed_append, ih]

section Findings

variable (limit : Nat) (node : Node)

theorem blamed_styleFinding? :
    blamed .styleOnText (styleFinding? limit node).toList =
        (if !(shapeProperties node).isEmpty then [node.ref] else []) ∧
      blamed .gradient (styleFinding? limit node).toList = [] := by
  rw [styleFinding?]
  cases (shapeProperties node).isEmpty with
  | true => exact ⟨rfl, rfl⟩
  | false => exact ⟨rfl, rfl⟩

theorem blamed_gradientFinding? :
    blamed .styleOnText (gradientFinding? limit node).toList = [] ∧
      blamed .gradient (gradientFinding? limit node).toList =
        if isGradient (node.style.get "background-image") then [node.ref] else [] := by
  rw [gradientFinding?]
  cases isGradient (node.style.get "background-image") with
  | true => exact ⟨rfl, rfl⟩
  | false => exact ⟨rfl, rfl⟩

theorem blamed_elementFindings :
    blamed .styleOnText (elementFindings limit node) =
        (if node.kind != .text && !(shapeProperties node).isEmpty then [node.ref] else []) ∧
      blamed .gradient (elementFindings limit node) =
        if node.kind != .text && isGradient (node.style.get "background-image") then [node.ref]
        else [] := by
  obtain ⟨style, noGradient⟩ := blamed_styleFinding? limit node
  obtain ⟨noStyle, gradient⟩ := blamed_gradientFinding? limit node
  unfold elementFindings
  cases node.kind != .text with
  | false => exact ⟨rfl, rfl⟩
  | true =>
      simp only [if_true, Bool.true_and, blamed_append]
      rw [style, noStyle, noGradient, gradient]
      exact ⟨List.append_nil _, rfl⟩

end Findings

/-- The findings at a node blame it when its style is lost where it stands. -/
theorem blamed_pickAt {roles : List Role} (limit : Nat) {placed : Placed}
    (standing : Standing roles placed) :
    blamed .styleOnText (pickAt roles (pickFinding roles limit) placed) =
        (if losesStyle roles placed then [placed.node.ref] else []) ∧
      blamed .gradient (pickAt roles (pickFinding roles limit) placed) =
        if losesGradient roles placed then [placed.node.ref] else [] := by
  cases standing with
  | free around _ =>
      obtain ⟨notInText, notShut⟩ := free_flags around
      rw [pickAt, notShut, losesStyle, losesGradient, isTextElement, notInText, pickFinding]
      cases roleOf roles placed.node with
      | textBlock => simpa using blamed_elementFindings limit placed.node
      | shapeContainer => simpa using blamed_gradientFinding? limit placed.node
      | image => simp [blamed]
      | placeholder => simp [blamed]
      | ignorable => simp [blamed]
      | inline => simp [blamed]
  | inBlock role inner block outer path isBlock between around =>
      obtain ⟨inText, notShut⟩ := block_flags path isBlock between around
      rw [pickAt, notShut, losesStyle, losesGradient, isTextElement, inText, pickFinding, role]
      simpa using blamed_elementFindings limit placed.node
  | inClosed role inner closed outer path isClosed between around =>
      obtain ⟨notInText, shut⟩ := closed_flags path isClosed between around
      rw [pickAt, shut, losesStyle, losesGradient, isTextElement, notInText, role]
      simp [blamed]

theorem filterMap_eq_map_filter {α β : Type} {choose : α → Option β} {keep : α → Bool} {make : α → β}
    (same : ∀ item, choose item = if keep item then some (make item) else none) (items : List α) :
    items.filterMap choose = (items.filter keep).map make := by
  induction items with
  | nil => rfl
  | cons item rest ih =>
      rw [List.filterMap_cons, List.filter_cons, same, ih]
      cases keep item with
      | true => rfl
      | false => rfl

section Issues

variable (options : ConversionOptions) (primitives : List Primitive)

/-- What a conversion asks of a slide. -/
def validationOf : ValidationOptions :=
  { canvas := options.canvas
    canvasTolerance := options.canvasTolerance
    overflowTolerance := options.overflowTolerance
    excerptLimit := options.excerptLimit }

theorem blame_findingIssues (findings : List Finding) (kind : FindingKind) :
    (findingIssues findings kind).map Issue.blame =
      (blamed kind findings).map fun node => ⟨issueKindOf kind, [node]⟩ := by
  rw [findingIssues, blamed, List.map_map, List.map_map]
  rfl

theorem zero_beq_zero : ((0 : Number) == 0) = true := by decide +kernel

theorem isNone_overageOf (primitive : Primitive) :
    (overageOf (validationOf options) primitive.header.frame).isNone =
      !overflows options primitive := by
  have side : ∀ excess : Number,
      ((if (validationOf options).overflowTolerance < excess then roundOutput excess else 0) == 0) =
        !(decide (options.overflowTolerance < excess) && roundOutput excess != 0) := by
    intro excess
    change ((if options.overflowTolerance < excess then roundOutput excess else 0) == 0) = _
    by_cases beyond : options.overflowTolerance < excess
    · simp [beyond, bne]
    · simp [beyond, zero_beq_zero]
  simp only [Overage.isNone, Overage.sides, overageOf, overflows, excesses, List.all_cons,
    List.all_nil, List.map_cons, List.map_nil, List.any_cons, List.any_nil, side, Bool.not_or,
    Bool.not_false]
  rfl

theorem blame_overflowIssues :
    (primitives.filterMap (overflowIssue? (validationOf options))).map Issue.blame =
      (primitives.filter (overflows options)).map fun primitive =>
        ⟨.overflow, [primitive.header.source]⟩ := by
  rw [List.map_filterMap]
  apply filterMap_eq_map_filter
  intro primitive
  rw [overflowIssue?, isNone_overageOf]
  cases overflows options primitive with
  | true => rfl
  | false => rfl

section Groups

variable {α : Type} {joined : α → α → Bool} {first next : α} {rest : List α}

theorem splitBy_cons_apart (apart : joined first next = false) :
    (first :: next :: rest).splitBy joined = [first] :: (next :: rest).splitBy joined := by
  apply List.splitBy_append_cons (l := [first])
  intro last isLast
  cases isLast
  exact apart

theorem splitBy_cons_joined {group : List α} {others : List (List α)}
    (together : joined first next = true)
    (groups : (next :: rest).splitBy joined = group :: others) :
    (first :: next :: rest).splitBy joined = (first :: group) :: others := by
  obtain ⟨whole, nonempty, chains, breaks⟩ := List.splitBy_eq_iff.mp groups
  -- The groups of a list are known from four properties, and prefixing the first group keeps them.
  cases group with
  | nil => exact (nonempty List.mem_cons_self).elim
  | cons head tail =>
      cases (List.cons.inj whole).1
      rw [List.splitBy_eq_iff]
      refine ⟨congrArg (first :: ·) whole, ?_, ?_, ?_⟩
      · intro member
        rcases List.mem_cons.mp member with same | later
        · cases same
        · exact nonempty (List.mem_cons_of_mem _ later)
      · intro piece member
        rcases List.mem_cons.mp member with rfl | later
        · exact List.isChain_cons_cons.mpr ⟨together, chains _ List.mem_cons_self⟩
        · exact chains piece (List.mem_cons_of_mem _ later)
      · cases others with
        | nil => exact List.isChain_singleton _
        | cons following more =>
            obtain ⟨⟨_, notEmpty, apart⟩, later⟩ := List.isChain_cons_cons.mp breaks
            refine List.isChain_cons_cons.mpr ⟨⟨List.cons_ne_nil _ _, notEmpty, ?_⟩, later⟩
            rw [List.getLast_cons_cons]
            exact apart

end Groups

/-- Paragraphs are the texts between the breaks. -/
theorem paragraphs_eq (runs : List TextRun) : paragraphs runs = brokenTexts runs := by
  induction runs with
  | nil => rfl
  | cons first rest ih =>
      cases rest with
      | nil => 
          change [first.text] = [[first].flatMap (·.text)]
          rw [List.flatMap_singleton]
      | cons next later =>
          cases groups : (next :: later).splitBy fun _ run => !run.breakBefore with
          | nil => cases List.splitBy_eq_nil.mp groups
          | cons group others =>
              rw [brokenTexts, groups, List.map_cons] at ih
              rw [brokenTexts, paragraphs.eq_2 first next later _ _ ih]
              cases breaks : next.breakBefore with
              | true =>
                  rw [splitBy_cons_apart (by rw [breaks]; rfl), groups]
                  simp
              | false =>
                  rw [splitBy_cons_joined (by rw [breaks]; rfl) groups]
                  simp

theorem blame_bulletIssues (primitive : Primitive) :
    (bulletIssues (validationOf options) primitive).map Issue.blame =
      ((brokenTexts primitive.runs).filter startsWithBullet).map fun _ =>
        ⟨.manualBulletSymbol, [primitive.header.source]⟩ := by
  rw [← paragraphs_eq]
  obtain ⟨header, body⟩ := primitive
  cases body with
  | text content =>
      change (((paragraphs content.runs).filter startsWithBullet).map _).map Issue.blame = _
      rw [List.map_map]
      rfl
  | shape style => rfl
  | image source fitted => rfl
  | placeholder => rfl

theorem distinct_filter (keep : Text → Bool) (names : List Text) :
    distinct (names.filter keep) = (distinct names).filter keep := by
  induction names with
  | nil => rfl
  | cons name rest ih =>
      rw [distinct, List.filter_cons, List.filter_cons, List.filter_filter]
      cases kept : keep name with
      | true =>
          rw [if_pos rfl, if_pos rfl, distinct, ih, List.filter_filter]
          congr 2
          funext other
          exact Bool.and_comm _ _
      | false =>
          rw [if_neg Bool.false_ne_true, if_neg Bool.false_ne_true, ih]
          apply List.filter_congr
          intro other _
          cases keeps : keep other with
          | false => rfl
          | true =>
              have differs : other ≠ name := by
                rintro rfl
                cases kept.symm.trans keeps
              simp [differs]

/-- Taking each name once leaves the first uses. -/
theorem distinct_eq_eraseDups (names : List Text) : distinct names = names.eraseDups := by
  match names with
  | [] => rfl
  | name :: rest =>
      rw [List.eraseDups_cons, ← distinct_eq_eraseDups, distinct_filter]
      rfl
termination_by names.length
decreasing_by
  have shorter := List.length_filter_le (fun other => !other == name) rest
  simp only [List.length_cons]
  omega

theorem blame_duplicateIssues :
    (duplicateIssues primitives).map Issue.blame =
      ((placeholderNames primitives).filter fun id =>
        decide (2 ≤ (usersOf primitives id).length)).map
          fun id => ⟨.duplicatePlaceholderId, usersOf primitives id⟩ := by
  have users : ∀ id, ((((primitives.filter isPlaceholderPrimitive).map (·.header)).filter
      (·.id == id)).map (·.source)) = usersOf primitives id := by
    intro id
    rw [usersOf, List.filter_map, List.map_map]
    rfl
  have names : distinct (((primitives.filter isPlaceholderPrimitive).map (·.header)).map (·.id)) =
      placeholderNames primitives := by
    rw [distinct_eq_eraseDups, List.map_map]
    rfl
  rw [duplicateIssues]
  dsimp only
  rw [names, List.map_filterMap]
  apply filterMap_eq_map_filter
  intro id
  rw [users]
  by_cases few : (usersOf primitives id).length < 2
  · rw [if_pos few, decide_eq_false (Nat.not_le.mpr few)]
    rfl
  · rw [if_neg few, decide_eq_true (Nat.not_lt.mp few)]
    rfl

end Issues

theorem outcome_convertTree (options : ConversionOptions) (tree : Tree) :
    (convertTree options tree).1 =
      let mapped := mapDocument (classify options.placeholderClass tree) options.excerptLimit tree
      assemble mapped.primitives
        (validate (validationOf options) tree mapped.primitives mapped.findings) options.canvas
        mapped.background := by
  unfold convertTree runPipeline
  dsimp only
  split
  · rename_i deck same
    exact same.symm
  · rename_i issues same
    exact same.symm

theorem assemble_eq_rejected {primitives : List Primitive} {issues found : List Issue} {canvas : Size}
    {background : Option Color} :
    assemble primitives issues canvas background = .rejected found ↔ issues ≠ [] ∧ found = issues := by
  cases issues with
  | nil =>
      constructor
      · intro rejected
        cases rejected
      · intro rejected
        exact (rejected.1 rfl).elim
  | cons issue rest =>
      constructor
      · intro rejected
        cases rejected
        exact ⟨List.cons_ne_nil _ _, rfl⟩
      · rintro ⟨_, rfl⟩
        rfl

section Reports

variable (options : ConversionOptions) (root : Node) (declared : Size)

/-- The root by itself is to blame for nothing but the size. -/
theorem filter_placed_root (loses : Placed → Bool)
    (blameless : loses ⟨[], root.numbered⟩ = false) :
    (root.numbered.placed []).filter loses = root.numbered.descendants.filter loses := by
  rw [Node.placed_eq, List.filter_cons, blameless]
  rfl

theorem root_blameless (placeholderClass : Text) :
    losesStyle (numberedRoles placeholderClass root declared) ⟨[], root.numbered⟩ = false ∧
      losesGradient (numberedRoles placeholderClass root declared) ⟨[], root.numbered⟩ = false := by
  have role := (classified_children placeholderClass root declared).1
  rw [losesStyle, losesGradient, isTextElement, role]
  simp [Placed.inText]

theorem blamed_mapDocument (placeholderClass : Text) (limit : Nat) :
    blamed .styleOnText (mapNumbered placeholderClass limit root declared).findings =
        ((root.numbered.placed []).filter
          (losesStyle (numberedRoles placeholderClass root declared))).map (·.node.ref) ∧
      blamed .gradient (mapNumbered placeholderClass limit root declared).findings =
        ((root.numbered.placed []).filter
          (losesGradient (numberedRoles placeholderClass root declared))).map (·.node.ref) := by
  obtain ⟨noStyle, noGradient⟩ := root_blameless root declared placeholderClass
  have each : ∀ placed ∈ root.numbered.descendants, _ := fun placed member =>
    blamed_pickAt limit (standing_descendants placeholderClass root declared placed member)
  rw [(yields_mapDocument placeholderClass limit root declared).2.1, blamed_flatMap, blamed_flatMap,
    filter_placed_root root _ noStyle, filter_placed_root root _ noGradient,
    ← flatMap_ite_singleton, ← flatMap_ite_singleton]
  constructor
  · exact List.flatMap_congr fun placed member => (each placed member).1
  · exact List.flatMap_congr fun placed member => (each placed member).2

/-- The issues of a numbered tree, without their wording, are its report. -/
theorem blame_validate :
    let mapped := mapNumbered options.placeholderClass options.excerptLimit root declared
    (validate (validationOf options) (Tree.numbered ⟨some root, declared⟩) mapped.primitives
      mapped.findings).map Issue.blame = report options root declared := by
  intro mapped
  obtain ⟨style, gradient⟩ :=
    blamed_mapDocument root declared options.placeholderClass options.excerptLimit
  have size :
      (dimensionIssues (validationOf options) (Tree.numbered ⟨some root, declared⟩)).map Issue.blame =
        if fitsCanvas options declared then [] else [⟨.dimensionMismatch, [root.numbered.ref]⟩] := by
    have agree : sizesAgree options.canvasTolerance declared options.canvas =
        decide (fitsCanvas options declared) := by
      rw [sizesAgree, ← Bool.decide_and]
      rfl
    change (if sizesAgree options.canvasTolerance declared options.canvas then [] else _).map _ = _
    rw [agree]
    by_cases fits : fitsCanvas options declared
    · simp [fits]
    · simp [fits]
      rfl
  rw [validate]
  simp only [List.map_append, List.map_flatMap]
  rw [size, blame_findingIssues, blame_findingIssues, style, gradient, blame_overflowIssues,
    blame_duplicateIssues]
  simp only [blame_bulletIssues, List.map_map, report, primitiveBlames, List.append_assoc]
  rfl

/-- A conversion fails exactly when there is something to report, and it reports all of it in
order. -/
theorem rejected_iff_report :
    ((∃ issues, (convertTree options (Tree.numbered ⟨some root, declared⟩)).1 = .rejected issues) ↔
        report options root declared ≠ []) ∧
      ∀ issues, (convertTree options (Tree.numbered ⟨some root, declared⟩)).1 = .rejected issues →
        issues.map Issue.blame = report options root declared := by
  have complete := blame_validate options root declared
  rw [outcome_convertTree]
  simp only [assemble_eq_rejected]
  constructor
  · constructor
    · rintro ⟨issues, some, _⟩ nothing
      exact some (List.map_eq_nil_iff.mp (complete.trans nothing))
    · intro some
      refine ⟨_, ?_, rfl⟩
      intro none
      apply some
      rw [← complete]
      exact congrArg (List.map Issue.blame) none
  · rintro issues ⟨_, rfl⟩
    exact complete

end Reports

end SlidePress.Slide
