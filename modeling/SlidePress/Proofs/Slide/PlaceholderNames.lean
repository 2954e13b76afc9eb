import Mathlib.Data.List.Perm.Subperm
import SlidePress.Proofs.Slide.Names

/-! How placeholders get their names. A placeholder keeps the name that the document gives it. For
one without a name numbers are counted up until one makes a name that no placeholder of the document
has; the count goes on from one placeholder to the next. The count always comes to an end, no
numbered name is given twice, and none is the name of another placeholder. So a name that is
reported as shared was given by the document each time. All of this holds whatever roles the nodes have. -/

namespace SlidePress.Slide

open Source (Node NodeRef Tree Size)

/-! ## The search for a free number -/

/-- Counting up from a number comes to a stop at the first number whose name is not taken. -/
inductive CountsTo (taken : List Text) : Nat → Nat → Prop where
  | free {above : Nat} (isFree : numberedId "placeholder" (above + 1) ∉ taken) :
      CountsTo taken above (above + 1)
  | next {above number : Nat} (isTaken : numberedId "placeholder" (above + 1) ∈ taken)
      (more : CountsTo taken (above + 1) number) : CountsTo taken above number

namespace CountsTo

variable {taken : List Text} {above number : Nat}

theorem free_of (counts : CountsTo taken above number) :
    above < number ∧ numberedId "placeholder" number ∉ taken := by
  induction counts with
  | free isFree => exact ⟨Nat.lt_succ_self _, isFree⟩
  | next _ _ ih => exact ⟨Nat.lt_of_succ_lt ih.1, ih.2⟩

/-- The count stops where all names before it are taken. -/
theorem of_least {steps : Nat}
    (isTaken : ∀ step < steps, numberedId "placeholder" (above + 1 + step) ∈ taken)
    (isFree : numberedId "placeholder" (above + 1 + steps) ∉ taken) :
    CountsTo taken above (above + 1 + steps) := by
  induction steps generalizing above with
  | zero => exact .free isFree
  | succ steps ih =>
      have shift : ∀ step, above + 1 + (step + 1) = above + 1 + 1 + step := by omega
      refine .next (isTaken 0 (Nat.succ_pos steps)) ?_
      rw [shift] at isFree ⊢
      refine ih (fun step below => ?_) isFree
      rw [← shift]
      exact isTaken (step + 1) (Nat.succ_lt_succ below)

end CountsTo

/-- Of more numbers than there are taken names one has a free name. -/
theorem exists_free (taken : List Text) (above : Nat) :
    ∃ step < taken.length + 1, numberedId "placeholder" (above + 1 + step) ∉ taken := by
  by_contra none
  push Not at none
  let candidates := (List.range (taken.length + 1)).map fun step =>
    numberedId "placeholder" (above + 1 + step)
  have distinct : candidates.Nodup := by
    refine List.nodup_range.map fun first second same => ?_
    exact Nat.add_left_cancel (numberedId_inj same).2
  have all : candidates ⊆ taken := by
    intro name member
    obtain ⟨step, inRange, rfl⟩ := List.mem_map.mp member
    exact none step (List.mem_range.mp inRange)
  have fits := (distinct.subperm all).length_le
  rw [List.length_map, List.length_range] at fits
  exact Nat.not_succ_le_self _ fits

/-- The number that is given is the one at which the count stops. -/
theorem countsTo_freePlaceholder (taken : List Text) (above : Nat) :
    CountsTo taken above (freePlaceholder taken above) := by
  obtain ⟨step, inRange, isFree⟩ := exists_free taken above
  rw [freePlaceholder, List.find?_map]
  cases found : (List.range (taken.length + 1)).find?
      ((fun number => !taken.contains (numberedId "placeholder" number)) ∘ (above + 1 + ·)) with
  | none =>
      have missed := List.find?_eq_none.mp found step (List.mem_range.mpr inRange)
      simp [isFree] at missed
  | some least =>
      obtain ⟨passes, -, before⟩ := List.find?_range_eq_some.mp found
      refine CountsTo.of_least (fun other below => ?_) (by simpa using passes)
      simpa using before other below

/-! ## Names in turn -/

theorem numberedId_ne_nil (stem : Text) (number : Nat) : numberedId stem number ≠ [] := by
  rw [numberedId_eq]
  exact List.append_ne_nil_of_right_ne_nil _ (List.cons_ne_nil _ _)

/-- Placeholders get their names one after another: their own, or one with the next free number. -/
inductive NamedInTurn (taken : List Text) : Nat → List Node → List Text → Prop where
  | nil {above : Nat} : NamedInTurn taken above [] []
  | own {above : Nat} {node : Node} {nodes : List Node} {names : List Text}
      (given : placeholderId node ≠ []) (more : NamedInTurn taken above nodes names) :
      NamedInTurn taken above (node :: nodes) (placeholderId node :: names)
  | numbered {above number : Nat} {node : Node} {nodes : List Node} {names : List Text}
      (nameless : placeholderId node = []) (counts : CountsTo taken above number)
      (more : NamedInTurn taken number nodes names) :
      NamedInTurn taken above (node :: nodes) (numberedId "placeholder" number :: names)

def generatedNames (nodes : List Node) (names : List Text) : List Text :=
  ((nodes.zip names).filter fun pair => (placeholderId pair.1).isEmpty).map (·.2)

theorem generatedNames_own {node : Node} (given : placeholderId node ≠ []) (nodes : List Node)
    (name : Text) (names : List Text) :
    generatedNames (node :: nodes) (name :: names) = generatedNames nodes names := by
  rw [generatedNames, List.zip_cons_cons, List.filter_cons_of_neg (by simpa using given)]
  rfl

theorem generatedNames_numbered {node : Node} (nameless : placeholderId node = [])
    (nodes : List Node) (name : Text) (names : List Text) :
    generatedNames (node :: nodes) (name :: names) = name :: generatedNames nodes names := by
  rw [generatedNames, List.zip_cons_cons, List.filter_cons_of_pos (by simpa using nameless)]
  rfl

namespace NamedInTurn

variable {taken : List Text} {above : Nat} {nodes : List Node} {names : List Text}

/-- A name is given for a number above all numbers so far, and it is free. -/
theorem of_generated (named : NamedInTurn taken above nodes names) :
    ∀ name ∈ generatedNames nodes names,
      (∃ number, above < number ∧ name = numberedId "placeholder" number) ∧ name ∉ taken := by
  induction named with
  | nil => exact nofun
  | own given more ih =>
      rw [generatedNames_own given]
      exact ih
  | numbered nameless counts more ih =>
      rw [generatedNames_numbered nameless]
      intro name member
      rcases List.mem_cons.mp member with rfl | later
      · exact ⟨⟨_, counts.free_of.1, rfl⟩, counts.free_of.2⟩
      · obtain ⟨⟨number, higher, same⟩, isFree⟩ := ih name later
        exact ⟨⟨number, Nat.lt_trans counts.free_of.1 higher, same⟩, isFree⟩

theorem nodup_generated (named : NamedInTurn taken above nodes names) :
    (generatedNames nodes names).Nodup := by
  induction named with
  | nil => exact List.nodup_nil
  | own given more ih => rwa [generatedNames_own given]
  | numbered nameless counts more ih =>
      rw [generatedNames_numbered nameless]
      refine List.nodup_cons.mpr ⟨fun member => ?_, ih⟩
      obtain ⟨⟨number, higher, same⟩, -⟩ := more.of_generated _ member
      exact Nat.lt_irrefl _ ((numberedId_inj same).2 ▸ higher)

theorem ne_nil_of_generated (named : NamedInTurn taken above nodes names) :
    ∀ name ∈ generatedNames nodes names, name ≠ [] := by
  intro name generated
  obtain ⟨⟨number, -, rfl⟩, -⟩ := named.of_generated name generated
  exact numberedId_ne_nil _ number

theorem ne_nil_of_mem (named : NamedInTurn taken above nodes names) :
    ∀ name ∈ names, name ≠ [] := by
  induction named with
  | nil => exact nofun
  | own given more ih => exact List.forall_mem_cons.mpr ⟨given, ih⟩
  | numbered nameless counts more ih =>
      exact List.forall_mem_cons.mpr ⟨numberedId_ne_nil _ _, ih⟩

/-- A name is the own name of some nodes and generated for others. -/
theorem count_eq (named : NamedInTurn taken above nodes names) {name : Text} (nonempty : name ≠ []) :
    names.count name =
      nodes.countP (placeholderId · == name) + (generatedNames nodes names).count name := by
  induction named with
  | nil => rfl
  | own given more ih =>
      rw [generatedNames_own given, List.count_cons, List.countP_cons, ih]
      omega
  | @numbered _ _ node _ _ nameless counts more ih =>
      have other : ¬ (placeholderId node == name) = true := by
        rw [beq_iff_eq, nameless]
        exact nonempty.symm
      rw [generatedNames_numbered nameless, List.count_cons, List.countP_cons, if_neg other,
        List.count_cons, ih]
      omega

/-- Where the own names of all nodes are taken, a name that comes twice was not generated. -/
theorem not_mem_generated (named : NamedInTurn taken above nodes names)
    (own : ∀ node ∈ nodes, placeholderId node ≠ [] → placeholderId node ∈ taken) {name : Text}
    (nonempty : name ≠ []) (shared : 2 ≤ names.count name) : name ∉ generatedNames nodes names := by
  intro generated
  have unowned : nodes.countP (placeholderId · == name) = 0 := by
    rw [List.countP_eq_zero]
    intro node member same
    rw [beq_iff_eq] at same
    exact (named.of_generated name generated).2 (same ▸ own node member (same ▸ nonempty))
  have once := List.nodup_iff_count_le_one.mp named.nodup_generated name
  rw [named.count_eq nonempty, unowned] at shared
  omega

theorem ids_eq (named : NamedInTurn taken above nodes names) :
    (List.zipWith headerOf nodes names).map (·.id) = names := by
  induction named with
  | nil => rfl
  | own given more ih => rw [List.zipWith_cons_cons, List.map_cons, ih]; rfl
  | numbered nameless counts more ih => rw [List.zipWith_cons_cons, List.map_cons, ih]; rfl

/-- The nodes under a name that was not generated are those that have it for their own. -/
theorem users_eq (named : NamedInTurn taken above nodes names) {name : Text} (nonempty : name ≠ [])
    (given : name ∉ generatedNames nodes names) :
    ((List.zipWith headerOf nodes names).filter (·.id == name)).map (·.source) =
      (nodes.filter (placeholderId · == name)).map (·.ref) := by
  induction named with
  | nil => rfl
  | @own _ node _ _ own more ih =>
      rw [generatedNames_own own] at given
      have sameId : (headerOf node (placeholderId node)).id = placeholderId node := rfl
      rw [List.zipWith_cons_cons, List.filter_cons, List.filter_cons, sameId]
      split
      · rw [List.map_cons, List.map_cons, ih given]
        rfl
      · exact ih given
  | @numbered _ _ node _ _ nameless counts more ih =>
      rw [generatedNames_numbered nameless, List.mem_cons, not_or] at given
      have other : ¬ (placeholderId node == name) = true := by
        rw [beq_iff_eq, nameless]
        exact nonempty.symm
      rw [List.zipWith_cons_cons, List.filter_cons, List.filter_cons, if_neg other,
        if_neg (by simpa [headerOf] using Ne.symm given.1)]
      exact ih given.2

end NamedInTurn

/-! ## The placeholders of a mapping -/

def placeholderHeaders (primitives : List Primitive) : List Header :=
  (primitives.filter isPlaceholderPrimitive).map (·.header)

theorem placeholderHeaders_reverse (primitives : List Primitive) :
    placeholderHeaders primitives.reverse = (placeholderHeaders primitives).reverse := by
  rw [placeholderHeaders, List.filter_reverse, List.map_reverse]
  rfl

namespace Mapping

/-- Nothing is done to placeholders. -/
structure KeepsPlaceholders (before after : Mapping) : Prop where
  headers : placeholderHeaders after.primitives = placeholderHeaders before.primitives
  count : after.placeholders = before.placeholders

namespace KeepsPlaceholders

variable {before between after : Mapping}

theorem refl (mapping : Mapping) : KeepsPlaceholders mapping mapping := ⟨rfl, rfl⟩

theorem trans (first : KeepsPlaceholders before between) (second : KeepsPlaceholders between after) :
    KeepsPlaceholders before after :=
  ⟨second.headers.trans first.headers, second.count.trans first.count⟩

theorem foldl {β : Type} {step : Mapping → β → Mapping}
    (each : ∀ mapping item, KeepsPlaceholders mapping (step mapping item)) (items : List β)
    (mapping : Mapping) : KeepsPlaceholders mapping (items.foldl step mapping) := by
  induction items generalizing mapping with
  | nil => exact refl mapping
  | cons item rest ih => exact (each mapping item).trans (ih _)

variable (mapping : Mapping) (node : Node)

theorem emitImage : KeepsPlaceholders mapping (mapping.emitImage node) := ⟨rfl, rfl⟩

theorem addText (limit : Nat) : KeepsPlaceholders mapping (mapping.addText limit node) := by
  rw [Mapping.addText]
  refine .trans ?_ (foldl emitImage _ _)
  dsimp only
  split
  · exact ⟨rfl, rfl⟩
  · exact ⟨rfl, rfl⟩

theorem addShape (limit : Nat) : KeepsPlaceholders mapping (mapping.addShape limit node) := by
  have degrade : ∀ (mapping : Mapping) (what : Text), KeepsPlaceholders mapping
      (mapping.degrade (what ++ " on <" ++ node.tag ++ "> at " ++ node.path)) :=
    fun mapping what => ⟨rfl, rfl⟩
  obtain ⟨headers, count⟩ := foldl degrade (droppedStyle node)
    (mapping.note (gradientFinding? limit node).toList)
  exact ⟨headers, count⟩

theorem addIgnorable (limit : Nat) : KeepsPlaceholders mapping (mapping.addIgnorable limit node) := by
  rw [Mapping.addIgnorable]
  dsimp only
  split
  · split
    · exact refl mapping
    · exact ⟨rfl, rfl⟩
  · exact refl mapping

theorem add {context : MappingContext} (other : roleOf context.roles node ≠ .placeholder) :
    KeepsPlaceholders mapping (mapping.add context node) := by
  rw [Mapping.add]
  cases role : roleOf context.roles node with
  | textBlock => exact addText mapping node context.excerptLimit
  | shapeContainer => exact addShape mapping node context.excerptLimit
  | image => exact emitImage mapping node
  | placeholder => exact absurd role other
  | ignorable => exact addIgnorable mapping node context.excerptLimit
  | inline => exact refl mapping

end KeepsPlaceholders

theorem addPlaceholder_own {node : Node} (given : placeholderId node ≠ []) (taken : List Text)
    (mapping : Mapping) :
    mapping.addPlaceholder taken node =
      mapping.emit ⟨headerOf node (placeholderId node), .placeholder⟩ := by
  rw [addPlaceholder]
  exact if_neg (by simpa using given)

theorem addPlaceholder_nameless {node : Node} (nameless : placeholderId node = [])
    (taken : List Text) (mapping : Mapping) :
    mapping.addPlaceholder taken node =
      let number := freePlaceholder taken mapping.placeholders
      { mapping with placeholders := number }.emit
        ⟨headerOf node (numberedId "placeholder" number), .placeholder⟩ := by
  rw [addPlaceholder]
  exact if_pos (by simpa using nameless)

/-- The run: the placeholders among the nodes are added under names that are given in turn. -/
theorem foldl_add_named (context : MappingContext) (nodes : List Node) (mapping : Mapping) :
    ∃ names, NamedInTurn context.authorIds mapping.placeholders
        (nodes.filter (roleOf context.roles · == .placeholder)) names ∧
      placeholderHeaders (nodes.foldl (Mapping.add context) mapping).primitives =
        (List.zipWith headerOf (nodes.filter (roleOf context.roles · == .placeholder)) names).reverse ++
          placeholderHeaders mapping.primitives := by
  induction nodes generalizing mapping with
  | nil => exact ⟨[], .nil, rfl⟩
  | cons node rest ih =>
      obtain ⟨names, named, headers⟩ := ih (mapping.add context node)
      by_cases role : roleOf context.roles node = .placeholder
      · rw [List.filter_cons_of_pos (by simpa using role), List.foldl_cons]
        have step : mapping.add context node = mapping.addPlaceholder context.authorIds node := by
          rw [Mapping.add, role]
        rw [step] at named headers ⊢
        by_cases nameless : placeholderId node = []
        · rw [addPlaceholder_nameless nameless] at named headers ⊢
          refine ⟨_ :: names, .numbered nameless (countsTo_freePlaceholder _ _) named, ?_⟩
          rw [headers, List.zipWith_cons_cons, List.reverse_cons, List.append_assoc]
          rfl
        · rw [addPlaceholder_own nameless] at named headers ⊢
          refine ⟨_ :: names, .own nameless named, ?_⟩
          rw [headers, List.zipWith_cons_cons, List.reverse_cons, List.append_assoc]
          rfl
      · obtain ⟨sameHeaders, sameCount⟩ := KeepsPlaceholders.add mapping node role
        rw [List.filter_cons_of_neg (by simpa using role), List.foldl_cons]
        rw [sameHeaders] at headers
        rw [sameCount] at named
        exact ⟨names, named, headers⟩

end Mapping

/-! ## The placeholders of a document -/

def treePlaceholders (roles : List Role) (tree : Tree) : List Node :=
  (tree.root.toList.flatMap (·.subtree)).filter (roleOf roles · == .placeholder)

def metPlaceholders (roles : List Role) (tree : Tree) : List Node :=
  (tree.root.toList.flatMap fun root => visitedAll roles root.children).filter
    (roleOf roles · == .placeholder)

theorem metPlaceholders_sublist (roles : List Role) (tree : Tree) :
    (metPlaceholders roles tree).Sublist (treePlaceholders roles tree) := by
  refine (List.Sublist.flatMap_right _ fun root _ => ?_).filter _
  rw [Node.subtree_eq, Node.inside, Source.subtrees_eq_flatMap, visitedAll_eq_flatMap]
  exact (List.Sublist.flatMap_right _ fun child _ => visited_sublist_subtree child).cons root

theorem mem_documentNames {roles : List Role} {tree : Tree} {node : Node}
    (member : node ∈ treePlaceholders roles tree) (given : placeholderId node ≠ []) :
    placeholderId node ∈ documentNames roles tree := by
  obtain ⟨inTree, role⟩ := List.mem_filter.mp member
  obtain ⟨root, isRoot, below⟩ := List.mem_flatMap.mp inTree
  exact List.mem_flatMap.mpr ⟨root, isRoot, mem_authorIds below (beq_iff_eq.mp role) given⟩

/-- The placeholders of a mapped tree have names that were given in turn. -/
theorem named_mapDocument (roles : List Role) (limit : Nat) (tree : Tree) :
    ∃ names, NamedInTurn (documentNames roles tree) 0 (metPlaceholders roles tree) names ∧
      placeholderHeaders (mapDocument roles limit tree).primitives =
        List.zipWith headerOf (metPlaceholders roles tree) names := by
  obtain ⟨_ | root, declared⟩ := tree
  · exact ⟨[], .nil, rfl⟩
  · let context : MappingContext := ⟨roles, authorIds roles root, limit⟩
    have single : ∀ {β : Type} (f : Node → List β), (some root).toList.flatMap f = f root :=
      fun f => List.flatMap_singleton f root
    obtain ⟨names, named, headers⟩ :=
      Mapping.foldl_add_named context (visitedAll roles root.children) {}
    rw [← Mapping.visitAll_eq_foldl fun node _ => Mapping.visit_eq_foldl node] at headers
    refine ⟨names, ?_, ?_⟩
    · rw [documentNames, metPlaceholders, single, single]
      exact named
    · rw [metPlaceholders, single]
      refine (placeholderHeaders_reverse _).trans ?_
      rw [headers, List.reverse_append, List.reverse_reverse]
      rfl

/-- Among the issues of a slide the shared names come from one rule. -/
theorem mem_duplicateIssues {options : ValidationOptions} {tree : Tree}
    {primitives : List Primitive} {findings : List Finding} {issue : Issue}
    (member : issue ∈ validate options tree primitives findings)
    (kind : issue.kind = .duplicatePlaceholderId) : issue ∈ duplicateIssues primitives := by
  have notFinding : ∀ found, issue ∉ findingIssues findings found := by
    intro found isFinding
    obtain ⟨finding, -, rfl⟩ := List.mem_map.mp isFinding
    cases found <;> cases kind
  simp only [validate, List.mem_append, or_assoc] at member
  rcases member with size | style | gradient | overflow | bullet | shared
  · rw [dimensionIssues] at size
    split at size
    · cases size
    · rw [List.mem_singleton.mp size] at kind
      cases kind
  · exact absurd style (notFinding _)
  · exact absurd gradient (notFinding _)
  · obtain ⟨primitive, -, found⟩ := List.mem_filterMap.mp overflow
    rw [overflowIssue?] at found
    split at found
    · cases found
    · cases found
      cases kind
  · obtain ⟨primitive, -, found⟩ := List.mem_flatMap.mp bullet
    rw [bulletIssues] at found
    split at found
    · obtain ⟨paragraph, -, rfl⟩ := List.mem_map.mp found
      cases kind
    · cases found
  · exact shared

/-- A shared name is in words what at least two headers have in common. -/
theorem shared_of_mem_duplicateIssues {primitives : List Primitive} {issue : Issue}
    (member : issue ∈ duplicateIssues primitives) :
    ∃ name, 2 ≤ ((placeholderHeaders primitives).map (·.id)).count name ∧
      issue.nodes = ((placeholderHeaders primitives).filter (·.id == name)).map (·.source) ∧
      issue.detail =
        "Placeholder id \"" ++ name ++ "\" is used by " ++
          Text.ofNat (((placeholderHeaders primitives).map (·.id)).count name) ++ " elements" := by
  obtain ⟨name, -, found⟩ := List.mem_filterMap.mp member
  dsimp only at found
  split at found
  · cases found
  · rename_i many
    cases found
    have users : (((placeholderHeaders primitives).filter (·.id == name)).map (·.source)).length =
        ((placeholderHeaders primitives).map (·.id)).count name := by
      rw [List.length_map, ← List.countP_eq_length_filter, List.count, List.countP_map]
      rfl
    refine ⟨name, ?_, rfl, ?_⟩
    · exact users ▸ Nat.not_lt.mp many
    · rw [← users]
      rfl

/-- Names are found for all placeholders. The numbered ones differ from each other and from the own
name of every placeholder in the tree, and a name is reported as shared only where at least two
placeholders have it for their own. -/
theorem generated_names_unshared (roles : List Role) (limit : Nat) (options : ValidationOptions)
    (tree : Tree) :
    let mapped := mapDocument roles limit tree
    let placeholders := metPlaceholders roles tree
    (∃ names, NamedInTurn (documentNames roles tree) 0 placeholders names ∧
      placeholderHeaders mapped.primitives = List.zipWith headerOf placeholders names ∧
      (generatedNames placeholders names).Nodup ∧
      ∀ name ∈ generatedNames placeholders names, ∀ node ∈ treePlaceholders roles tree,
        name ≠ placeholderId node) ∧
    ∀ issue ∈ validate options tree mapped.primitives mapped.findings,
      issue.kind = .duplicatePlaceholderId → ∃ name,
        name ≠ [] ∧ 2 ≤ placeholders.countP (placeholderId · == name) ∧
        issue.nodes = (placeholders.filter (placeholderId · == name)).map (·.ref) ∧
        issue.detail =
          "Placeholder id \"" ++ name ++ "\" is used by " ++
            Text.ofNat (placeholders.countP (placeholderId · == name)) ++ " elements" := by
  intro mapped placeholders
  obtain ⟨names, named, headers⟩ := named_mapDocument roles limit tree
  refine ⟨⟨names, named, headers, named.nodup_generated, ?_⟩, ?_⟩
  · intro name generated node member same
    refine (named.of_generated name generated).2 ?_
    rw [same]
    exact mem_documentNames member (same ▸ named.ne_nil_of_generated name generated)
  · intro issue member kind
    obtain ⟨name, many, nodes, detail⟩ :=
      shared_of_mem_duplicateIssues (mem_duplicateIssues member kind)
    rw [headers, named.ids_eq] at many detail
    have nonempty : name ≠ [] :=
      named.ne_nil_of_mem name (List.count_pos_iff.mp (Nat.lt_of_lt_of_le Nat.two_pos many))
    have given : name ∉ generatedNames placeholders names :=
      named.not_mem_generated (fun node met =>
        mem_documentNames ((metPlaceholders_sublist roles tree).subset met)) nonempty many
    have count : names.count name = placeholders.countP (placeholderId · == name) := by
      rw [named.count_eq nonempty, List.count_eq_zero_of_not_mem given, Nat.add_zero]
    rw [count] at many detail
    refine ⟨name, nonempty, many, ?_, detail⟩
    rw [nodes, headers, named.users_eq nonempty given]

end SlidePress.Slide
