import Mathlib.Data.List.Nodup
import SlidePress.Proofs.Slide.Report
import SlidePress.Proofs.Slide.TextKept
import SlidePress.Proofs.Text.Marks

/-! The names of primitives. Texts, shapes and images are counted, each kind by itself, and named
after their numbers. A placeholder has the name that the document gives it, or a numbered one of its
own kind. Within a kind no name comes twice: for counted kinds since numbers ascend, for placeholders
since a slide with a shared name is rejected. Between the kinds a name can come twice in one way only,
when the document gives a placeholder the name of something that is counted. -/

namespace SlidePress.Slide

open Source (Node NodeRef Tree Kind Size subtrees)
open Style

inductive Counted where
  | text
  | shape
  | image
  deriving DecidableEq, Repr

def Counted.stem : Counted → Text
  | .text => "text"
  | .shape => "shape"
  | .image => "image"

theorem Counted.stem_injective {first second : Counted} (same : first.stem = second.stem) :
    first = second := by
  revert same
  cases first <;> cases second <;> decide

def Body.counted? : Body → Option Counted
  | .text _ => some .text
  | .shape _ => some .shape
  | .image .. => some .image
  | .placeholder => none

/-- The kind by which a primitive is counted; none for a placeholder. -/
def Primitive.counted? (primitive : Primitive) : Option Counted := primitive.body.counted?

def namesOf (kind : Option Counted) (primitives : List Primitive) : List Text :=
  (primitives.filter (·.counted? == kind)).map (·.header.id)

theorem namesOf_cons_of_kind {kind : Option Counted} {body : Body} (same : body.counted? = kind)
    (header : Header) (rest : List Primitive) :
    namesOf kind (⟨header, body⟩ :: rest) = header.id :: namesOf kind rest := by
  have kept : (Primitive.counted? ⟨header, body⟩ == kind) = true := beq_iff_eq.mpr same
  rw [namesOf, List.filter_cons, kept]
  rfl

theorem namesOf_cons_of_other {kind : Option Counted} {body : Body} (other : body.counted? ≠ kind)
    (header : Header) (rest : List Primitive) :
    namesOf kind (⟨header, body⟩ :: rest) = namesOf kind rest := by
  have dropped : (Primitive.counted? ⟨header, body⟩ == kind) = false := beq_eq_false_iff_ne.mpr other
  rw [namesOf, List.filter_cons, dropped]
  rfl

theorem mem_namesOf {kind : Option Counted} {primitives : List Primitive} {name : Text} :
    name ∈ namesOf kind primitives ↔
      ∃ primitive ∈ primitives, primitive.counted? = kind ∧ primitive.header.id = name := by
  simp only [namesOf, List.mem_map, List.mem_filter, beq_iff_eq, and_assoc]

section Numbers

theorem numberedId_eq (stem : Text) (number : Nat) :
    numberedId stem number = stem ++ '-'.toUInt8 :: Text.ofNat number := by
  rw [numberedId, List.append_assoc]
  rfl

/-- A numbered name shows its stem and its number. -/
theorem numberedId_inj {first second : Text} {number other : Nat}
    (same : numberedId first number = numberedId second other) :
    first = second ∧ number = other := by
  have noMark : ∀ number, '-'.toUInt8 ∉ Text.ofNat number := by
    intro number member
    exact absurd (Text.isDigit_of_mem_ofNat member) (by decide)
  rw [numberedId_eq, numberedId_eq] at same
  obtain ⟨stems, numerals⟩ := Text.append_mark_inj (noMark number) (noMark other) same
  exact ⟨stems, Text.ofNat_injective numerals⟩

def numberedNames (stem : Text) : Nat → List Text
  | 0 => []
  | number + 1 => numberedId stem (number + 1) :: numberedNames stem number

theorem length_numberedNames (stem : Text) (count : Nat) :
    (numberedNames stem count).length = count := by
  induction count with
  | zero => rfl
  | succ count ih => rw [numberedNames, List.length_cons, ih]

theorem mem_numberedNames {stem name : Text} {count : Nat} :
    name ∈ numberedNames stem count ↔
      ∃ number, 0 < number ∧ number ≤ count ∧ name = numberedId stem number := by
  induction count with
  | zero =>
      refine ⟨fun member => (List.not_mem_nil member).elim, ?_⟩
      rintro ⟨number, positive, small, _⟩
      omega
  | succ count ih =>
      rw [numberedNames, List.mem_cons, ih]
      constructor
      · rintro (rfl | ⟨number, positive, small, rfl⟩)
        · exact ⟨count + 1, Nat.succ_pos count, Nat.le_refl _, rfl⟩
        · exact ⟨number, positive, Nat.le_succ_of_le small, rfl⟩
      · rintro ⟨number, positive, small, rfl⟩
        rcases Nat.lt_or_eq_of_le small with less | rfl
        · exact .inr ⟨number, positive, Nat.le_of_lt_succ less, rfl⟩
        · exact .inl rfl

theorem nodup_numberedNames (stem : Text) (count : Nat) : (numberedNames stem count).Nodup := by
  induction count with
  | zero => exact List.nodup_nil
  | succ count ih =>
      refine List.nodup_cons.mpr ⟨fun member => ?_, ih⟩
      obtain ⟨number, _, small, same⟩ := mem_numberedNames.mp member
      have numbers := (numberedId_inj same).2
      omega

end Numbers

namespace Mapping

def count (mapping : Mapping) : Counted → Nat
  | .text => mapping.texts
  | .shape => mapping.shapes
  | .image => mapping.images

/-- The names so far: counted primitives have the names up to the count of their kind, and
placeholders have names that are taken from the document or numbered. -/
structure Named (taken : List Text) (mapping : Mapping) : Prop where
  counted : ∀ kind : Counted,
    namesOf (some kind) mapping.primitives = numberedNames kind.stem (mapping.count kind)
  placeholders : ∀ name ∈ namesOf none mapping.primitives,
    name ∈ taken ∨ ∃ number, name = numberedId "placeholder" number

namespace Named

variable {taken : List Text} {mapping : Mapping}

/-- What leaves the primitives and the counts alone leaves the names alone. -/
theorem unchanged {after : Mapping} (named : Named taken mapping)
    (primitives : after.primitives = mapping.primitives) (counts : after.count = mapping.count) :
    Named taken after := by
  constructor
  · intro kind
    rw [primitives, counts]
    exact named.counted kind
  · rw [primitives]
    exact named.placeholders

theorem note (named : Named taken mapping) (findings : List Finding) :
    Named taken (mapping.note findings) :=
  named.unchanged rfl (funext fun kind => by cases kind <;> rfl)

theorem degrade (named : Named taken mapping) (what : Text) : Named taken (mapping.degrade what) :=
  named.unchanged rfl (funext fun kind => by cases kind <;> rfl)

theorem degradeAll (named : Named taken mapping) (phrase : Text → Text) (dropped : List Text) :
    Named taken (dropped.foldl (fun mapping what => mapping.degrade (phrase what)) mapping) := by
  induction dropped generalizing mapping with
  | nil => exact named
  | cons what rest ih => exact ih (named.degrade (phrase what))

/-- A primitive is counted and gets the next name of its kind. -/
theorem emitCounted {raised : Mapping} (named : Named taken mapping) (node : Node) (kind : Counted)
    (body : Body) (isKind : body.counted? = some kind)
    (primitives : raised.primitives = mapping.primitives)
    (counts : raised.count = Function.update mapping.count kind (mapping.count kind + 1)) :
    Named taken
      (raised.emit ⟨headerOf node (numberedId kind.stem (mapping.count kind + 1)), body⟩) := by
  have sameCount : ∀ primitive, (raised.emit primitive).count = raised.count := by
    intro primitive
    funext other
    cases other <;> rfl
  constructor
  · intro other
    rw [sameCount, counts, emit, primitives]
    by_cases same : other = kind
    · subst same
      rw [namesOf_cons_of_kind isKind, named.counted, Function.update_self]
      rfl
    · have different : body.counted? ≠ some other :=
        fun both => same (Option.some.inj (both.symm.trans isKind))
      rw [namesOf_cons_of_other different, named.counted, Function.update_of_ne same]
  · have different : body.counted? ≠ none := fun both => nomatch both.symm.trans isKind
    rw [emit, primitives, namesOf_cons_of_other different]
    exact named.placeholders

/-- A placeholder is not counted among the others. -/
theorem emitPlaceholder {raised : Mapping} (named : Named taken mapping) (node : Node) {name : Text}
    (origin : name ∈ taken ∨ ∃ number, name = numberedId "placeholder" number)
    (primitives : raised.primitives = mapping.primitives) (counts : raised.count = mapping.count) :
    Named taken (raised.emit ⟨headerOf node name, .placeholder⟩) := by
  have sameCount : ∀ primitive, (raised.emit primitive).count = raised.count := by
    intro primitive
    funext other
    cases other <;> rfl
  constructor
  · intro kind
    have different : Body.placeholder.counted? ≠ some kind := fun both => nomatch both
    rw [sameCount, counts, emit, primitives, namesOf_cons_of_other different]
    exact named.counted kind
  · have same : Body.placeholder.counted? = none := rfl
    rw [emit, primitives, namesOf_cons_of_kind same]
    intro other member
    rcases List.mem_cons.mp member with rfl | earlier
    · exact origin
    · exact named.placeholders other earlier

theorem emitImage (named : Named taken mapping) (node : Node) :
    Named taken (mapping.emitImage node) := by
  refine named.emitCounted node .image (imageBody node) rfl rfl ?_
  funext kind
  cases kind <;> rfl

theorem emitImages (named : Named taken mapping) (nodes : List Node) :
    Named taken (nodes.foldl Mapping.emitImage mapping) := by
  induction nodes generalizing mapping with
  | nil => exact named
  | cons node rest ih => exact ih (named.emitImage node)

theorem addText (named : Named taken mapping) (limit : Nat) (node : Node) :
    Named taken (mapping.addText limit node) := by
  have noted := named.note (textFindings limit node)
  unfold Mapping.addText
  dsimp only
  refine emitImages ?_ _
  split
  · exact noted.degrade _
  · refine noted.emitCounted node .text (.text (textContent node)) rfl rfl ?_
    funext kind
    cases kind <;> rfl

theorem addShape (named : Named taken mapping) (limit : Nat) (node : Node) :
    Named taken (mapping.addShape limit node) := by
  have noted := (named.note (gradientFinding? limit node).toList).degradeAll
    (fun what => what ++ " on <" ++ node.tag ++ "> at " ++ node.path) (droppedStyle node)
  refine noted.emitCounted node .shape (.shape (shapeStyle node)) rfl rfl ?_
  funext kind
  cases kind <;> rfl

theorem addPlaceholder (named : Named taken mapping) {node : Node}
    (own : placeholderId node ≠ [] → placeholderId node ∈ taken) :
    Named taken (mapping.addPlaceholder taken node) := by
  unfold Mapping.addPlaceholder
  dsimp only
  split
  · refine named.emitPlaceholder node (.inr ⟨_, rfl⟩) rfl ?_
    funext kind
    cases kind <;> rfl
  · rename_i given
    exact named.emitPlaceholder node (.inl (own fun empty => given (by rw [empty]; rfl))) rfl rfl

theorem addIgnorable (named : Named taken mapping) (limit : Nat) (node : Node) :
    Named taken (mapping.addIgnorable limit node) := by
  unfold Mapping.addIgnorable
  dsimp only
  split
  · split
    · exact named
    · exact named.degrade _
  · exact named

/-- The step: a node that is added keeps the names in order. -/
theorem add {context : MappingContext} (named : Named context.authorIds mapping) {node : Node}
    (own : roleOf context.roles node = .placeholder → placeholderId node ≠ [] →
      placeholderId node ∈ context.authorIds) :
    Named context.authorIds (mapping.add context node) := by
  unfold Mapping.add
  cases role : roleOf context.roles node with
  | textBlock => exact named.addText context.excerptLimit node
  | shapeContainer => exact named.addShape context.excerptLimit node
  | image => exact named.emitImage node
  | placeholder => exact named.addPlaceholder (own role)
  | ignorable => exact named.addIgnorable context.excerptLimit node
  | inline => exact named

/-- The run: nodes that are added one after another keep the names in order. -/
theorem foldl {context : MappingContext} (nodes : List Node)
    (own : ∀ node ∈ nodes, roleOf context.roles node = .placeholder → placeholderId node ≠ [] →
      placeholderId node ∈ context.authorIds)
    (named : Named context.authorIds mapping) :
    Named context.authorIds (nodes.foldl (Mapping.add context) mapping) := by
  induction nodes generalizing mapping with
  | nil => exact named
  | cons node rest ih =>
      exact ih (fun other member => own other (List.mem_cons_of_mem _ member))
        (named.add (own node List.mem_cons_self))

end Named

end Mapping

theorem visited_sublist_subtree {roles : List Role} (node : Node) :
    (visited roles node).Sublist node.subtree := by
  induction node using Node.byChildren with
  | step node ih =>
      rw [Node.subtree_eq, Node.inside, Source.subtrees_eq_flatMap]
      by_cases role : IsOpen roles node
      · rw [visited_of_open role, visitedAll_eq_flatMap]
        exact (List.Sublist.flatMap_right _ ih).cons_cons node
      · rw [visited_of_not_open role]
        exact (List.nil_sublist _).cons_cons node

theorem mem_subtree_of_visited {roles : List Role} (node : Node) :
    ∀ other ∈ visited roles node, other ∈ node.subtree :=
  fun _ member => (visited_sublist_subtree node).subset member

theorem mem_authorIds {roles : List Role} {root node : Node} (member : node ∈ root.subtree)
    (role : roleOf roles node = .placeholder) (given : placeholderId node ≠ []) :
    placeholderId node ∈ authorIds roles root := by
  refine List.mem_filter.mpr ⟨List.mem_map_of_mem (List.mem_filter.mpr ⟨member, ?_⟩), ?_⟩
  · rw [role]
    rfl
  · rw [List.isEmpty_eq_false_iff.mpr given]
    rfl

/-- The names of a mapped tree, whatever roles its nodes are given. -/
structure NamesFollow (taken : List Text) (primitives : List Primitive) : Prop where
  counted : ∀ kind : Counted, ∃ count,
    (namesOf (some kind) primitives).Perm (numberedNames kind.stem count)
  placeholders : ∀ name ∈ namesOf none primitives,
    name ∈ taken ∨ ∃ number, name = numberedId "placeholder" number

def documentNames (roles : List Role) (tree : Tree) : List Text :=
  tree.root.toList.flatMap (authorIds roles)

theorem namesFollow_mapDocument (roles : List Role) (limit : Nat) (tree : Tree) :
    NamesFollow (documentNames roles tree) (mapDocument roles limit tree).primitives := by
  obtain ⟨_ | root, declared⟩ := tree
  · exact ⟨fun kind => ⟨0, .refl _⟩, fun name member => (List.not_mem_nil member).elim⟩
  · let context : MappingContext := ⟨roles, authorIds roles root, limit⟩
    have start : Mapping.Named context.authorIds {} :=
      ⟨fun kind => by cases kind <;> rfl, fun name member => (List.not_mem_nil member).elim⟩
    have own : ∀ node ∈ visitedAll roles root.children, roleOf roles node = .placeholder →
        placeholderId node ≠ [] → placeholderId node ∈ authorIds roles root := by
      intro node member role given
      refine mem_authorIds ?_ role given
      rw [visitedAll_eq_flatMap] at member
      obtain ⟨child, isChild, found⟩ := List.mem_flatMap.mp member
      rw [Node.subtree_eq, Node.inside, Source.subtrees_eq_flatMap]
      exact List.mem_cons_of_mem _
        (List.mem_flatMap.mpr ⟨child, isChild, mem_subtree_of_visited child node found⟩)
    have named := start.foldl _ own
    rw [← Mapping.visitAll_eq_foldl fun node _ => Mapping.visit_eq_foldl node] at named
    have reversed : ∀ kind,
        (namesOf kind (mapDocument roles limit ⟨some root, declared⟩).primitives).Perm
          (namesOf kind (Mapping.visitAll context root.children {}).primitives) := fun kind =>
      ((List.reverse_perm _).filter _).map _
    constructor
    · intro kind
      refine ⟨(Mapping.visitAll context root.children {}).count kind, ?_⟩
      rw [← named.counted]
      exact reversed _
    · intro name member
      refine (named.placeholders name ((reversed none).mem_iff.mp member)).imp_left fun author => ?_
      exact List.mem_flatMap.mpr ⟨root, List.mem_singleton_self root, author⟩

section Distinct

/-- Keys are distinct when they are so within each class and classes have no keys in common. -/
theorem nodup_map_of_classes {α β γ : Type} [BEq γ] [LawfulBEq γ] {key : α → β} (sort : α → γ)
    {items : List α} (within : ∀ one, ((items.filter (sort · == one)).map key).Nodup)
    (across : ∀ first ∈ items, ∀ second ∈ items, sort first ≠ sort second →
      key first ≠ key second) : (items.map key).Nodup := by
  induction items with
  | nil => exact List.nodup_nil
  | cons item rest ih =>
      have own := within (sort item)
      rw [List.filter_cons, beq_self_eq_true, if_pos rfl, List.map_cons, List.nodup_cons] at own
      refine List.nodup_cons.mpr ⟨fun member => ?_, ih (fun one => ?_) ?_⟩
      · obtain ⟨other, inRest, same⟩ := List.mem_map.mp member
        by_cases sorts : sort other = sort item
        · exact own.1 (List.mem_map.mpr
            ⟨other, List.mem_filter.mpr ⟨inRest, beq_iff_eq.mpr sorts⟩, same⟩)
        · exact across other (List.mem_cons_of_mem _ inRest) item List.mem_cons_self sorts same
      · exact (within one).sublist (((List.sublist_cons_self item rest).filter _).map _)
      · exact fun first isFirst second isSecond =>
          across first (List.mem_cons_of_mem _ isFirst) second (List.mem_cons_of_mem _ isSecond)

theorem isPlaceholderPrimitive_eq (primitive : Primitive) :
    isPlaceholderPrimitive primitive = (primitive.counted? == none) := by
  obtain ⟨header, body⟩ := primitive
  cases body <;> rfl

/-- Placeholders whose names raise no issue have names of their own. -/
theorem nodup_placeholders {primitives : List Primitive}
    (nothing : duplicateIssues primitives = []) : (namesOf none primitives).Nodup := by
  have few : ∀ name ∈ placeholderNames primitives, ¬ 2 ≤ (usersOf primitives name).length := by
    have blames := blame_duplicateIssues primitives
    rw [nothing, List.map_nil] at blames
    intro name member many
    have kept := List.filter_eq_nil_iff.mp (List.map_eq_nil_iff.mp blames.symm) name member
    exact kept (decide_eq_true many)
  have names : (primitives.filter isPlaceholderPrimitive).map (·.header.id) =
      namesOf none primitives := by
    rw [namesOf, funext isPlaceholderPrimitive_eq]
  have uses : ∀ name, (usersOf primitives name).length = (namesOf none primitives).count name := by
    intro name
    rw [← names, usersOf, List.length_map, ← List.countP_eq_length_filter, List.count,
      List.countP_map]
    rfl
  rw [List.nodup_iff_count_le_one]
  intro name
  by_cases member : name ∈ namesOf none primitives
  · rw [← uses]
    refine Nat.le_of_lt_succ (Nat.not_le.mp (few name ?_))
    rw [placeholderNames, names]
    exact List.mem_eraseDups.mpr member
  · rw [List.count_eq_zero_of_not_mem member]
    exact Nat.zero_le 1

/-- A placeholder has the name of something that is counted. -/
def BorrowsName (primitives : List Primitive) (name : Text) : Prop :=
  name ∈ namesOf none primitives ∧
    ∃ (kind : Counted) (number : Nat), 0 < number ∧
      number ≤ (namesOf (some kind) primitives).length ∧ name = numberedId kind.stem number

variable {taken : List Text} {primitives : List Primitive}

theorem NamesFollow.mem_counted (follow : NamesFollow taken primitives) {kind : Counted}
    {name : Text} : name ∈ namesOf (some kind) primitives ↔
      ∃ number, 0 < number ∧ number ≤ (namesOf (some kind) primitives).length ∧
        name = numberedId kind.stem number := by
  obtain ⟨count, names⟩ := follow.counted kind
  rw [names.mem_iff, names.length_eq, length_numberedNames, mem_numberedNames]

/-- Names that follow the rules come twice only where a placeholder borrows one. -/
theorem NamesFollow.nodup_iff (follow : NamesFollow taken primitives)
    (distinct : (namesOf none primitives).Nodup) :
    (primitives.map (·.header.id)).Nodup ↔ ∀ name, ¬ BorrowsName primitives name := by
  constructor
  · rintro nodup name ⟨member, kind, number, bounds⟩
    obtain ⟨first, isFirst, isPlaceholder, firstName⟩ := mem_namesOf.mp member
    obtain ⟨second, isSecond, isCounted, secondName⟩ :=
      mem_namesOf.mp (follow.mem_counted.mpr ⟨number, bounds⟩)
    have same : first = second :=
      List.inj_on_of_nodup_map nodup isFirst isSecond (firstName.trans secondName.symm)
    cases isPlaceholder.symm.trans (same ▸ isCounted)
  · intro noBorrowing
    -- A name on both sides of the line between placeholders and the rest would be borrowed.
    have apart : ∀ placeholder ∈ primitives, placeholder.counted? = none → ∀ other ∈ primitives,
        ∀ kind, other.counted? = some kind → placeholder.header.id ≠ other.header.id := by
      intro placeholder isMember isPlaceholder other isOther kind isCounted same
      refine noBorrowing placeholder.header.id
        ⟨mem_namesOf.mpr ⟨placeholder, isMember, isPlaceholder, rfl⟩, kind, ?_⟩
      exact follow.mem_counted.mp (mem_namesOf.mpr ⟨other, isOther, isCounted, same.symm⟩)
    refine nodup_map_of_classes Primitive.counted? (fun one => ?_) ?_
    · cases one with
      | none => exact distinct
      | some kind =>
          obtain ⟨count, names⟩ := follow.counted kind
          exact names.nodup_iff.mpr (nodup_numberedNames kind.stem count)
    · intro first isFirst second isSecond different same
      cases firstKind : first.counted? with
      | none =>
          cases secondKind : second.counted? with
          | none => exact different (firstKind.trans secondKind.symm)
          | some kind => exact apart first isFirst firstKind second isSecond kind secondKind same
      | some kind =>
          cases secondKind : second.counted? with
          | none => exact apart second isSecond secondKind first isFirst kind firstKind same.symm
          | some other =>
              obtain ⟨number, _, _, firstName⟩ :=
                follow.mem_counted.mp (mem_namesOf.mpr ⟨first, isFirst, firstKind, rfl⟩)
              obtain ⟨numberToo, _, _, secondName⟩ :=
                follow.mem_counted.mp (mem_namesOf.mpr ⟨second, isSecond, secondKind, rfl⟩)
              have stems := (numberedId_inj (firstName.symm.trans (same.trans secondName))).1
              refine different ?_
              rw [firstKind, secondKind, Counted.stem_injective stems]

/-- Only a name that the document gives can be borrowed. -/
theorem NamesFollow.mem_of_borrows (follow : NamesFollow taken primitives) {name : Text}
    (borrows : BorrowsName primitives name) : name ∈ taken := by
  obtain ⟨member, kind, number, _, _, same⟩ := borrows
  refine (follow.placeholders name member).resolve_right ?_
  rintro ⟨other, numbered⟩
  have stems := (numberedId_inj (same.symm.trans numbered)).1
  revert stems
  cases kind <;> decide

theorem NamesFollow.congr {others : List Primitive} (follow : NamesFollow taken primitives)
    (same : ∀ kind, (namesOf kind others).Perm (namesOf kind primitives)) :
    NamesFollow taken others := by
  constructor
  · intro kind
    obtain ⟨count, names⟩ := follow.counted kind
    exact ⟨count, (same (some kind)).trans names⟩
  · exact fun name member => follow.placeholders name ((same none).mem_iff.mp member)

end Distinct

theorem namesOf_rounded (kind : Option Counted) (primitives : List Primitive) :
    namesOf kind (primitives.map Primitive.rounded) = namesOf kind primitives := by
  have sameKind : ∀ primitive : Primitive, primitive.rounded.counted? = primitive.counted? := by
    rintro ⟨header, body⟩
    cases body <;> rfl
  rw [namesOf, List.filter_map, List.map_map]
  simp only [Function.comp_def, sameKind]
  rfl

/-- A finished slide has passed every check and keeps the names. -/
theorem assemble_eq_slide {primitives : List Primitive} {issues : List Issue} {canvas : Size}
    {background : Option Color} {deck : Deck}
    (made : assemble primitives issues canvas background = .slide deck) :
    issues = [] ∧ ∀ kind, (namesOf kind deck.primitives).Perm (namesOf kind primitives) := by
  cases issues with
  | cons issue rest => cases made
  | nil =>
      cases made
      refine ⟨rfl, fun kind => ?_⟩
      rw [namesOf_rounded]
      exact ((List.mergeSort_perm primitives _).filter _).map _

/-- On a slide that was found valid the names are those of the mapping, and placeholders have names
of their own. -/
theorem names_of_slide {validation : ValidationOptions} {tree : Tree} {primitives : List Primitive}
    {findings : List Finding} {canvas : Size} {background : Option Color} {deck : Deck}
    (made : assemble primitives (validate validation tree primitives findings) canvas background =
      .slide deck) :
    (∀ kind, (namesOf kind deck.primitives).Perm (namesOf kind primitives)) ∧
      (namesOf none deck.primitives).Nodup := by
  obtain ⟨valid, names⟩ := assemble_eq_slide made
  have noDuplicates := (List.append_eq_nil_iff.mp valid).2
  exact ⟨names, (names none).nodup_iff.mpr (nodup_placeholders noDuplicates)⟩

/-- Whatever the roles: on a valid slide names come twice only where a placeholder has the name of
something that is counted, and such a name was given by the document. -/
theorem nodup_names_of_slide {roles : List Role} {limit : Nat} {validation : ValidationOptions}
    {tree : Tree} {canvas : Size} {deck : Deck}
    (made : let mapped := mapDocument roles limit tree
      assemble mapped.primitives
        (validate validation tree mapped.primitives mapped.findings) canvas mapped.background =
          .slide deck) :
    ((deck.primitives.map (·.header.id)).Nodup ↔ ∀ name, ¬ BorrowsName deck.primitives name) ∧
      ∀ name, BorrowsName deck.primitives name → name ∈ documentNames roles tree := by
  obtain ⟨names, distinct⟩ := names_of_slide made
  have follow := (namesFollow_mapDocument roles limit tree).congr names
  exact ⟨follow.nodup_iff distinct, fun name => follow.mem_of_borrows⟩

/-- On a finished slide names come twice only where a placeholder has the name of something that is
counted, and such a name was given by the document. -/
theorem nodup_names_iff_no_borrowing (options : ConversionOptions) (tree : Tree) (deck : Deck)
    (converted : (convertTree options tree).1 = .slide deck) :
    ((deck.primitives.map (·.header.id)).Nodup ↔ ∀ name, ¬ BorrowsName deck.primitives name) ∧
      ∀ name, BorrowsName deck.primitives name →
        name ∈ documentNames (classify options.placeholderClass tree) tree := by
  rw [outcome_convertTree] at converted
  exact nodup_names_of_slide converted

section Samples

def namedPlaceholderPage (name : Text) : Node :=
  bareNode "body" []
    [bareNode "p" [] [bareText "alone"],
      { bareNode "div" [] [] with
        attributes := Table.ofList [("data-placeholder", []), ("id", name)] }]

/-- A numbered tree against which nothing stands becomes a slide with the names of the mapping. -/
theorem names_of_valid (options : ConversionOptions) (root : Node) (declared : Size)
    (names : List Text) :
    let mapped := mapNumbered options.placeholderClass options.excerptLimit root declared
    (validate (validationOf options) (Tree.numbered ⟨some root, declared⟩) mapped.primitives
        mapped.findings).isEmpty = true →
      mapped.primitives.map (·.header.id) = names →
        ∃ deck, (convertTree options (Tree.numbered ⟨some root, declared⟩)).1 = .slide deck ∧
          deck.primitives.map (·.header.id) = names := by
  intro mapped valid known
  have made := assemble_ascending
    (ascending_mapDocument options.placeholderClass options.excerptLimit root declared)
    options.canvas mapped.background
  rw [← List.isEmpty_iff.mp valid] at made
  refine ⟨_, (outcome_convertTree options _).trans made, ?_⟩
  rw [List.map_map]
  exact known

theorem nodup_names_iff_no_borrowing_chart :
    ∃ deck, (convertTree {}
        (Tree.numbered ⟨some (namedPlaceholderPage "chart"), ⟨720, 405⟩⟩)).1 = .slide deck ∧
      (deck.primitives.map (·.header.id)).Nodup ∧ ∀ name, ¬ BorrowsName deck.primitives name := by
  obtain ⟨deck, converted, names⟩ := names_of_valid {} (namedPlaceholderPage "chart") ⟨720, 405⟩
    ["text-1", "chart"] (by decide +kernel) (by decide +kernel)
  have nodup : (deck.primitives.map (·.header.id)).Nodup := by
    rw [names]
    decide +kernel
  exact ⟨deck, converted, nodup,
    (nodup_names_iff_no_borrowing {} _ deck converted).1.mp nodup⟩

/-- A placeholder under the name of the first text makes that name come twice. -/
theorem not_nodup_names_borrowed :
    ∃ deck,
      (convertTree {}
        (Tree.numbered ⟨some (namedPlaceholderPage "text-1"), ⟨720, 405⟩⟩)).1 = .slide deck ∧
        ¬ (deck.primitives.map (·.header.id)).Nodup := by
  obtain ⟨deck, converted, names⟩ := names_of_valid {} (namedPlaceholderPage "text-1") ⟨720, 405⟩
    ["text-1", "text-1"] (by decide +kernel) (by decide +kernel)
  refine ⟨deck, converted, ?_⟩
  rw [names]
  decide +kernel

end Samples

end SlidePress.Slide
