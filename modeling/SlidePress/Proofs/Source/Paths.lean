import Mathlib.Data.List.Nodup
import SlidePress.Proofs.Source.DocumentOrder
import SlidePress.Proofs.Text.Marks

/-! Paths. The path of a node leads from the root down in steps, each a tag with a count. Where no
tag holds a slash, steps can be told from each other, so that no two nodes of a numbered tree have the
same path; where no tag holds a blank, no path is broken by a blank below the root. -/

namespace SlidePress.Source

def slash : UInt8 := '/'.toUInt8

def blank : UInt8 := ' '.toUInt8

structure PlainTag (tag : Text) : Prop where
  noSlash : slash ∉ tag
  noBlank : blank ∉ tag

instance (tag : Text) : Decidable (PlainTag tag) :=
  decidable_of_iff (slash ∉ tag ∧ blank ∉ tag)
    ⟨fun ⟨noSlash, noBlank⟩ => ⟨noSlash, noBlank⟩, fun plain => ⟨plain.noSlash, plain.noBlank⟩⟩

/-- The step of a path to a child: its tag, and its count among equal elder siblings. -/
def pathStep (elder : List Text) (tag : Text) : Text :=
  tag ++ '['.toUInt8 :: (Text.ofNat (elder.count tag) ++ [']'.toUInt8])

theorem childPath_eq (path : Text) (elder : List Text) (tag : Text) :
    childPath path elder tag = path ++ slash :: pathStep elder tag := by
  simp only [childPath, pathStep, List.append_assoc]
  rfl

/-- Bytes that are no digits can stand in a step only by its tag or its brackets. -/
theorem not_mem_pathStep {elder : List Text} {tag : Text} {byte : UInt8} (absent : byte ∉ tag)
    (notDigit : Byte.isDigit byte = false) (notBracket : byte ≠ '['.toUInt8 ∧ byte ≠ ']'.toUInt8) :
    byte ∉ pathStep elder tag := by
  intro member
  rcases List.mem_append.mp member with inTag | later
  · exact absent inTag
  · rcases List.mem_cons.mp later with opening | counted
    · exact notBracket.1 opening
    · rcases List.mem_append.mp counted with digit | closing
      · rw [Text.isDigit_of_mem_ofNat digit] at notDigit
        cases notDigit
      · exact notBracket.2 (List.mem_singleton.mp closing)

theorem pathStep_inj {elder others : List Text} {tag name : Text}
    (same : pathStep elder tag = pathStep others name) :
    tag = name ∧ elder.count tag = others.count name := by
  have noBracket : ∀ number, '['.toUInt8 ∉ Text.ofNat number ++ [']'.toUInt8] := by
    intro number member
    rcases List.mem_append.mp member with digit | closing
    · exact absurd (Text.isDigit_of_mem_ofNat digit) (by decide)
    · exact absurd (List.mem_singleton.mp closing) (by decide)
  obtain ⟨tags, counts⟩ := Text.append_mark_inj (noBracket _) (noBracket _) same
  exact ⟨tags, Text.ofNat_injective (List.append_cancel_right counts)⟩

/-- A later sibling is reached by another step. -/
theorem pathStep_ne_later (elder later : List Text) (tag name : Text) :
    pathStep elder tag ≠ pathStep (elder ++ [tag] ++ later) name := by
  intro same
  obtain ⟨rfl, counts⟩ := pathStep_inj same
  rw [List.count_append, List.count_append, List.count_singleton_self] at counts
  omega

/-- What a path adds on its way down: nothing, or steps that a slash begins. -/
structure IsWay (way : Text) : Prop where
  begins : ∀ byte, way.head? = some byte → byte = slash
  unbroken : blank ∉ way

inductive Steps (allowed : Text → Prop) : Text → Prop where
  | none : Steps allowed []
  | step {elder : List Text} {tag way : Text} (isAllowed : allowed tag) (steps : Steps allowed way) :
      Steps allowed (slash :: (pathStep elder tag ++ way))

theorem Steps.begins {allowed : Text → Prop} {way : Text} (steps : Steps allowed way) :
    ∀ byte, way.head? = some byte → byte = slash := by
  cases steps with
  | none => exact fun _ none => nomatch none
  | step => exact fun _ same => (Option.some.inj same).symm

theorem Steps.isWay {way : Text} (steps : Steps PlainTag way) : IsWay way := by
  refine ⟨steps.begins, ?_⟩
  induction steps with
  | none => exact List.not_mem_nil
  | step plain _ ih =>
      intro member
      rcases List.mem_cons.mp member with isSlash | later
      · exact absurd isSlash (by decide)
      · rcases List.mem_append.mp later with inStep | further
        · exact not_mem_pathStep plain.noBlank (by decide) (by decide) inStep
        · exact ih further

/-- A way down shows its first step, if its tags hold no slash. -/
theorem pathStep_eq_of_steps {allowed : Text → Prop} {elder others : List Text}
    {tag name way other : Text} (noSlash : slash ∉ tag) (noSlashToo : slash ∉ name)
    (steps : Steps allowed way) (stepsToo : Steps allowed other)
    (same : pathStep elder tag ++ way = pathStep others name ++ other) :
    pathStep elder tag = pathStep others name := by
  have first : ∀ {elder : List Text} {tag way : Text}, slash ∉ tag → Steps allowed way →
      (pathStep elder tag ++ way).takeWhile (· != slash) = pathStep elder tag := by
    intro elder tag way noSlash steps
    apply Text.takeWhile_append_stop
    · exact Text.ne_of_not_mem (not_mem_pathStep noSlash (by decide) (by decide))
    · intro byte isFirst
      rw [steps.begins byte isFirst]
      rfl
  rw [← first noSlash steps, same, first noSlashToo stepsToo]

section Distinct

variable {allowed : Text → Prop} (noSlash : ∀ tag, allowed tag → slash ∉ tag)

/-- Numbering gives the nodes of a subtree distinct paths, all by ways down from its own. -/
def DistinctPaths (allowed : Text → Prop) (node : Node) : Prop :=
  ∀ (order : Nat) (path : Text),
    (∀ inner ∈ (node.numberFrom order path).1.inside, allowed inner.tag) →
      ((node.numberFrom order path).1.subtree.map (·.path)).Nodup ∧
        ∀ inner ∈ (node.numberFrom order path).1.subtree,
          ∃ way, Steps allowed way ∧ inner.path = path ++ way

include noSlash

theorem numberAll_distinct {nodes : List Node}
    (each : ∀ node ∈ nodes, DistinctPaths allowed node) (path : Text) (elder : List Text) (order : Nat)
    (plain : ∀ inner ∈ subtrees (numberAll path elder order nodes).1, allowed inner.tag) :
    ((subtrees (numberAll path elder order nodes).1).map (·.path)).Nodup ∧
      ∀ inner ∈ subtrees (numberAll path elder order nodes).1,
        ∃ later tag way, allowed tag ∧ Steps allowed way ∧
          inner.path = path ++ slash :: (pathStep (elder ++ later) tag ++ way) := by
  induction nodes generalizing elder order with
  | nil => exact ⟨List.nodup_nil, fun inner member => nomatch member⟩
  | cons node rest ih =>
      simp only [numberAll, subtrees] at plain ⊢
      generalize numbering : node.numberFrom order (childPath path elder node.tag) = first at plain ⊢
      have sameTag : first.1.tag = node.tag := by
        rw [← numbering, Node.numberFrom_eq]
      have plainFirst : ∀ inner ∈ first.1.subtree, allowed inner.tag :=
        fun inner member => plain inner (List.mem_append_left _ member)
      rw [Node.subtree_eq] at plainFirst
      have plainTag : allowed node.tag := sameTag ▸ plainFirst first.1 List.mem_cons_self
      obtain ⟨firstDistinct, firstWays⟩ :=
        each node List.mem_cons_self order (childPath path elder node.tag)
          (numbering ▸ fun inner member => plainFirst inner (List.mem_cons_of_mem _ member))
      obtain ⟨otherDistinct, otherWays⟩ := ih
        (fun other member => each other (List.mem_cons_of_mem _ member)) (elder ++ [node.tag]) first.2
        fun inner member => plain inner (List.mem_append_right _ member)
      rw [numbering] at firstDistinct firstWays
      have firstSteps : ∀ inner ∈ first.1.subtree, ∃ way, Steps allowed way ∧
          inner.path = path ++ slash :: (pathStep elder node.tag ++ way) := by
        intro inner member
        obtain ⟨way, down, leads⟩ := firstWays inner member
        refine ⟨way, down, ?_⟩
        rw [leads, childPath_eq, List.append_assoc, List.cons_append]
      constructor
      · rw [List.map_append, List.nodup_append]
        refine ⟨firstDistinct, otherDistinct, ?_⟩
        intro path here other there
        obtain ⟨inner, within, rfl⟩ := List.mem_map.mp here
        obtain ⟨outer, without, rfl⟩ := List.mem_map.mp there
        obtain ⟨way, down, leads⟩ := firstSteps inner within
        obtain ⟨later, tag, otherWay, otherPlain, downToo, otherLeads⟩ := otherWays outer without
        rw [leads, otherLeads]
        intro same
        -- Later siblings have this one among their elders, so that their first step differs.
        have steps := (List.cons.inj (List.append_cancel_left same)).2
        exact pathStep_ne_later elder later node.tag tag
          (pathStep_eq_of_steps (noSlash _ plainTag) (noSlash _ otherPlain) down downToo steps)
      · intro inner member
        rcases List.mem_append.mp member with within | without
        · obtain ⟨way, down, leads⟩ := firstSteps inner within
          refine ⟨[], node.tag, way, plainTag, down, ?_⟩
          rw [leads, List.append_nil]
        · obtain ⟨later, tag, way, otherPlain, down, leads⟩ := otherWays inner without
          refine ⟨node.tag :: later, tag, way, otherPlain, down, ?_⟩
          rw [leads, List.append_assoc elder, List.singleton_append]

theorem distinctPaths (node : Node) : DistinctPaths allowed node := by
  induction node using Node.byChildren with
  | step node ih =>
      intro order path plain
      rw [Node.numberFrom_eq] at plain ⊢
      obtain ⟨distinct, steps⟩ := numberAll_distinct noSlash ih path [] (order + 1) plain
      rw [Node.subtree_eq]
      constructor
      · rw [List.map_cons, List.nodup_cons]
        refine ⟨?_, distinct⟩
        intro member
        obtain ⟨inner, within, same⟩ := List.mem_map.mp member
        obtain ⟨later, tag, way, _, _, leads⟩ := steps inner within
        rw [leads] at same
        exact List.cons_ne_nil _ _ (List.append_right_eq_self.mp same)
      · intro inner member
        rcases List.mem_cons.mp member with rfl | within
        · exact ⟨[], .none, (List.append_nil _).symm⟩
        · obtain ⟨later, tag, way, plainTag, down, leads⟩ := steps inner within
          exact ⟨_, down.step plainTag, leads⟩

end Distinct

/-- In a numbered tree with plain tags below the root every node has its own path. -/
theorem paths_numbered {root : Node} (plain : ∀ inner ∈ root.numbered.inside, PlainTag inner.tag) :
    (root.numbered.subtree.map (·.path)).Nodup ∧
      ∀ inner ∈ root.numbered.subtree, ∃ way, IsWay way ∧ inner.path = root.tag ++ way := by
  obtain ⟨distinct, ways⟩ := distinctPaths (fun _ => PlainTag.noSlash) root 0 root.tag plain
  refine ⟨distinct, fun inner member => ?_⟩
  obtain ⟨way, steps, leads⟩ := ways inner member
  exact ⟨way, steps.isWay, leads⟩

end SlidePress.Source
