import SlidePress.Proofs.Slide.Names
import SlidePress.Proofs.Table

/-! The registry of placeholders on a finished slide. An entry is added only under a name that has
none yet, so a second placeholder of the same name would be left out silently. On a slide there is
no such placeholder, since a shared name is an issue; hence the registry and the placeholders among
the primitives tell the same, name by name and frame by frame. -/

namespace SlidePress.Slide

open Source (Node Tree Size)
open Style

def placeholdersOf (primitives : List Primitive) : List Primitive :=
  primitives.filter isPlaceholderPrimitive

def registered (primitive : Primitive) : Text × Rect Number :=
  (primitive.header.id, primitive.header.frame)

/-- The registry of a slide, against the placeholders on it and those that it was made from. -/
structure FaithfulRegistry (mapped : List Primitive) (deck : Deck) : Prop where
  /-- No two placeholders share a name. -/
  distinct : ((placeholdersOf deck.primitives).map (·.header.id)).Nodup
  /-- There is one entry for each placeholder. -/
  entries : deck.placeholders.entries.Perm ((placeholdersOf deck.primitives).map registered)
  names : ∀ name, deck.placeholders.contains name = true ↔
    ∃ primitive ∈ placeholdersOf deck.primitives, primitive.header.id = name
  frames : ∀ primitive ∈ placeholdersOf deck.primitives,
    deck.placeholders.get? primitive.header.id = some primitive.header.frame
  /-- The frames are those of the placeholders before they were drawn, rounded once. -/
  rounded : ∀ primitive ∈ placeholdersOf mapped,
    deck.placeholders.get? primitive.header.id = some (roundRect primitive.header.frame)

theorem names_placeholdersOf (primitives : List Primitive) :
    (placeholdersOf primitives).map (·.header.id) = namesOf none primitives := by
  rw [placeholdersOf, namesOf, funext isPlaceholderPrimitive_eq]

/-- Placeholders with names of their own are all in the registry. -/
theorem perm_placeholderFrames {primitives : List Primitive}
    (distinct : ((placeholdersOf primitives).map (·.header.id)).Nodup) :
    (placeholderFrames primitives).entries.Perm ((placeholdersOf primitives).map registered) := by
  have absent : ∀ primitive ∈ placeholdersOf primitives,
      ∀ entry ∈ (∅ : Table (Rect Number)).entries, entry.1 ≠ primitive.header.id :=
    fun _ _ _ inside => (List.not_mem_nil inside).elim
  have all : (placeholderFrames primitives).entries.Perm
      ((placeholdersOf primitives).map registered ++ []) :=
    Table.perm_foldl_insertNew distinct absent
  rwa [List.append_nil] at all

/-- A slide holds the rounded primitives and the registry of them. -/
theorem deck_of_assemble {primitives : List Primitive} {issues : List Issue} {canvas : Size}
    {background : Option Color} {deck : Deck}
    (made : assemble primitives issues canvas background = .slide deck) :
    deck.primitives.Perm (primitives.map Primitive.rounded) ∧
      deck.placeholders = placeholderFrames deck.primitives := by
  cases issues with
  | cons issue rest => cases made
  | nil =>
      cases made
      exact ⟨(List.mergeSort_perm primitives _).map _, rfl⟩

theorem isPlaceholder_rounded (primitive : Primitive) :
    isPlaceholderPrimitive primitive.rounded = isPlaceholderPrimitive primitive := by
  obtain ⟨header, body⟩ := primitive
  cases body <;> rfl

theorem rounded_mem_placeholdersOf {primitives : List Primitive} {deck : Deck}
    (same : deck.primitives.Perm (primitives.map Primitive.rounded)) {primitive : Primitive}
    (member : primitive ∈ placeholdersOf primitives) :
    primitive.rounded ∈ placeholdersOf deck.primitives := by
  obtain ⟨inside, isPlaceholder⟩ := List.mem_filter.mp member
  refine List.mem_filter.mpr ⟨same.mem_iff.mpr (List.mem_map_of_mem inside), ?_⟩
  rw [isPlaceholder_rounded]
  exact isPlaceholder

/-- Names of their own are all that placeholders need to be told by the registry. -/
theorem FaithfulRegistry.of_distinct {mapped : List Primitive} {deck : Deck}
    (same : deck.primitives.Perm (mapped.map Primitive.rounded))
    (registry : deck.placeholders = placeholderFrames deck.primitives)
    (distinct : ((placeholdersOf deck.primitives).map (·.header.id)).Nodup) :
    FaithfulRegistry mapped deck := by
  have entries := perm_placeholderFrames distinct
  rw [← registry] at entries
  have frames : ∀ primitive ∈ placeholdersOf deck.primitives,
      deck.placeholders.get? primitive.header.id = some primitive.header.frame :=
    fun _ member => Table.get?_of_mem (entries.mem_iff.mpr (List.mem_map_of_mem member))
  refine ⟨distinct, entries, fun name => ?_, frames, fun primitive member => ?_⟩
  · constructor
    · intro known
      obtain ⟨frame, found⟩ := Option.isSome_iff_exists.mp known
      obtain ⟨primitive, member, equal⟩ :=
        List.mem_map.mp (entries.mem_iff.mp (Table.mem_of_get? found))
      exact ⟨primitive, member, (Prod.mk.inj equal).1⟩
    · rintro ⟨primitive, member, rfl⟩
      rw [Table.contains, frames primitive member]
      rfl
  · exact frames primitive.rounded (rounded_mem_placeholdersOf same member)

/-- Whatever the primitives: the registry of a valid slide is faithful to them. -/
theorem faithfulRegistry_of_slide {validation : ValidationOptions} {tree : Tree}
    {primitives : List Primitive} {findings : List Finding} {canvas : Size}
    {background : Option Color} {deck : Deck}
    (made : assemble primitives (validate validation tree primitives findings) canvas background =
      .slide deck) :
    FaithfulRegistry primitives deck := by
  obtain ⟨same, registry⟩ := deck_of_assemble made
  refine .of_distinct same registry ?_
  rw [names_placeholdersOf]
  exact (names_of_slide made).2

/-- On every finished slide the registry is faithful. -/
theorem faithfulRegistry_convertTree (options : ConversionOptions) (tree : Tree) (deck : Deck)
    (converted : (convertTree options tree).1 = .slide deck) :
    FaithfulRegistry
      (mapDocument (classify options.placeholderClass tree) options.excerptLimit tree).primitives
      deck := by
  rw [outcome_convertTree] at converted
  exact faithfulRegistry_of_slide converted

/-- A placeholder that brings its name stands in the registry under that name. -/
theorem faithfulRegistry_convertTree_chart :
    ∃ deck, (convertTree {}
        (Tree.numbered ⟨some (namedPlaceholderPage "chart"), ⟨720, 405⟩⟩)).1 = .slide deck ∧
      FaithfulRegistry
        (mapDocument
          (classify "placeholder" (Tree.numbered ⟨some (namedPlaceholderPage "chart"), ⟨720, 405⟩⟩))
          50 (Tree.numbered ⟨some (namedPlaceholderPage "chart"), ⟨720, 405⟩⟩)).primitives deck ∧
      deck.primitives.map (·.header.id) = ["text-1", "chart"] := by
  obtain ⟨deck, converted, names⟩ := names_of_valid {} (namedPlaceholderPage "chart") ⟨720, 405⟩
    ["text-1", "chart"] (by decide +kernel) (by decide +kernel)
  exact ⟨deck, converted, faithfulRegistry_convertTree {} _ deck converted, names⟩

end SlidePress.Slide
