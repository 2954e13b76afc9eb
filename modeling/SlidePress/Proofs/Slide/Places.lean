import SlidePress.Proofs.Slide.Spots

/-! Places in document order. What is inside a node stands right behind it. Up to the next list item
all spots have the same item around them, unless one that is open ends; and an item around a spot is
on the way to it, so that it is known from the ways whether an item has ended. -/

namespace SlidePress.Slide

open Source (Node)

def Spot.inside (spot : Spot) : List Spot :=
  spotsAll (spot.place.into spot.node) 0 spot.node.children

theorem markerOf_ne_none (tag : Text) : markerOf tag ≠ .none := by
  rw [markerOf]
  split <;> nofun

section Spots

variable {place : Place} {index : Nat} {nodes : List Node} {spot : Spot} {piece : List Spot}

/-- What is inside a node stands right behind it. -/
theorem exists_inside (member : spot ∈ spotsAll place index nodes) :
    ∃ before after, spotsAll place index nodes = before ++ spot :: (spot.inside ++ after) := by
  induction nodes using Source.byForest generalizing place index with
  | nil => cases member
  | cons node rest inner later =>
      rw [spotsAll_cons] at member ⊢
      rcases List.mem_cons.mp member with rfl | behind
      · exact ⟨[], _, rfl⟩
      · rcases List.mem_append.mp behind with within | beyond
        · obtain ⟨before, after, split⟩ := inner within
          refine ⟨⟨place.child index, node⟩ :: before, after ++ spotsAll place (index + 1) rest, ?_⟩
          rw [split]
          simp
        · obtain ⟨before, after, split⟩ := later beyond
          refine ⟨⟨place.child index, node⟩ ::
            (spotsAll ((place.child index).into node) 0 node.children ++ before), after, ?_⟩
          rw [split]
          simp

theorem isPrefix_append {α : Type} {start first second : List α}
    (starts : start <+: first ++ second) :
    start <+: first ∨ ∃ rest, start = first ++ rest ∧ rest <+: second := by
  obtain ⟨behind, whole⟩ := starts
  rcases List.append_eq_append_iff.mp whole with ⟨middle, split, _⟩ | ⟨rest, split, same⟩
  · exact .inl ⟨middle, split.symm⟩
  · exact .inr ⟨rest, split, behind, same.symm⟩

/-- What nodes hand on to what is inside them stays the same up to a node that changes it. -/
theorem eq_of_unchanged {α : Type} {handed : Place → α} {changes : Node → Prop}
    (sibling : ∀ place index, handed (Place.child place index) = handed place)
    (handsOn : ∀ place node, ¬ changes node → handed (Place.into place node) = handed place)
    (starts : piece <+: spotsAll place index nodes)
    (unchanged : ∀ spot ∈ piece, ¬ changes spot.node) :
    ∀ spot ∈ piece, handed spot.place = handed place := by
  induction nodes using Source.byForest generalizing place index piece with
  | nil =>
      rw [List.prefix_nil.mp starts]
      nofun
  | cons node rest inner later =>
      rw [spotsAll_cons] at starts
      rcases List.prefix_cons_iff.mp starts with rfl | ⟨others, rfl, behind⟩
      · nofun
      · have same := (handsOn (place.child index) node (unchanged _ List.mem_cons_self)).trans
          (sibling place index)
        have kept : ∀ spot ∈ others, ¬ changes spot.node := fun spot member =>
          unchanged spot (List.mem_cons_of_mem _ member)
        intro spot member
        rcases List.mem_cons.mp member with rfl | other
        · exact sibling place index
        · rcases isPrefix_append behind with within | ⟨beyond, rfl, farther⟩
          · exact (inner within kept spot other).trans same
          · rcases List.mem_append.mp other with inside | outside
            · apply (inner (List.prefix_refl _) ?_ spot inside).trans same
              exact fun spot member => kept spot (List.mem_append_left _ member)
            · apply later farther ?_ spot outside
              exact fun spot member => kept spot (List.mem_append_right _ member)

theorem item_eq_of_noItem (starts : piece <+: spotsAll place index nodes)
    (noItem : ∀ spot ∈ piece, spot.node.kind ≠ .listItem) :
    ∀ spot ∈ piece, spot.place.item = place.item := by
  apply @eq_of_unchanged _ _ _ _ _ Place.item (·.kind = .listItem) ?_ ?_ starts noItem
  · exact fun _ _ => rfl
  · exact fun _ _ notItem => if_neg notItem

theorem marker_eq_of_noList (starts : piece <+: spotsAll place index nodes)
    (noList : ∀ spot ∈ piece, spot.node.kind ≠ .list) :
    ∀ spot ∈ piece, spot.place.marker = place.marker := by
  apply @eq_of_unchanged _ _ _ _ _ Place.marker (·.kind = .list) ?_ ?_ starts noList
  · exact fun _ _ => rfl
  · exact fun _ _ notList => if_neg notList

/-- The ways of siblings from a number on, and of what is inside them. -/
def Below (place : Place) (index : Nat) (way : List Nat) : Prop :=
  ∃ number, index ≤ number ∧ number :: place.way <:+ way

theorem Below.of_child {way : List Nat} {node : Node}
    (below : Below ((place.child index).into node) 0 way) : Below place index way := by
  obtain ⟨number, _, ends⟩ := below
  exact ⟨index, Nat.le_refl _, (List.suffix_cons _ _).trans ends⟩

theorem Below.of_succ {way : List Nat} (below : Below place (index + 1) way) :
    Below place index way := by
  obtain ⟨number, large, ends⟩ := below
  exact ⟨number, by omega, ends⟩

/-- A way below one of the siblings is not below the later ones. -/
theorem not_below {way : List Nat} (ends : index :: place.way <:+ way) :
    ¬ Below place (index + 1) way := by
  rintro ⟨number, large, other⟩
  have same := (List.suffix_of_suffix_length_le ends other (by simp)).eq_of_length (by simp)
  cases same
  omega

theorem way_below (member : spot ∈ spotsAll place index nodes) :
    Below place index spot.place.way := by
  induction nodes using Source.byForest generalizing place index with
  | nil => cases member
  | cons node rest inner later =>
      rw [spotsAll_cons] at member
      rcases List.mem_cons.mp member with rfl | behind
      · exact ⟨index, Nat.le_refl _, List.suffix_refl _⟩
      · rcases List.mem_append.mp behind with within | beyond
        · exact (inner within).of_child
        · exact (later beyond).of_succ

/-- Inside a node the item is the one around it, or the node itself, or stands below it. -/
theorem item_of_into {node : Node} {item : Option (List Nat)}
    (inside : item = ((place.child index).into node).item ∨
      ∃ way, item = some way ∧ Below ((place.child index).into node) 0 way) :
    item = place.item ∨ ∃ way, item = some way ∧ index :: place.way <:+ way := by
  rcases inside with same | ⟨way, around, number, _, ends⟩
  · by_cases isItem : node.kind = .listItem
    · exact .inr ⟨index :: place.way, same.trans (if_pos isItem), List.suffix_refl _⟩
    · exact .inl (same.trans (if_neg isItem))
  · exact .inr ⟨way, around, (List.suffix_cons _ _).trans ends⟩

/-- The item around a spot is the one around all siblings or stands below one of them. -/
theorem item_below (member : spot ∈ spotsAll place index nodes) :
    spot.place.item = place.item ∨
      ∃ way, spot.place.item = some way ∧ Below place index way := by
  induction nodes using Source.byForest generalizing place index with
  | nil => cases member
  | cons node rest inner later =>
      rw [spotsAll_cons] at member
      rcases List.mem_cons.mp member with rfl | behind
      · exact .inl rfl
      · rcases List.mem_append.mp behind with within | beyond
        · rcases item_of_into (inner within) with same | ⟨way, around, ends⟩
          · exact .inl same
          · exact .inr ⟨way, around, index, Nat.le_refl _, ends⟩
        · rcases later beyond with same | ⟨way, around, below⟩
          · exact .inl same
          · exact .inr ⟨way, around, below.of_succ⟩

/-- An item around a spot is on the way to it. -/
theorem item_isSuffix (onWay : ∀ item, place.item = some item → item <:+ place.way)
    (member : spot ∈ spotsAll place index nodes) :
    ∀ item, spot.place.item = some item → item <:+ spot.place.way := by
  induction nodes using Source.byForest generalizing place index with
  | nil => cases member
  | cons node rest inner later =>
      have toChild : ∀ item, place.item = some item → item <:+ index :: place.way := by
        intro item around
        exact (onWay item around).trans (List.suffix_cons _ _)
      rw [spotsAll_cons] at member
      rcases List.mem_cons.mp member with rfl | behind
      · exact toChild
      · rcases List.mem_append.mp behind with within | beyond
        · refine inner ?_ within
          intro item around
          by_cases isItem : node.kind = .listItem
          · rw [Place.into, if_pos isItem] at around
            cases around
            exact List.suffix_refl _
          · rw [Place.into, if_neg isItem] at around
            exact toChild item around
        · exact later onWay beyond

/-- Without an item beginning between them, two spots have the same item around them if the first's
has not ended at the second. -/
theorem pairwise_item (between : piece <:+: spotsAll place index nodes)
    (noItem : ∀ spot ∈ piece, spot.node.kind ≠ .listItem) :
    piece.Pairwise fun first second =>
      (∀ item, first.place.item = some item → item <:+ second.place.way) →
        first.place.item = second.place.item := by
  induction nodes using Source.byForest generalizing place index piece with
  | nil =>
      rw [List.infix_nil.mp between]
      exact .nil
  | cons node rest inner later =>
      have apart : ∀ {piece : List Spot},
          piece <:+: spotsAll ((place.child index).into node) 0 node.children ++
            spotsAll place (index + 1) rest →
          (∀ spot ∈ piece, spot.node.kind ≠ .listItem) →
          piece.Pairwise fun first second =>
            (∀ item, first.place.item = some item → item <:+ second.place.way) →
              first.place.item = second.place.item := by
        intro piece between noItem
        rcases List.infix_append_iff.mp between with
          within | beyond | ⟨front, back, rfl, ends, starts⟩
        · exact inner within noItem
        · exact later beyond noItem
        · have noFront : ∀ spot ∈ front, spot.node.kind ≠ .listItem := fun spot member =>
            noItem spot (List.mem_append_left _ member)
          have noBack : ∀ spot ∈ back, spot.node.kind ≠ .listItem := fun spot member =>
            noItem spot (List.mem_append_right _ member)
          refine List.pairwise_append.mpr
            ⟨inner ends.isInfix noFront, later starts.isInfix noBack, ?_⟩
          -- Behind the node there is only the item around it; one inside the node has ended.
          intro first inFront second inBack isOpen
          have outer := item_eq_of_noItem starts noBack second inBack
          rcases item_of_into (item_below (ends.mem inFront)) with same | ⟨way, around, below⟩
          · exact same.trans outer.symm
          · have still := below.trans (isOpen way around)
            exact (not_below still (way_below (starts.mem inBack))).elim
      rw [spotsAll_cons] at between
      rcases List.infix_cons_iff.mp between with starts | behind
      · rcases List.prefix_cons_iff.mp starts with rfl | ⟨others, rfl, next⟩
        · exact .nil
        · have same := item_eq_of_noItem (spotsAll_cons place index node rest ▸ starts) noItem
          refine List.pairwise_cons.mpr ⟨?_, ?_⟩
          · intro second member _
            exact (same second (List.mem_cons_of_mem _ member)).symm
          · exact apart next.isInfix fun spot member => noItem spot (List.mem_cons_of_mem _ member)
      · exact apart behind noItem

/-- Inside a list every spot has a marker. -/
theorem marker_ne_none (marked : place.marker ≠ .none)
    (member : spot ∈ spotsAll place index nodes) :
    spot.place.marker ≠ .none := by
  induction nodes using Source.byForest generalizing place index with
  | nil => cases member
  | cons node rest inner later =>
      rw [spotsAll_cons] at member
      rcases List.mem_cons.mp member with rfl | behind
      · exact marked
      · rcases List.mem_append.mp behind with within | beyond
        · refine inner ?_ within
          rw [Place.into]
          dsimp only
          split
          · exact markerOf_ne_none node.tag
          · exact marked
        · exact later marked beyond

end Spots

end SlidePress.Slide
