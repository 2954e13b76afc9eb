import SlidePress.Proofs.Layout.Cancellation
import SlidePress.Proofs.Layout.PeerTrees

/-! Relative boxes. A block that is placed relatively is moved from its place by its offsets, with
everything inside it, and nothing else takes notice: the layout is that of the same document without
the offsets, with the boxes of the block moved. This holds at every place in a document but one. An
item that is stretched over a row is set again from the place to which it was already moved, so that
it is moved once more. -/

namespace SlidePress.Layout

open Polling

variable {α : Type} [Scalar α]

/-! ## Places in trees -/

namespace Styled

/-- The element at a place if it is set as a block. A place is told by the numbers of the children on
the way, which have to be set as blocks too. -/
def blockAt? : List Nat → Styled α → Option (Styled α)
  | [], node => if node.isText || node.tag == "img" then none else some node
  | index :: path, node =>
      if node.tag == "img" then none
      else
        match node.children[index]? with
        | some child => if child.standsAlone node.isFlex then child.blockAt? path else none
        | none => none

def changeAt (change : Styled α → Styled α) : List Nat → Styled α → Styled α
  | [], node => change node
  | _ :: _, .text content style fontSize => .text content style fontSize
  | index :: path, .element head style fontSize children =>
      .element head style fontSize (children.modify index (changeAt change path))

def withoutOffsets : Styled α → Styled α
  | .text content style fontSize => .text content style fontSize
  | .element head style fontSize children =>
      .element head ((style.insert "left" "0px").insert "top" "0px") fontSize children

def pixels? (node : Styled α) (property : Text) : Option α :=
  match (readQuantity? (Text.keyword (node.value property)) : Option (α × Text)) with
  | some (number, unit) => if unit == "px" && Scalar.isNumber number then some number else none
  | none => none

/-- The node at a place is an item that its parent stretches. -/
def stretchedAt : List Nat → Styled α → Prop
  | [], _ => False
  | index :: path, node => ∃ child, node.children[index]? = some child ∧
      (path = [] ∧ Stretches node child ∨ child.stretchedAt path)

end Styled

/-- Two boxes are the same but for what is at a place, where the boxes are in a relation. -/
inductive Box.Apart (relates : Box α → Box α → Prop) : List Nat → Box α → Box α → Prop where
  | here {box set : Box α} (related : relates box set) : Apart relates [] box set
  | inside {frame : Rect α} {tag text : Text} {attributes style : Properties}
      {before after : List (Box α)} {box set : Box α} {path : List Nat}
      (inner : Apart relates path box set) :
      Apart relates (before.length :: path)
        ⟨frame, tag, text, attributes, style, before ++ box :: after⟩
        ⟨frame, tag, text, attributes, style, before ++ set :: after⟩

structure Box.Shifted (shift : Displacement α) (box set : Box α) : Prop where
  frame : set.frame = movedRect shift box.frame
  tag : set.tag = box.tag
  text : set.text = box.text
  attributes : set.attributes = box.attributes
  style : ∀ property, isOffset property = false →
    set.style.get? property = box.style.get? property
  children : set.children = box.children.map (Box.movedBy shift)

def Box.at? : List Nat → Box α → Option (Box α)
  | [], box => some box
  | index :: path, box => box.children[index]?.bind (Box.at? path)

omit [Scalar α] in
theorem Box.Apart.exists_at? {relates : Box α → Box α → Prop} {path : List Nat} {box set : Box α}
    (apart : box.Apart relates path set) :
    ∃ inner innerSet, box.at? path = some inner ∧ set.at? path = some innerSet ∧
      relates inner innerSet := by
  induction apart with
  | here related => exact ⟨_, _, rfl, rfl, related⟩
  | inside inner ih =>
      simp only [Box.at?, List.getElem?_append_right le_rfl, Nat.sub_self, List.getElem?_cons_zero,
        Option.bind_some]
      exact ih

omit [Scalar α] in
theorem exists_modify {β : Type} {items : List β} {index : Nat} {item : β}
    (isItem : items[index]? = some item) :
    ∃ before after, before.length = index ∧ items = before ++ item :: after ∧
      ∀ change, items.modify index change = before ++ change item :: after := by
  induction items generalizing index with
  | nil => cases isItem
  | cons first rest ih =>
      cases index with
      | zero =>
          cases isItem
          exact ⟨[], rest, rfl, rfl, fun change => rfl⟩
      | succ index =>
          obtain ⟨before, after, rfl, rfl, modify⟩ := ih isItem
          exact ⟨first :: before, after, rfl, rfl, fun change => congrArg (first :: ·) (modify change)⟩

omit [Scalar α] in
/-- What is apart inside a child is apart inside its parent. -/
theorem Box.Apart.withChild {relates : Box α → Box α → Prop} {path : List Nat} {index : Nat}
    {box child set : Box α} (apart : child.Apart relates path set)
    (isChild : box.children[index]? = some child) :
    box.Apart relates (index :: path) (box.withChild index set) := by
  obtain ⟨frame, tag, text, attributes, style, children⟩ := box
  obtain ⟨before, after, rfl, inside, -⟩ := exists_modify (show children[index]? = some child from isChild)
  subst inside
  have exchanged : (before ++ child :: after).set before.length set = before ++ set :: after := by simp
  rw [Box.withChild, exchanged]
  exact .inside apart

variable [Exact α] {shift further : Displacement α} {path : List Nat}

theorem Box.Shifted.movedBy {box set : Box α} (shifted : box.Shifted shift set)
    (further : Displacement α) : (box.movedBy further).Shifted shift (set.movedBy further) := by
  rw [Box.movedBy, Box.movedBy, Box.mapFrames_eq, Box.mapFrames_eq]
  refine ⟨?_, shifted.tag, shifted.text, shifted.attributes, shifted.style, ?_⟩
  · dsimp only
    rw [shifted.frame]
    exact movedRect_comm _ _ _
  · dsimp only
    rw [shifted.children, List.map_map, List.map_map]
    exact List.map_congr_left fun box _ => Box.movedBy_comm shift further box

/-- A box that was shifted is moved further. -/
theorem Box.Shifted.add {box set : Box α} (shifted : box.Shifted shift set)
    (further : Displacement α) : box.Shifted (shift + further) (set.movedBy further) := by
  rw [Box.movedBy, Box.mapFrames_eq]
  refine ⟨?_, shifted.tag, shifted.text, shifted.attributes, shifted.style, ?_⟩
  · dsimp only
    rw [shifted.frame, movedRect_movedRect]
  · dsimp only
    rw [shifted.children, List.map_map]
    exact List.map_congr_left fun box _ => Box.movedBy_movedBy shift further box

omit [Exact α] in
theorem Box.Apart.movedBy {relates : Box α → Box α → Prop} {box set : Box α}
    (apart : box.Apart relates path set) (further : Displacement α)
    (carries : ∀ box set, relates box set → relates (box.movedBy further) (set.movedBy further)) :
    (box.movedBy further).Apart relates path (set.movedBy further) := by
  induction apart with
  | here related => exact .here (carries _ _ related)
  | @inside frame tag text attributes style before after box set path inner ih =>
      have length : before.length = (before.map (Box.movedBy further)).length :=
        (List.length_map _).symm
      rw [Box.movedBy, Box.movedBy, Box.mapFrames_eq, Box.mapFrames_eq]
      dsimp only
      rw [List.map_append, List.map_append, List.map_cons, List.map_cons, length]
      exact .inside ih

/-- How boxes of two trees compare that differ by the offsets of an element at a place. -/
def Differs (offset : Displacement α) (again : Prop) (path : List Nat) (shift : Displacement α)
    (box set : Box α) : Prop :=
  ∃ unmoved : Box α, set = unmoved.movedBy shift ∧
    (box.Apart (Box.Shifted offset) path unmoved ∨
      again ∧ box.Apart (Box.Shifted (offset + offset)) path unmoved)

theorem Differs.movedBy {offset : Displacement α} {again : Prop} {box set : Box α}
    (differs : Differs offset again path shift box set) (further : Displacement α) :
    Differs offset again path shift (box.movedBy further) (set.movedBy further) := by
  obtain ⟨unmoved, rfl, apart⟩ := differs
  have carry : ∀ distance : Displacement α, box.Apart (Box.Shifted distance) path unmoved →
      (box.movedBy further).Apart (Box.Shifted distance) path (unmoved.movedBy further) :=
    fun distance apart => apart.movedBy further fun _ _ shifted => shifted.movedBy further
  exact ⟨unmoved.movedBy further, Box.movedBy_comm shift further unmoved,
    apart.imp (carry _) (And.imp_right (carry _))⟩

theorem Differs.drifted {offset : Displacement α} {again : Prop} {box set : Box α}
    (differs : Differs offset again path shift box set) (drift : Drift α) :
    Differs offset again path shift (box.drifted drift) (set.drifted drift) := by
  rw [drift.drifted_eq_movedBy, drift.drifted_eq_movedBy]
  exact differs.movedBy drift.total

/-! ## An element with offsets -/

section Element

omit [Exact α] in
/-- A text that no length can be read from holds no number. -/
theorem readQuantity?_eq_none {value : Text}
    (word : (value.isEmpty || noLengthWords.contains value) = true) :
    (readQuantity? value : Option (α × Text)) = none := by
  have nothing : ∀ word ∈ [] :: noLengthWords, Numeral.read? word = none := by decide +kernel
  have unread : Numeral.read? value = none := by
    rcases Bool.or_eq_true_iff.mp word with empty | listed
    · exact nothing value (List.isEmpty_iff.mp empty ▸ List.mem_cons_self)
    · exact nothing value (List.mem_cons_of_mem _ (List.contains_iff_mem.mp listed))
  rw [readQuantity?, unread]

omit [Exact α] in
theorem offset?_of_pixels? {node : Styled α} {property : Text} {number : α}
    (pixels : node.pixels? property = some number) (percentBase : α) :
    node.offset? property percentBase = some number := by
  unfold Styled.pixels? at pixels
  split at pixels
  · rename_i read unit quantity
    split at pixels
    · rename_i both
      obtain ⟨isPixels, isNumber⟩ := Bool.and_eq_true_iff.mp both
      obtain rfl := Option.some.inj pixels
      have isLength : ¬ ((Text.keyword (node.value property)).isEmpty ||
          noLengthWords.contains (Text.keyword (node.value property))) = true := by
        intro word
        rw [readQuantity?_eq_none word] at quantity
        cases quantity
      have length : node.length? property percentBase = some read := by
        rw [Styled.length?, resolveLength?, if_neg isLength, quantity, beq_iff_eq.mp isPixels]
        rfl
      rw [Styled.offset?, length, Option.filter, if_pos isNumber]
    · cases pixels
  · cases pixels

variable {element : Styled α} {right down : α}

omit [Scalar α] [Exact α] in
theorem positioned_of_relative (relative : element.value "position" = "relative") :
    element.isPositioned = true ∧ element.isAbsolute = false := by
  have position : element.valueD "position" "static" = "relative" := by
    unfold Styled.value styleValueOf styleValue at relative
    unfold Styled.valueD styleValue
    split at relative
    · exact absurd relative (by decide)
    · exact relative
  rw [Styled.isPositioned, Styled.isAbsolute, position, relative]
  decide

omit [Exact α] in
theorem get?_withoutOffsets (style : Properties) {property : Text}
    (another : isOffset property = false) :
    ((style.insert "left" "0px").insert "top" "0px").get? property = style.get? property := by
  rw [isOffset, Bool.or_eq_false_iff, beq_eq_false_iff_ne, beq_eq_false_iff_ne] at another
  rw [Table.get?_insert_of_ne (Ne.symm another.2), Table.get?_insert_of_ne (Ne.symm another.1)]

theorem pixels?_zero {node : Styled α} {property : Text}
    (zero : node.style.get? property = some ("0px" : Text)) : node.pixels? property = some 0.0 := by
  have value : node.value property = Text.keyword "0px" := by
    rw [Styled.value, styleValueOf, styleValue, zero]
  have numeral : Numeral.read? (Text.keyword (Text.keyword "0px")) =
      some (Numeral.decimal false 0 0, ("px" : Text)) := by decide +kernel
  have quantity : (readQuantity? (Text.keyword (Text.keyword "0px")) : Option (α × Text)) =
      some ((0.0 : α), ("px" : Text)) := by
    rw [readQuantity?, numeral]
    dsimp only
    rw [Exact.ofNumeral_zero, if_pos Exact.isFinite_zero]
    rfl
  rw [Styled.pixels?, value, quantity]
  exact if_pos (Bool.and_eq_true_iff.mpr ⟨by decide, Exact.isNumber_zero⟩)

/-- Offsets in pixels move a relative block by as many pixels. -/
theorem total_ownDrift_of_pixels (relative : element.value "position" = "relative")
    (left : element.pixels? "left" = some right) (top : element.pixels? "top" = some down)
    (containingWidth : α) : (ownDrift element containingWidth).total = ⟨right, down⟩ := by
  rw [ownDrift, relative, if_pos (by decide), relativeShift, offset?_of_pixels? left,
    offset?_of_pixels? top]
  dsimp only
  split
  · rename_i nothing
    rw [Bool.and_eq_true] at nothing
    rw [Exact.eq_of_beq _ _ nothing.1, Exact.eq_of_beq _ _ nothing.2]
    rfl
  · exact Displacement.total_drift ⟨right, down⟩

/-- How far the node at the top moves when the one at a place does. -/
def apartAt (offset : Displacement α) : List Nat → Drift α
  | [] => offset.drift
  | _ :: _ => .none

/-- Two nodes whose boxes compare wherever they are placed. -/
structure Tracks (apart : Drift α) (compares : Displacement α → Box α → Box α → Prop)
    (node other : Styled α) : Prop where
  like : node.Like other
  follows : ∀ (drift : Drift α) (placement : Placement α) (area : Rect α),
    (layoutNode node placement).Pairs (layoutNode other (placement.carried drift area))
      fun box set => set.frame = apart.carry (drift.carry box.frame) ∧
        (placement.GoesAlong node drift area → compares drift.total box set)

omit [Exact α] in
theorem get?_withPadding {style another : Properties} {property : Text}
    (same : another.get? property = style.get? property) (padding : Edges α) :
    (withPadding another padding).get? property = (withPadding style padding).get? property := by
  have insert : ∀ {style another : Properties}, another.get? property = style.get? property →
      ∀ key value, (another.insert key value).get? property =
        (style.insert key value).get? property := by
    intro style another same key value
    by_cases isKey : key = property
    · rw [isKey, Table.get?_insert_self, Table.get?_insert_self]
    · rw [Table.get?_insert_of_ne isKey, Table.get?_insert_of_ne isKey, same]
  exact insert (insert (insert (insert same _ _) _ _) _ _) _ _

variable {head : Html.Element} {style : Properties} {fontSize : α} {children : List (Styled α)}

/-- An element is moved by its offsets, with everything inside it. -/
theorem tracks_withoutOffsets (notImage : head.tag ≠ "img")
    (relative : (Styled.element head style fontSize children).value "position" = "relative")
    (left : (Styled.element head style fontSize children).pixels? "left" = some right)
    (top : (Styled.element head style fontSize children).pixels? "top" = some down) :
    Tracks (apartAt ⟨right, down⟩ []) (Differs ⟨right, down⟩ False [])
      (Styled.element head style fontSize children).withoutOffsets
      (.element head style fontSize children) := by
  let moved := Styled.element head style fontSize children
  have same : ∀ property, isOffset property = false →
      moved.withoutOffsets.style.get? property = moved.style.get? property :=
    fun property another => get?_withoutOffsets style another
  have like : moved.withoutOffsets.Like moved :=
    .element same (List.forall₂_same.mpr fun node _ => .refl node)
  have relativeToo : moved.withoutOffsets.value "position" = "relative" :=
    like.value_position.trans relative
  have still : ∀ containingWidth : α,
      (ownDrift moved.withoutOffsets containingWidth).total = .none := by
    refine total_ownDrift_of_pixels relativeToo (pixels?_zero ?_) (pixels?_zero ?_)
    · exact (Table.get?_insert_of_ne (by decide) _ _).trans (Table.get?_insert_self _ _ _)
    · exact Table.get?_insert_self _ _ _
  refine ⟨like, fun drift placement area => ?_⟩
  obtain ⟨peers, samePeers⟩ :=
    exists_samePeers (moves_layoutChildren children) moved.withoutOffsets.isFlex
  have pairs := level_layoutBlock rfl like.toAkin drift.rigid peers placement area
  rw [samePeers.first, samePeers.second] at pairs
  rw [Styled.withoutOffsets, layoutNode, layoutNode, if_neg (by simpa using notImage),
    if_neg (by simpa using notImage)]
  refine pairs.weaken ?_
  rintro _ _ ⟨taken, boxes, sets, rfl, rfl, ends⟩
  rw [Drift.drifted_eq_movedBy, Drift.drifted_eq_movedBy, still,
    total_ownDrift_of_pixels relative left top, Box.movedBy_none]
  refine ⟨Box.frame_movedBy _ _, fun along => ?_⟩
  rw [samePeers.map_drifted ends like.toResembles drift.rigid along, blockBox_carry,
    drift.drifted_eq_movedBy]
  refine ⟨_, Box.movedBy_comm _ _ _, .inl (.here ?_)⟩
  rw [Box.movedBy, Box.mapFrames_eq]
  refine ⟨rfl, rfl, rfl, rfl, fun property another => ?_, rfl⟩
  exact get?_withPadding (same property another).symm _

end Element

/-! ## An element at a place -/

/-- Nodes that track each other are peers where they are set as blocks. -/
def Tracks.peers {apart : Drift α} {compares : Displacement α → Box α → Box α → Prop}
    {node other : Styled α} (tracks : Tracks apart compares node other) {inFlex : Bool}
    (alone : node.standsAlone inFlex = true) : Peers α inFlex where
  first := ⟨node, layoutNode node⟩
  second := ⟨other, layoutNode other⟩
  apart := apart
  rigid := apart.rigid
  alike := tracks.like.toAlike
  level _ _ placement area := (tracks.follows _ placement area).weaken fun _ _ both => both.1
  plain inLine := absurd alone (Bool.eq_false_iff.mp inLine)

section Inside

variable {offset : Displacement α} {box set : Box α} {again stretched : Prop}

/-- What a stretched item does twice is a difference of its own. -/
theorem Differs.repeated
    (differs : Differs offset again path (shift + (apartAt offset path).total) box set)
    (notYet : path = [] → ¬ again) :
    Differs offset (path = [] ∨ again) path shift box set := by
  obtain ⟨unmoved, rfl, apart⟩ := differs
  cases path with
  | cons index rest =>
      rw [apartAt, Drift.total_none, Displacement.add_none]
      exact ⟨unmoved, rfl, apart.imp_right (And.imp_left .inr)⟩
  | nil =>
      obtain ⟨shifted⟩ := apart.resolve_right fun both => notYet rfl both.1
      refine ⟨unmoved.movedBy offset, ?_, .inr ⟨.inl rfl, .here (shifted.add offset)⟩⟩
      rw [Box.movedBy_movedBy, Displacement.add_comm, apartAt, Displacement.total_drift]

omit [Exact α] in
theorem Differs.weaken {more : Prop} (differs : Differs offset again path shift box set)
    (imp : again → more) : Differs offset more path shift box set := by
  obtain ⟨unmoved, same, apart⟩ := differs
  exact ⟨unmoved, same, apart.imp_right (And.imp_left imp)⟩

/-- A difference inside a child is one inside its parent. -/
theorem Differs.inside {index : Nat} {drift : Drift α} {child moved : Box α}
    (differs : Differs offset again path drift.total child moved)
    (isChild : box.children[index]? = some child) :
    Differs offset again (index :: path) drift.total box ((box.drifted drift).withChild index moved) := by
  obtain ⟨unmoved, rfl, apart⟩ := differs
  refine ⟨box.withChild index unmoved, ?_,
    apart.imp (·.withChild isChild) (And.imp_right (·.withChild isChild))⟩
  rw [← drift.drifted_eq_movedBy, ← drift.drifted_eq_movedBy, drift.drifted_withChild]

end Inside

omit [Scalar α] [Exact α] in
theorem Styled.Resembles.standsAlone {node other : Styled α} (resembles : node.Resembles other)
    (inFlex : Bool) : node.standsAlone inFlex = other.standsAlone inFlex := by
  rw [Styled.standsAlone, Styled.standsAlone, resembles.isText, resembles.isAbsolute,
    resembles.isInline]

omit [Exact α] in
theorem Stretches.congr {parent another node other : Styled α} (stretches : Stretches parent node)
    (parents : parent.Resembles another) (nodes : node.Resembles other) :
    Stretches another other := by
  refine ⟨parents.isFlex ▸ stretches.isFlex, parents.isRow ▸ stretches.isRow,
    fun interior => ?_, ?_⟩
  · have align := stretches.align interior
    unfold alignment flexRules at align ⊢
    rwa [parents.valueD (show isPlacing "align-items" = false by decide),
      nodes.valueD (show isPlacing "align-self" = false by decide)] at align
  · obtain ⟨containing, height⟩ := stretches.height
    exact ⟨containing, nodes.fixedHeight? containing ▸ height⟩

omit [Scalar α] [Exact α] in
theorem changeAt_style (change : Styled α → Styled α) (index : Nat) (node : Styled α) :
    (node.changeAt change (index :: path)).style = node.style := by
  cases node <;> rfl

section Offsets

variable {element : Styled α} {right down : α} {inFlex : Bool}

omit [Scalar α] [Exact α] in
theorem exists_of_blockAt?_nil {node : Styled α} (found : node.blockAt? [] = some element) :
    node = element ∧ ∃ head style fontSize children,
      element = .element head style fontSize children ∧ head.tag ≠ "img" := by
  unfold Styled.blockAt? at found
  split at found
  · cases found
  · rename_i isBlock
    obtain rfl := Option.some.inj found
    cases node with
    | text content style fontSize => exact absurd rfl isBlock
    | element head style fontSize children =>
        exact ⟨rfl, head, style, fontSize, children, rfl,
          by simpa [Styled.isText, Styled.tag] using isBlock⟩

omit [Scalar α] [Exact α] in
theorem exists_of_blockAt?_cons {node : Styled α} {index : Nat}
    (found : node.blockAt? (index :: path) = some element) :
    ∃ head style fontSize before child after, before.length = index ∧
      node = .element head style fontSize (before ++ child :: after) ∧ head.tag ≠ "img" ∧
      child.standsAlone node.isFlex = true ∧ child.blockAt? path = some element ∧
      ∀ change, node.changeAt change (index :: path) =
        .element head style fontSize (before ++ child.changeAt change path :: after) := by
  unfold Styled.blockAt? at found
  split at found
  · cases found
  · rename_i notImage
    split at found
    · rename_i child isChild
      split at found
      · rename_i alone
        cases node with
        | text content style fontSize => cases isChild
        | element head style fontSize children =>
            obtain ⟨before, after, length, same, modify⟩ :=
              exists_modify (show children[index]? = some child from isChild)
            refine ⟨head, style, fontSize, before, child, after, length, same ▸ rfl,
              by simpa [Styled.tag] using notImage, alone, found, fun change => ?_⟩
            rw [Styled.changeAt, modify]
      · cases found
    · cases found

/-- Where a child is set in a parent, its boxes compare as the parent asks: a stretched child is set a
second time, further away by its own offsets. -/
theorem Tracks.differs_setAt {parent another child first : Styled α} {index : Nat}
    {placed : Placement α} {drift there : Drift α} {inner innerSet : Box α}
    (tracks : Tracks (apartAt ⟨right, down⟩ path)
      (Differs ⟨right, down⟩ (child.stretchedAt path) path) first child)
    (alone : first.standsAlone inFlex = true) (isChild : parent.children[index]? = some child)
    (resembles : another.Resembles parent)
    (anchored : apartAt ⟨right, down⟩ path = .none ∨ first.isPositioned = true)
    (setAt : (tracks.peers alone).SetAt another drift there)
    (compares : placed.GoesAlong first there (drift.carry placed.positioned) →
      Differs ⟨right, down⟩ (child.stretchedAt path) path there.total inner innerSet) :
    Differs ⟨right, down⟩ (parent.stretchedAt (index :: path)) path drift.total inner innerSet := by
  rcases setAt with rfl | ⟨stretches, rfl⟩
  · exact (compares (.inl rfl)).weaken fun stretched => ⟨_, isChild, .inr stretched⟩
  · have original := stretches.congr resembles tracks.like.toResembles
    have along : placed.GoesAlong first (drift.append (apartAt ⟨right, down⟩ path))
        (drift.carry placed.positioned) :=
      anchored.imp_left fun still => by rw [still, Drift.append_none]
    have differs := compares along
    rw [Drift.total_append] at differs
    refine (Differs.repeated differs ?_).weaken ?_
    · rintro rfl stretched
      exact stretched
    · rintro (isHere | stretched)
      · exact ⟨_, isChild, .inl ⟨isHere, original⟩⟩
      · exact ⟨_, isChild, .inr stretched⟩

/-- What happens to a child at a place happens inside its parent. -/
theorem tracks_inside {head : Html.Element} {style : Properties} {fontSize : α}
    {before after : List (Styled α)} {child : Styled α} (notImage : head.tag ≠ "img")
    (alone : child.standsAlone
      (Styled.element head style fontSize (before ++ child :: after)).isFlex = true)
    (tracks : Tracks (apartAt ⟨right, down⟩ path)
      (Differs ⟨right, down⟩ (child.stretchedAt path) path)
      (child.changeAt Styled.withoutOffsets path) child)
    (isRelative : path = [] → child.value "position" = "relative") :
    Tracks .none
      (Differs ⟨right, down⟩ ((Styled.element head style fontSize
        (before ++ child :: after)).stretchedAt (before.length :: path)) (before.length :: path))
      (.element head style fontSize (before ++ child.changeAt Styled.withoutOffsets path :: after))
      (.element head style fontSize (before ++ child :: after)) := by
  let parent := Styled.element head style fontSize (before ++ child :: after)
  have like : (Styled.element head style fontSize
      (before ++ child.changeAt Styled.withoutOffsets path :: after)).Like parent :=
    .element (fun _ _ => rfl) (forall₂_exchanged .refl tracks.like before after)
  have isChild : parent.children[before.length]? = some child := by simp [parent, Styled.children]
  let first := child.changeAt Styled.withoutOffsets path
  have aloneToo : first.standsAlone parent.isFlex = true :=
    (tracks.like.toResembles.standsAlone _).trans alone
  -- Either the child has no offsets to lose, or it is relative and not absolute.
  have still : (first.style = child.style ∧ apartAt ⟨right, down⟩ path = .none) ∨
      first.value "position" = "relative" := by
    cases path with
    | nil => exact .inr (tracks.like.value_position.trans (isRelative rfl))
    | cons index path => exact .inl ⟨changeAt_style _ _ _, rfl⟩
  have anchored : apartAt ⟨right, down⟩ path = .none ∨ first.isPositioned = true :=
    still.imp And.right fun relative => (positioned_of_relative relative).1
  have absolute : first.isAbsolute = true →
      first.style = child.style ∧ apartAt ⟨right, down⟩ path = .none := by
    intro isAbsolute
    refine still.resolve_right fun relative => ?_
    cases (positioned_of_relative relative).2.symm.trans isAbsolute
  refine ⟨like, fun drift placement area => ?_⟩
  refine (level_inside notImage like.isFlex (tracks.peers aloneToo) rfl rfl drift.rigid placement
    area).weaken ?_
  rintro box set ⟨taken, _, _, -, frame, isInner, -, ends, exchanged⟩
  refine ⟨frame, fun along => ?_⟩
  rw [exchanged along]
  obtain ⟨placed, there, lift, inner, innerSet, ends⟩ :=
    (ends.exists_ends (.of_head head style fontSize _ _) drift.rigid along
      absolute).resolve_left fun inLine => absurd aloneToo (Bool.eq_false_iff.mp inLine.1)
  obtain ⟨_, _, yields, yieldsToo, -, compares⟩ :=
    tracks.follows there placed (drift.carry placed.positioned)
  obtain rfl := yields.unique ends.first
  obtain rfl := yieldsToo.unique ends.second
  rw [ends.isBox] at isInner
  rw [ends.isSet]
  refine Differs.inside (Differs.drifted (Differs.drifted ?_ lift) _) isInner
  exact tracks.differs_setAt aloneToo isChild like.toResembles anchored ends.setAt compares

/-- The offsets of an element at a place move it once, or twice where it is stretched. -/
theorem tracks_changeAt (relative : element.value "position" = "relative")
    (left : element.pixels? "left" = some right) (top : element.pixels? "top" = some down)
    {node : Styled α} (found : node.blockAt? path = some element) :
    Tracks (apartAt ⟨right, down⟩ path) (Differs ⟨right, down⟩ (node.stretchedAt path) path)
      (node.changeAt Styled.withoutOffsets path) node := by
  induction path generalizing node with
  | nil =>
      -- Nothing is stretched at the end of the way, where no parent is left.
      obtain ⟨rfl, head, style, fontSize, children, rfl, notImage⟩ := exists_of_blockAt?_nil found
      exact tracks_withoutOffsets notImage relative left top
  | cons index path ih =>
      obtain ⟨head, style, fontSize, before, child, after, rfl, rfl, notImage, alone, inside, change⟩ :=
        exists_of_blockAt?_cons found
      rw [change]
      refine tracks_inside notImage alone (ih inside) ?_
      rintro rfl
      rw [(exists_of_blockAt?_nil inside).1]
      exact relative

end Offsets

/-! ## Whole documents -/

def Box.atLeast (height : α) (box : Box α) : Box α :=
  { box with frame := { box.frame with height := Scalar.max box.frame.height height } }

omit [Exact α] in
theorem Box.Apart.atLeast {box set : Box α} (apart : box.Apart (Box.Shifted shift) path set)
    (height : α) : (box.atLeast height).Apart (Box.Shifted shift) path (set.atLeast height) := by
  cases apart with
  | inside inner => exact .inside inner
  | here shifted =>
      obtain ⟨frame, tag, text, attributes, style, children⟩ := shifted
      refine .here ⟨?_, tag, text, attributes, style, children⟩
      unfold Box.atLeast
      rw [frame]
      rfl

def styledFreely (author : Css.Stylesheet) (document : Html.Document) : Styled α :=
  (styleDocument author document).freely

/-- The layout of a document, with no pixels for the offsets of the element at a place. -/
def layoutWithoutOffsets (author : Css.Stylesheet) (viewport : Viewport α)
    (document : Html.Document) (path : List Nat) : Box α :=
  (layoutRoot viewport ((styledFreely author document).changeAt Styled.withoutOffsets path)).freely

omit [Exact α] in
theorem layoutFreely_eq (author : Css.Stylesheet) (viewport : Viewport α)
    (document : Html.Document) :
    layoutFreely author viewport document =
      (layoutRoot viewport (styledFreely author document)).freely := by
  have styles : (styleDocument author document : Polling (Styled α)).Cancellable fun _ => True :=
    cancellable_styleDocument author document
  obtain ⟨polls, root, steady⟩ := styles.steady
  obtain ⟨more, box, steadyBox⟩ := (cancellable_layoutRoot viewport root).steady
  have yields : (layoutDocument author viewport document).Yields (some box) :=
    steady.unchecked.bind (yields_poll.bind (steadyBox.unchecked.bind (yields_poll.bind fun _ => rfl)))
  have result : Polled.under? none (layoutDocument author viewport document) = some box :=
    yields.freely
  rw [styledFreely, steady.unchecked.freely, steadyBox.unchecked.freely, layoutFreely, Polled.into,
    result]

def rootPlacement (viewport : Viewport α) : Placement α where
  x := 0.0
  y := 0.0
  availableWidth := viewport.width
  containingWidth := viewport.width
  containingHeight := some viewport.height
  forcedWidth := some viewport.width
  forcedHeight := none
  positioned := ⟨0.0, 0.0, viewport.width, viewport.height⟩

omit [Exact α] in
theorem pairs_rootPlacement {relates : Box α → Box α → Prop} {root other : Styled α}
    {viewport : Viewport α}
    (pairs : (layoutNode root (rootPlacement viewport)).Pairs
      (layoutNode other (rootPlacement viewport)) relates) :
    (layoutRoot viewport root).Pairs (layoutRoot viewport other) fun box set =>
      ∃ inner innerSet, relates inner innerSet ∧ box = inner.atLeast viewport.height ∧
        set = innerSet.atLeast viewport.height :=
  pairs.bind fun _ _ related => .pure ⟨_, _, related, rfl, rfl⟩

omit [Exact α] in
theorem pairs_layoutRoot {relates : Box α → Box α → Prop} {root other : Styled α}
    (viewport : Viewport α)
    (pairs : ∀ placement, (layoutNode root placement).Pairs (layoutNode other placement) relates) :
    (layoutRoot viewport root).Pairs (layoutRoot viewport other) fun box set =>
      ∃ inner innerSet, relates inner innerSet ∧ box = inner.atLeast viewport.height ∧
        set = innerSet.atLeast viewport.height :=
  pairs_rootPlacement (pairs _)

/-- The offsets of a relative block move all its boxes and no others. They are moved once; where the
block is an item that its row stretches, they may be moved twice. -/
theorem relative_offsets_move (author : Css.Stylesheet) (viewport : Viewport α)
    (document : Html.Document) {element : Styled α} {right down : α}
    (found : (styledFreely author document).blockAt? path = some element)
    (relative : element.value "position" = "relative")
    (left : element.pixels? "left" = some right) (top : element.pixels? "top" = some down) :
    (layoutWithoutOffsets author viewport document path).Apart (Box.Shifted ⟨right, down⟩) path
        (layoutFreely author viewport document) ∨
      (styledFreely author document : Styled α).stretchedAt path ∧
        (layoutWithoutOffsets author viewport document path).Apart
          (Box.Shifted (⟨right, down⟩ + ⟨right, down⟩)) path
          (layoutFreely author viewport document) := by
  have tracks := tracks_changeAt relative left top found
  have pairs := pairs_layoutRoot viewport fun placement =>
    (tracks.follows .none placement placement.positioned).weaken fun _ _ both => both.2 (.inl rfl)
  obtain ⟨box, set, ⟨unmoved, rfl, apart⟩, isBox, isSet⟩ := pairs.freely
  rw [layoutFreely_eq, layoutWithoutOffsets, isBox, isSet, Drift.total_none, Box.movedBy_none]
  exact apart.imp (·.atLeast _) (And.imp_right (·.atLeast _))

/-! ## Pages -/

omit [Exact α] in
/-- A relative element with the offsets that are read off it. -/
theorem exists_element (found : Option (Styled α)) (right down : α)
    (position : found.map (·.value "position") = some "relative")
    (left : found.bind (·.pixels? "left") = some right)
    (top : found.bind (·.pixels? "top") = some down) :
    ∃ element, found = some element ∧ element.value "position" = "relative" ∧
      element.pixels? "left" = some right ∧ element.pixels? "top" = some down := by
  obtain ⟨element, rfl, relative⟩ := Option.map_eq_some_iff.mp position
  rw [Option.bind_some] at left top
  exact ⟨element, rfl, relative, left, top⟩

def paragraphs : Html.Document :=
  (Html.Document.parse
    "<p>a</p><p style=\"position:relative;left:5px;top:3px\">b <b>c</b></p><p>d</p>").1

theorem relative_offsets_move_paragraph :
    (layoutWithoutOffsets ⟨[]⟩ ⟨800, 600⟩ paragraphs [1] : Box ℚ).Apart (Box.Shifted ⟨5, 3⟩) [1]
      (layoutFreely ⟨[]⟩ ⟨800, 600⟩ paragraphs) := by
  obtain ⟨element, found, relative, left, top⟩ := exists_element
    ((styledFreely ⟨[]⟩ paragraphs : Styled ℚ).blockAt? [1]) 5 3
    (by decide +kernel) (by decide +kernel) (by decide +kernel)
  have noRow : (styledFreely ⟨[]⟩ paragraphs : Styled ℚ).isFlex = false := by decide +kernel
  refine (relative_offsets_move ⟨[]⟩ ⟨800, 600⟩ paragraphs found relative left top).resolve_right ?_
  rintro ⟨⟨child, -, ⟨-, stretches⟩ | nowhere⟩, -⟩
  · exact absurd stretches.isFlex (Bool.eq_false_iff.mp noRow)
  · exact nowhere

/-- A row of two items. The first one has offsets, and is stretched to the height of the second. -/
def stretchedRow : Html.Document :=
  let item : Text := "<div style=\"position:relative;left:5px;top:3px\">a</div>"
  let higher : Text := "<div style=\"height:100px\">b</div>"
  (Html.Document.parse ("<div style=\"display:flex\">" ++ item ++ higher ++ "</div>")).1

/-- The first item is moved by ten pixels to the right and six down. -/
theorem not_moves_stretched : ∃ element : Styled ℚ,
    (styledFreely ⟨[]⟩ stretchedRow : Styled ℚ).blockAt? [0, 0] = some element ∧
    element.value "position" = "relative" ∧ element.pixels? "left" = some 5 ∧
    element.pixels? "top" = some 3 ∧
    ¬ (layoutWithoutOffsets ⟨[]⟩ ⟨800, 600⟩ stretchedRow [0, 0] : Box ℚ).Apart
      (Box.Shifted ⟨5, 3⟩) [0, 0] (layoutFreely ⟨[]⟩ ⟨800, 600⟩ stretchedRow) := by
  obtain ⟨element, found, relative, left, top⟩ := exists_element
    ((styledFreely ⟨[]⟩ stretchedRow : Styled ℚ).blockAt? [0, 0]) 5 3
    (by decide +kernel) (by decide +kernel) (by decide +kernel)
  refine ⟨element, found, relative, left, top, fun apart => ?_⟩
  have unmoved : ((layoutWithoutOffsets ⟨[]⟩ ⟨800, 600⟩ stretchedRow [0, 0] : Box ℚ).at?
      [0, 0]).map (·.frame.x) = some 0 := by decide +kernel
  have moved : ((layoutFreely ⟨[]⟩ ⟨800, 600⟩ stretchedRow : Box ℚ).at? [0, 0]).map (·.frame.x) =
      some 10 := by decide +kernel
  obtain ⟨box, set, isBox, isSet, shifted⟩ := apart.exists_at?
  rw [isBox] at unmoved
  rw [isSet] at moved
  have first : box.frame.x = 0 := Option.some.inj unmoved
  have second : set.frame.x = 10 := Option.some.inj moved
  have right : set.frame.x = box.frame.x + 5 := congrArg Rect.x shifted.frame
  rw [first, second] at right
  exact absurd right (by decide +kernel)

end SlidePress.Layout
