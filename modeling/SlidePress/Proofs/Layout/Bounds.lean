import Mathlib.Data.List.Induction
import Mathlib.Order.Defs.Unbundled
import SlidePress.Proofs.Layout.MovedLines

/-! Rectangles around rectangles. Joining rectangles one after another gives a rectangle that begins where
the first of them do, and in exact arithmetic the least one around all of them. What is looked up for an
owner is the rectangle that its items are joined to; it could as well be kept in a table with a slot for
every owner, into which the items are joined one by one. -/

namespace SlidePress.Layout

def Covers {α : Type} [Add α] [LE α] (outer inner : Rect α) : Prop :=
  outer.x ≤ inner.x ∧ outer.y ≤ inner.y ∧ inner.right ≤ outer.right ∧ inner.bottom ≤ outer.bottom

/-- A rectangle covers others, and every rectangle that does so covers it. -/
structure IsLeastAround {α : Type} [Add α] [LE α] (frames : List (Rect α)) (around : Rect α) :
    Prop where
  covers : ∀ frame ∈ frames, Covers around frame
  least : ∀ other, (∀ frame ∈ frames, Covers other frame) → Covers other around

variable {α : Type} [Scalar α]

def joinNext (found : Option (Rect α)) (frame : Rect α) : Option (Rect α) :=
  match found with
  | none => some frame
  | some around => some (joinRects around frame)

def joinAll? (frames : List (Rect α)) : Option (Rect α) := frames.foldl joinNext none

theorem joinAll?_concat (frames : List (Rect α)) (frame : Rect α) :
    joinAll? (frames ++ [frame]) = joinNext (joinAll? frames) frame := List.foldl_concat ..

theorem joinAll?_eq_none_iff {frames : List (Rect α)} : joinAll? frames = none ↔ frames = [] := by
  rcases List.eq_nil_or_concat' frames with rfl | ⟨before, last, rfl⟩
  · exact iff_of_true rfl rfl
  · rw [joinAll?_concat]
    refine iff_of_false (fun none => ?_) (List.append_ne_nil_of_right_ne_nil _ (List.cons_ne_nil _ _))
    cases found : joinAll? before with
    | none => rw [found] at none; cases none
    | some around => rw [found] at none; cases none

/-! ## Starts

Where rectangles begin is not rounded, so that much goes for any arithmetic with an order. -/

def IsFirst (starts : List α) (start : α) : Prop :=
  start ∈ starts ∧ ∀ other ∈ starts, ¬ other < start

theorem IsFirst.concat [IsStrictOrder α (· < ·)] {starts : List α} {start : α}
    (first : IsFirst starts start) (next : α) :
    IsFirst (starts ++ [next]) (Scalar.min start next) := by
  obtain ⟨among, noneBefore⟩ := first
  unfold Scalar.min
  split
  · rename_i before
    refine ⟨List.mem_append_right _ List.mem_cons_self, List.forall_mem_append.mpr ⟨?_, ?_⟩⟩
    · exact fun other member less => noneBefore other member (trans_of (· < ·) less before)
    · exact List.forall_mem_singleton.mpr (irrefl_of (· < ·) next)
  · rename_i notBefore
    refine ⟨List.mem_append_left _ among, List.forall_mem_append.mpr ⟨noneBefore, ?_⟩⟩
    exact List.forall_mem_singleton.mpr notBefore

/-- Joined rectangles begin with the first of them, from the left and from the top. -/
theorem isFirst_joinAll? [IsStrictOrder α (· < ·)] {frames : List (Rect α)} {around : Rect α}
    (joined : joinAll? frames = some around) :
    IsFirst (frames.map (·.x)) around.x ∧ IsFirst (frames.map (·.y)) around.y := by
  induction frames using List.reverseRecOn generalizing around with
  | nil => cases joined
  | append_singleton before frame ih =>
      rw [joinAll?_concat] at joined
      rw [List.map_append, List.map_append]
      cases found : joinAll? before with
      | none =>
          rw [found] at joined
          obtain rfl : frame = around := Option.some.inj joined
          rw [joinAll?_eq_none_iff.mp found]
          exact ⟨⟨List.mem_cons_self, List.forall_mem_singleton.mpr (irrefl_of (· < ·) frame.x)⟩,
            List.mem_cons_self, List.forall_mem_singleton.mpr (irrefl_of (· < ·) frame.y)⟩
      | some earlier =>
          rw [found] at joined
          obtain rfl : joinRects earlier frame = around := Option.some.inj joined
          obtain ⟨left, top⟩ := ih found
          exact ⟨left.concat frame.x, top.concat frame.y⟩

/-! ## Exact arithmetic -/

/-- From a start the distance to an end reaches the end. -/
theorem Exact.add_sub_cancel [Exact α] (start stop : α) : start + (stop - start) = stop := by
  rw [Exact.sub_eq, Exact.add_comm, Exact.add_assoc, Exact.add_comm (-start), Exact.add_neg,
    Exact.add_zero]

theorem right_joinRects [Exact α] (first second : Rect α) :
    (joinRects first second).right = Scalar.max first.right second.right :=
  Exact.add_sub_cancel _ _

theorem bottom_joinRects [Exact α] (first second : Rect α) :
    (joinRects first second).bottom = Scalar.max first.bottom second.bottom :=
  Exact.add_sub_cancel _ _

theorem Scalar.max_le {first second bound : α} (below : first ≤ bound) (belowToo : second ≤ bound) :
    Scalar.max first second ≤ bound := by
  unfold Scalar.max
  split
  · exact belowToo
  · exact below

theorem Scalar.le_min {first second bound : α} (above : bound ≤ first) (aboveToo : bound ≤ second) :
    bound ≤ Scalar.min first second := by
  unfold Scalar.min
  split
  · exact aboveToo
  · exact above

theorem covers_joinRects [Exact α] {first second other : Rect α} (covers : Covers other first)
    (coversToo : Covers other second) : Covers other (joinRects first second) := by
  obtain ⟨left, top, right, bottom⟩ := covers
  obtain ⟨leftToo, topToo, rightToo, bottomToo⟩ := coversToo
  refine ⟨Scalar.le_min left leftToo, Scalar.le_min top topToo, ?_, ?_⟩
  · rw [right_joinRects]
    exact Scalar.max_le right rightToo
  · rw [bottom_joinRects]
    exact Scalar.max_le bottom bottomToo

section Ordered

variable [Std.IsLinearOrder α]

theorem covers_refl (rect : Rect α) : Covers rect rect :=
  ⟨Std.le_refl _, Std.le_refl _, Std.le_refl _, Std.le_refl _⟩

theorem Covers.trans {first second third : Rect α} (covers : Covers first second)
    (coversToo : Covers second third) : Covers first third :=
  ⟨Std.le_trans covers.1 coversToo.1, Std.le_trans covers.2.1 coversToo.2.1,
    Std.le_trans coversToo.2.2.1 covers.2.2.1, Std.le_trans coversToo.2.2.2 covers.2.2.2⟩

variable [Std.LawfulOrderLT α]

theorem Scalar.max_bounds (first second : α) :
    first ≤ Scalar.max first second ∧ second ≤ Scalar.max first second := by
  unfold Scalar.max
  split
  · exact ⟨Std.le_of_lt ‹_›, Std.le_refl _⟩
  · exact ⟨Std.le_refl _, Std.not_lt.mp ‹_›⟩

theorem Scalar.min_bounds (first second : α) :
    Scalar.min first second ≤ first ∧ Scalar.min first second ≤ second := by
  unfold Scalar.min
  split
  · exact ⟨Std.le_of_lt ‹_›, Std.le_refl _⟩
  · exact ⟨Std.le_refl _, Std.not_lt.mp ‹_›⟩

variable [Exact α]

theorem joinRects_covers (first second : Rect α) :
    Covers (joinRects first second) first ∧ Covers (joinRects first second) second := by
  obtain ⟨left, leftToo⟩ := Scalar.min_bounds first.x second.x
  obtain ⟨top, topToo⟩ := Scalar.min_bounds first.y second.y
  obtain ⟨right, rightToo⟩ := Scalar.max_bounds first.right second.right
  obtain ⟨bottom, bottomToo⟩ := Scalar.max_bounds first.bottom second.bottom
  rw [← right_joinRects] at right rightToo
  rw [← bottom_joinRects] at bottom bottomToo
  exact ⟨⟨left, top, right, bottom⟩, leftToo, topToo, rightToo, bottomToo⟩

/-- In exact arithmetic rectangles are joined to the least one around them. -/
theorem isLeastAround_joinAll? {frames : List (Rect α)} {around : Rect α}
    (joined : joinAll? frames = some around) : IsLeastAround frames around := by
  induction frames using List.reverseRecOn generalizing around with
  | nil => cases joined
  | append_singleton before frame ih =>
      rw [joinAll?_concat] at joined
      cases found : joinAll? before with
      | none =>
          rw [found] at joined
          obtain rfl : frame = around := Option.some.inj joined
          rw [joinAll?_eq_none_iff.mp found]
          exact ⟨List.forall_mem_singleton.mpr (covers_refl frame),
            fun other covers => covers frame List.mem_cons_self⟩
      | some earlier =>
          rw [found] at joined
          obtain rfl : joinRects earlier frame = around := Option.some.inj joined
          obtain ⟨covers, least⟩ := ih found
          constructor
          · intro inner member
            rcases List.mem_append.mp member with isEarlier | isLast
            · exact (joinRects_covers earlier frame).1.trans (covers inner isEarlier)
            · rw [List.mem_singleton.mp isLast]
              exact (joinRects_covers earlier frame).2
          · intro other coversAll
            obtain ⟨coversEarlier, coversLast⟩ := List.forall_mem_append.mp coversAll
            exact covers_joinRects (least other coversEarlier)
              (coversLast frame List.mem_cons_self)

end Ordered

/-! ## Rectangles of owners -/

/-- The rectangle of an owner comes from the frames of its items. -/
theorem ownerFrame?_eq (frames : List (List Nat × Rect α)) (owner : Nat) :
    ownerFrame? frames owner =
      joinAll? ((frames.filter (·.1.contains owner)).map (·.2)) := by
  rw [joinAll?, List.foldl_map, List.foldl_filter]
  rfl

def joinOwners (table : List (Option (Rect α))) (entry : List Nat × Rect α) :
    List (Option (Rect α)) :=
  entry.1.foldl (fun table owner => table.modify owner (joinNext · entry.2)) table

/-- The table of a number of owners, filled item by item. -/
def ownerTable (count : Nat) (frames : List (List Nat × Rect α)) : List (Option (Rect α)) :=
  frames.foldl joinOwners (List.replicate count none)

theorem length_joinOwners (table : List (Option (Rect α))) (entry : List Nat × Rect α) :
    (joinOwners table entry).length = table.length := by
  obtain ⟨owners, frame⟩ := entry
  induction owners generalizing table with
  | nil => rfl
  | cons owner others ih => exact (ih _).trans (List.length_modify ..)

theorem length_ownerTable (count : Nat) (frames : List (List Nat × Rect α)) :
    (ownerTable count frames).length = count := by
  induction frames using List.reverseRecOn with
  | nil => exact List.length_replicate
  | append_singleton before entry ih =>
      rw [ownerTable, List.foldl_concat, length_joinOwners]
      exact ih

/-- An item is joined once into the slot of each of its owners. -/
theorem getElem?_joinOwners (table : List (Option (Rect α))) {entry : List Nat × Rect α}
    (once : entry.1.Nodup) (owner : Nat) :
    (joinOwners table entry)[owner]? = table[owner]?.map (joinOwned owner · entry) := by
  obtain ⟨owners, frame⟩ := entry
  induction owners generalizing table with
  | nil => exact Option.map_id'.symm
  | cons first others ih =>
      obtain ⟨apart, onceToo⟩ := List.nodup_cons.mp once
      refine (ih _ onceToo).trans ?_
      rw [List.getElem?_modify, Option.map_eq_map, Option.map_map]
      refine Option.map_congr fun found _ => ?_
      dsimp only [Function.comp]
      by_cases same : first = owner
      · subst same
        unfold joinOwned
        rw [if_pos rfl, if_neg (by simpa using apart), if_pos (by simp)]
        rfl
      · unfold joinOwned
        rw [if_neg same, List.contains_cons, beq_false_of_ne (Ne.symm same), Bool.false_or]

/-- The table holds for every owner what is looked up for it. -/
theorem getElem?_ownerTable {count owner : Nat} (within : owner < count)
    {frames : List (List Nat × Rect α)} (once : ∀ entry ∈ frames, entry.1.Nodup) :
    (ownerTable count frames)[owner]? = some (ownerFrame? frames owner) := by
  induction frames using List.reverseRecOn with
  | nil => exact List.getElem?_replicate_of_lt within
  | append_singleton before entry ih =>
      obtain ⟨earlier, last⟩ := List.forall_mem_append.mp once
      rw [ownerTable, List.foldl_concat, getElem?_joinOwners _ (last entry List.mem_cons_self)]
      change (ownerTable count before)[owner]?.map _ = _
      have next : ownerFrame? (before ++ [entry]) owner =
          joinOwned owner (ownerFrame? before owner) entry := List.foldl_concat ..
      rw [ih earlier, next]
      rfl

end SlidePress.Layout
