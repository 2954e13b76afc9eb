import SlidePress.Table

/-! What tables hold. A table answers for each key on its own: setting a value under one key leaves
what stands under the others, and changing or dropping entries acts on each of them alone. -/

namespace SlidePress.Table

variable {α β : Type}

theorem find?_insertEntry_self (key : Text) (value : α) (entries : List (Text × α)) :
    (insertEntry key value entries).find? (·.1 == key) = some (key, value) := by
  induction entries with
  | nil => simp [insertEntry]
  | cons head rest ih =>
      obtain ⟨other, old⟩ := head
      rw [insertEntry]
      split
      · simp
      · split
        · simp
        · rename_i different
          rw [List.find?_cons_of_neg (by simpa using Ne.symm different), ih]

theorem find?_insertEntry_of_ne {key asked : Text} (different : key ≠ asked) (value : α)
    (entries : List (Text × α)) :
    (insertEntry key value entries).find? (·.1 == asked) = entries.find? (·.1 == asked) := by
  have passed : (key == asked) = false := by simpa using different
  induction entries with
  | nil => simp only [insertEntry, List.find?_cons, passed]
  | cons head rest ih =>
      obtain ⟨other, old⟩ := head
      rw [insertEntry]
      split
      · simp only [List.find?_cons, passed]
      · split
        · rename_i same
          simp only [← same, List.find?_cons, passed]
        · rw [List.find?_cons, List.find?_cons, ih]

theorem get?_insert_self (table : Table α) (key : Text) (value : α) :
    (table.insert key value).get? key = some value := by
  rw [get?, insert, find?_insertEntry_self]
  rfl

theorem get?_insert_of_ne {key asked : Text} (different : key ≠ asked) (table : Table α)
    (value : α) : (table.insert key value).get? asked = table.get? asked := by
  rw [get?, insert, find?_insertEntry_of_ne different, get?]

theorem get?_map (change : α → β) (table : Table α) (key : Text) :
    (table.map change).get? key = (table.get? key).map change := by
  rw [get?, map, get?, List.find?_map, Option.map_map, Option.map_map]
  rfl

/-- An entry is found under its key: there is no other one. -/
theorem get?_of_mem {table : Table α} {key : Text} {value : α}
    (member : (key, value) ∈ table.entries) : table.get? key = some value := by
  obtain ⟨entries, ascending⟩ := table
  simp only [get?]
  induction entries with
  | nil => cases member
  | cons head rest ih =>
      obtain ⟨below, inner⟩ := List.pairwise_cons.mp ascending
      rcases List.mem_cons.mp member with same | inside
      · rw [← same, List.find?_cons_of_pos (by simp)]
        rfl
      · have other : head.1 ≠ key := fun same => Std.lt_irrefl (same ▸ below _ inside)
        rw [List.find?_cons_of_neg (by simpa using other)]
        exact ih inner inside

theorem mem_of_get? {table : Table α} {key : Text} {value : α}
    (found : table.get? key = some value) : (key, value) ∈ table.entries := by
  obtain ⟨entry, isEntry, rfl⟩ := Option.map_eq_some_iff.mp found
  have same : (entry.1 == key) = true :=
    List.find?_some (p := fun other : Text × α => other.1 == key) isEntry
  rw [← beq_iff_eq.mp same]
  exact List.mem_of_find?_eq_some isEntry

theorem perm_insertEntry {key : Text} (value : α) {entries : List (Text × α)}
    (absent : ∀ entry ∈ entries, entry.1 ≠ key) :
    (insertEntry key value entries).Perm ((key, value) :: entries) := by
  induction entries with
  | nil => exact .refl _
  | cons head rest ih =>
      obtain ⟨other, old⟩ := head
      have different : ¬ key = other := fun same => absent _ List.mem_cons_self same.symm
      have later := ih fun entry member => absent entry (List.mem_cons_of_mem _ member)
      rw [insertEntry, if_neg different]
      split
      · exact .refl _
      · exact (later.cons (other, old)).trans (.swap _ _ rest)

theorem perm_insertNew {table : Table α} {key : Text} (value : α)
    (absent : ∀ entry ∈ table.entries, entry.1 ≠ key) :
    (table.insertNew key value).entries.Perm ((key, value) :: table.entries) := by
  have missing : table.get? key = none := by
    rw [get?, Option.map_eq_none_iff, List.find?_eq_none]
    exact fun entry member same => absent entry member (beq_iff_eq.mp same)
  rw [insertNew, contains, missing]
  exact perm_insertEntry value absent

/-- Entries with keys of their own, added one after another, are all there. -/
theorem perm_foldl_insertNew {items : List β} {key : β → Text} {value : β → α} {table : Table α}
    (distinct : (items.map key).Nodup)
    (absent : ∀ item ∈ items, ∀ entry ∈ table.entries, entry.1 ≠ key item) :
    (items.foldl (fun table item => table.insertNew (key item) (value item)) table).entries.Perm
      (items.map (fun item => (key item, value item)) ++ table.entries) := by
  induction items generalizing table with
  | nil => exact .refl _
  | cons item rest ih =>
      obtain ⟨alone, others⟩ := List.nodup_cons.mp distinct
      have added := perm_insertNew (value item) (absent item List.mem_cons_self)
      refine (ih others fun other member entry inside => ?_).trans ?_
      · rcases List.mem_cons.mp (added.mem_iff.mp inside) with rfl | old
        · exact fun same => alone (List.mem_map.mpr ⟨other, member, same.symm⟩)
        · exact absent other (List.mem_cons_of_mem _ member) entry old
      · exact (added.append_left _).trans List.perm_middle

/-- A value is added for its own key, and only if there was none. -/
theorem get?_insertNew (table : Table α) (key : Text) (value : α) (asked : Text) :
    (table.insertNew key value).get? asked =
      (table.get? asked).or (if asked = key then some value else none) := by
  rw [insertNew, contains]
  by_cases same : asked = key
  · rw [if_pos same, same]
    cases found : table.get? key with
    | none => simpa using get?_insert_self table key value
    | some old => simpa using found
  · rw [if_neg same, Option.or_none]
    split
    · rfl
    · exact get?_insert_of_ne (Ne.symm same) table value

/-- The table with entries added one after another, each under a key that has none. -/
def addNew (table : Table α) (entries : List (Text × α)) : Table α :=
  entries.foldl (fun table entry => table.insertNew entry.1 entry.2) table

theorem addNew_append (table : Table α) (first second : List (Text × α)) :
    table.addNew (first ++ second) = (table.addNew first).addNew second :=
  List.foldl_append

theorem get?_addNew (table : Table α) (entries : List (Text × α)) (asked : Text) :
    (table.addNew entries).get? asked = (table.get? asked).or (entries.lookup asked) := by
  induction entries generalizing table with
  | nil => exact (Option.or_none ..).symm
  | cons entry rest ih =>
      have split : List.lookup asked (entry :: rest) =
          (if asked = entry.1 then some entry.2 else none).or (rest.lookup asked) := by
        rw [List.lookup_cons]
        by_cases same : asked = entry.1
        · simp [same]
        · rw [beq_eq_false_iff_ne.mpr same, if_neg same]
          rfl
      rw [addNew, List.foldl_cons]
      change ((table.insertNew entry.1 entry.2).addNew rest).get? asked = _
      rw [ih, get?_insertNew, split, Option.or_assoc]

theorem lookup_eq_none_of_not_mem {entries : List (Text × α)} {key : Text}
    (absent : key ∉ entries.map (·.1)) : entries.lookup key = none := by
  rw [List.lookup_eq_none_iff]
  intro entry member
  rw [bne_iff_ne]
  rintro rfl
  exact absent (List.mem_map_of_mem member)

theorem lookup_of_mem {entries : List (Text × α)} {key : Text} {value : α}
    (distinct : (entries.map (·.1)).Nodup) (member : (key, value) ∈ entries) :
    entries.lookup key = some value := by
  induction entries with
  | nil => cases member
  | cons entry rest ih =>
      obtain ⟨alone, others⟩ := List.nodup_cons.mp distinct
      rw [List.lookup_cons]
      rcases List.mem_cons.mp member with rfl | later
      · rw [beq_self_eq_true]
      · have other : (key == entry.1) = false := by
          rw [beq_eq_false_iff_ne]
          rintro rfl
          exact alone (List.mem_map.mpr ⟨_, later, rfl⟩)
        rw [other]
        exact ih others later

theorem mem_of_lookup {entries : List (Text × α)} {key : Text} {value : α}
    (found : entries.lookup key = some value) : (key, value) ∈ entries := by
  obtain ⟨before, after, rfl, -⟩ := List.lookup_eq_some_iff.mp found
  exact List.mem_append_right _ List.mem_cons_self

/-- Entries whose keys are all there add nothing. -/
theorem addNew_of_contains {table : Table α} {entries : List (Text × α)}
    (there : ∀ entry ∈ entries, table.contains entry.1 = true) : table.addNew entries = table := by
  induction entries with
  | nil => rfl
  | cons entry rest ih =>
      obtain ⟨first, others⟩ := List.forall_mem_cons.mp there
      have same : table.insertNew entry.1 entry.2 = table := by rw [insertNew, if_pos first]
      change (table.insertNew entry.1 entry.2).addNew rest = table
      rw [same, ih others]

theorem addNew_addNew (table : Table α) (entries : List (Text × α)) :
    (table.addNew entries).addNew entries = table.addNew entries := by
  refine addNew_of_contains fun entry member => ?_
  have listed : (entries.lookup entry.1).isSome = true :=
    List.lookup_isSome_iff.mpr ⟨entry, member, beq_self_eq_true _⟩
  rw [contains, get?_addNew, Option.isSome_or, listed, Bool.or_true]

/-- Lists that do not speak of a key can be left out of a look-up. -/
theorem lookup_flatMap_filter {items : List β} {entriesOf : β → List (Text × α)} {key : Text}
    (speaks : β → Bool) (silent : ∀ item ∈ items, speaks item = false →
      (entriesOf item).lookup key = none) :
    (items.flatMap entriesOf).lookup key =
      ((items.filter speaks).flatMap entriesOf).lookup key := by
  induction items with
  | nil => rfl
  | cons item rest ih =>
      obtain ⟨first, others⟩ := List.forall_mem_cons.mp silent
      rw [List.flatMap_cons, List.lookup_append, ih others]
      cases isSpoken : speaks item with
      | true => rw [List.filter_cons_of_pos isSpoken, List.flatMap_cons, List.lookup_append]
      | false =>
          rw [List.filter_cons_of_neg (by simp [isSpoken]), first isSpoken, Option.none_or]

/-- Entries whose keys do not pass the test are gone. -/
theorem get?_filterKeys_of_not {keep : Text → Bool} {key : Text} (dropped : keep key = false)
    (table : Table α) : (table.filterKeys keep).get? key = none := by
  have absent : (table.filterKeys keep).entries.find? (·.1 == key) = none := by
    refine List.find?_eq_none.mpr fun entry member same => ?_
    have kept := (List.mem_filter.mp member).2
    rw [beq_iff_eq] at same
    rw [same, dropped] at kept
    cases kept
  rw [get?, absent]
  rfl

end SlidePress.Table
