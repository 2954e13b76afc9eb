import SlidePress.Text.Basic

/-! Tables from texts to values, kept in the order of their keys. Attributes, styles and
registries are tables: they are always listed by key, and two tables with the same entries are
the same table. -/
namespace SlidePress

/-- A finite map with its entries in strictly ascending byte order of the keys. -/
structure Table (α : Type) where
  entries : List (Text × α)
  ascending : entries.Pairwise fun first second => first.1 < second.1

namespace Table

variable {α β : Type}

def empty : Table α := ⟨[], .nil⟩

instance : EmptyCollection (Table α) := ⟨empty⟩

instance : Inhabited (Table α) := ⟨empty⟩

def insertEntry (key : Text) (value : α) : List (Text × α) → List (Text × α)
  | [] => [(key, value)]
  | (other, old) :: rest =>
      if key < other then (key, value) :: (other, old) :: rest
      else if key = other then (key, value) :: rest
      else (other, old) :: insertEntry key value rest

theorem mem_insertEntry {key : Text} {value : α} {entries : List (Text × α)} {entry : Text × α}
    (member : entry ∈ insertEntry key value entries) :
    entry = (key, value) ∨ entry ∈ entries := by
  induction entries with
  | nil => simpa [insertEntry] using member
  | cons head rest step =>
    obtain ⟨other, old⟩ := head
    simp only [insertEntry] at member
    split at member
    · simpa using member
    · split at member
      · rcases List.mem_cons.mp member with same | inside
        · exact .inl same
        · exact .inr (List.mem_cons_of_mem _ inside)
      · rcases List.mem_cons.mp member with same | inside
        · exact .inr (same ▸ List.mem_cons_self)
        · exact (step inside).imp id (List.mem_cons_of_mem _)

theorem insertEntry_ascending (key : Text) (value : α) {entries : List (Text × α)}
    (ascending : entries.Pairwise fun first second => first.1 < second.1) :
    (insertEntry key value entries).Pairwise fun first second => first.1 < second.1 := by
  induction entries with
  | nil => simp [insertEntry]
  | cons head rest step =>
    obtain ⟨other, old⟩ := head
    obtain ⟨below, inner⟩ := List.pairwise_cons.mp ascending
    simp only [insertEntry]
    split
    · rename_i less
      refine List.pairwise_cons.mpr ⟨?_, ascending⟩
      intro entry member
      rcases List.mem_cons.mp member with same | inside
      · exact same ▸ less
      · exact List.lt_trans less (below entry inside)
    · split
      · rename_i same
        subst same
        exact List.pairwise_cons.mpr ⟨below, inner⟩
      · rename_i notLess different
        refine List.pairwise_cons.mpr ⟨?_, step inner⟩
        intro entry member
        rcases mem_insertEntry member with same | inside
        · subst same
          exact Std.lt_of_le_of_ne (Std.not_lt.mp notLess) (Ne.symm different)
        · exact below entry inside

def insert (table : Table α) (key : Text) (value : α) : Table α :=
  ⟨insertEntry key value table.entries, insertEntry_ascending key value table.ascending⟩

def get? (table : Table α) (key : Text) : Option α :=
  (table.entries.find? (·.1 == key)).map (·.2)

def contains (table : Table α) (key : Text) : Bool :=
  (table.get? key).isSome

def getD (table : Table α) (key : Text) (default : α) : α :=
  (table.get? key).getD default

/-- The table with a value added under a key that has none; a value that stands there stays. -/
def insertNew (table : Table α) (key : Text) (value : α) : Table α :=
  if table.contains key then table else table.insert key value

/-- The entries of a list, later ones over earlier ones. -/
def ofList (entries : List (Text × α)) : Table α :=
  entries.foldl (fun table entry => table.insert entry.1 entry.2) empty

def size (table : Table α) : Nat :=
  table.entries.length

def filterKeys (table : Table α) (keep : Text → Bool) : Table α :=
  ⟨table.entries.filter fun entry => keep entry.1, table.ascending.filter _⟩

def map (change : α → β) (table : Table α) : Table β :=
  ⟨table.entries.map fun entry => (entry.1, change entry.2),
    List.pairwise_map.mpr table.ascending⟩

end Table

/-- Names with texts as their values: the attributes of an element, or a style. -/
abbrev Properties := Table Text

end SlidePress
