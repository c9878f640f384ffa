/-!
# Maps from names

A `NameMap` gives values to names. Its entries are listed in increasing order of the names, each
name once, which is also the order in which they are shown.
-/

namespace LocalizedQuery

/-- Values with names. -/
structure NameMap (α : Type) where
  entries : List (String × α) := []
  /-- The names increase. -/
  sorted : entries.Pairwise (fun a b => a.1 < b.1) := by exact .nil

namespace NameMap

variable {α β : Type}

instance : Inhabited (NameMap α) := ⟨{}⟩

instance [Repr α] : Repr (NameMap α) := ⟨fun map => reprPrec map.entries⟩

/-! ## Adding an entry -/

/-- Puts a value at the place of its name; if the name has one, `merge` makes one of the two. -/
def put (merge : α → α → α) (name : String) (value : α) : List (String × α) → List (String × α)
  | [] => [(name, value)]
  | (other, old) :: rest =>
    if name < other then (name, value) :: (other, old) :: rest
    else if name = other then (other, merge old value) :: rest
    else (other, old) :: put merge name value rest

theorem mem_names_put {merge : α → α → α} {name other : String} {value : α}
    {entries : List (String × α)} :
    other ∈ (put merge name value entries).map Prod.fst ↔
      other = name ∨ other ∈ entries.map Prod.fst := by
  induction entries with
  | nil => simp [put]
  | cons entry rest ih =>
    simp only [put]
    split
    · simp
    · split
      · next h => subst h; simp
      · rw [List.map_cons, List.mem_cons, ih, List.map_cons, List.mem_cons, or_left_comm]

theorem sorted_put {merge : α → α → α} {name : String} {value : α} {entries : List (String × α)}
    (h : entries.Pairwise (fun a b => a.1 < b.1)) :
    (put merge name value entries).Pairwise (fun a b => a.1 < b.1) := by
  induction entries with
  | nil => simp [put]
  | cons entry rest ih =>
    obtain ⟨first, later⟩ := List.pairwise_cons.1 h
    simp only [put]
    split
    · next before =>
      refine List.pairwise_cons.2 ⟨fun b hb => ?_, h⟩
      rcases List.mem_cons.1 hb with rfl | hb
      · exact before
      · exact String.lt_trans before (first b hb)
    · split
      · exact List.pairwise_cons.2 ⟨first, later⟩
      · next notBefore different =>
        refine List.pairwise_cons.2 ⟨fun b hb => ?_, ih later⟩
        rcases mem_names_put.1 (List.mem_map_of_mem (f := Prod.fst) hb) with eq | hb
        · exact eq ▸ Std.lt_of_le_of_ne (Std.not_lt.1 notBefore) (Ne.symm different)
        · obtain ⟨entry', mem, eq⟩ := List.mem_map.1 hb
          exact eq ▸ first entry' mem

/-- Gives a value to a name; if it has one, `merge` makes one of the two. -/
def insertWith (merge : α → α → α) (name : String) (value : α) (map : NameMap α) : NameMap α :=
  ⟨put merge name value map.entries, sorted_put map.sorted⟩

/-- Gives a value to a name, instead of the one it may have. -/
def insert (name : String) (value : α) (map : NameMap α) : NameMap α :=
  map.insertWith (fun _ new => new) name value

/-! ## Reading and changing all entries -/

/-- The value of a name. -/
def get? (map : NameMap α) (name : String) : Option α := map.entries.lookup name

/-- The values, in the order of their names. -/
def values (map : NameMap α) : List α := map.entries.map Prod.snd

/-- How many names have values. -/
def size (map : NameMap α) : Nat := map.entries.length

/-- Changes every value. -/
def map (f : α → β) (m : NameMap α) : NameMap β where
  entries := m.entries.map fun entry => (entry.1, f entry.2)
  sorted := List.pairwise_map.2 m.sorted

end NameMap

end LocalizedQuery
