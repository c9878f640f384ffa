import LocalizedQuery.NameMap
import Mathlib.Data.List.Sort

/-!
# Reading maps from names

Reading a name after an entry was added or maps were put together, so that what is proved of a map
can be stated through `NameMap.get?` alone.

## Main results

* `NameMap.get?_insertWith` — reading after an entry was added
* `NameMap.get?_foldl_insertWith` — reading after all entries of another map were added
* `NameMap.mem_entries_iff` — an entry is what is read at its name
* `NameMap.ext_get?` — maps that are read alike are the same
-/

namespace LocalizedQuery

namespace NameMap

variable {α β : Type} {merge : α → α → α}

theorem lookup_cons_of_ne {key name : String} {value : α} {entries : List (String × α)}
    (h : name ≠ key) : ((key, value) :: entries).lookup name = entries.lookup name := by
  rw [List.lookup_cons, beq_false_of_ne h]

/-- Names before the first entry have no value. -/
theorem lookup_eq_none_of_lt {entries : List (String × α)} {name : String}
    (h : ∀ entry ∈ entries, name < entry.1) : entries.lookup name = none := by
  rw [List.lookup_eq_none_iff]
  intro entry hentry
  exact bne_iff_ne.mpr (Std.ne_of_lt (h entry hentry))

/-- A name behind all others is added at the end. -/
theorem put_of_forall_lt {name : String} {value : α} {entries : List (String × α)}
    (h : ∀ entry ∈ entries, entry.1 < name) :
    put merge name value entries = entries ++ [(name, value)] := by
  induction entries with
  | nil => rfl
  | cons entry rest ih =>
    obtain ⟨hfirst, hrest⟩ := List.forall_mem_cons.mp h
    rw [put, if_neg (Std.not_lt.mpr (Std.le_of_lt hfirst)), if_neg (Std.ne_of_lt hfirst).symm,
      ih hrest, List.cons_append]

theorem lookup_put (name : String) (value : α) {entries : List (String × α)}
    (h : entries.Pairwise (fun a b => a.1 < b.1)) (other : String) :
    (put merge name value entries).lookup other
      = (entries.lookup other).merge merge (if other = name then some value else none) := by
  induction entries with
  | nil => by_cases hname : other = name <;> simp [put, hname]
  | cons entry rest ih =>
    obtain ⟨key, old⟩ := entry
    obtain ⟨first, later⟩ := List.pairwise_cons.mp h
    simp only [put]
    split
    · next before =>
      by_cases hname : other = name
      · subst hname
        have hnone : ((key, old) :: rest).lookup other = none :=
          lookup_eq_none_of_lt fun e he => by
            rcases List.mem_cons.mp he with rfl | he
            · exact before
            · exact String.lt_trans before (first e he)
        rw [List.lookup_cons_self, if_pos rfl, hnone, Option.merge_none_left]
      · rw [lookup_cons_of_ne hname, if_neg hname, Option.merge_none_right]
    · split
      · next same =>
        subst same
        by_cases hname : other = name
        · subst hname
          rw [List.lookup_cons_self, List.lookup_cons_self, if_pos rfl, Option.merge_some_some]
        · rw [lookup_cons_of_ne hname, lookup_cons_of_ne hname, if_neg hname,
            Option.merge_none_right]
      · next different =>
        by_cases hkey : other = key
        · have hname : other ≠ name := fun h => different (h ▸ hkey)
          rw [if_neg hname, Option.merge_none_right, hkey, List.lookup_cons_self,
            List.lookup_cons_self]
        · rw [lookup_cons_of_ne hkey, lookup_cons_of_ne hkey, ih later]

/-- **Reading after an entry was added.** -/
theorem get?_insertWith (name : String) (value : α) (map : NameMap α) (other : String) :
    (map.insertWith merge name value).get? other
      = (map.get? other).merge merge (if other = name then some value else none) :=
  lookup_put name value map.sorted other

@[simp] theorem get?_empty (name : String) : ({} : NameMap α).get? name = none := rfl

@[simp] theorem get?_map (f : α → β) (map : NameMap α) (name : String) :
    (map.map f).get? name = (map.get? name).map f := by
  obtain ⟨entries, sorted⟩ := map
  simp only [get?, NameMap.map]
  clear sorted
  induction entries with
  | nil => rfl
  | cons entry rest ih =>
    obtain ⟨key, old⟩ := entry
    by_cases h : name = key
    · rw [h, List.map_cons, List.lookup_cons_self, List.lookup_cons_self, Option.map_some]
    · rw [List.map_cons, lookup_cons_of_ne h, lookup_cons_of_ne h, ih]

/-- **Reading after all entries of another map were added.** -/
theorem get?_foldl_insertWith {entries : List (String × α)}
    (h : entries.Pairwise (fun a b => a.1 < b.1)) (map : NameMap α) (name : String) :
    (entries.foldl (fun map entry => map.insertWith merge entry.1 entry.2) map).get? name
      = (map.get? name).merge merge (entries.lookup name) := by
  induction entries generalizing map with
  | nil => simp
  | cons entry rest ih =>
    obtain ⟨key, value⟩ := entry
    obtain ⟨first, later⟩ := List.pairwise_cons.mp h
    rw [List.foldl_cons, ih later, get?_insertWith]
    by_cases hname : name = key
    · subst hname
      have hrest : rest.lookup name = none := lookup_eq_none_of_lt first
      rw [hrest, if_pos rfl, Option.merge_none_right, List.lookup_cons_self]
    · rw [if_neg hname, Option.merge_none_right, lookup_cons_of_ne hname]

/-- **An entry is what is read at its name.** -/
theorem mem_entries_iff {map : NameMap α} {name : String} {value : α} :
    (name, value) ∈ map.entries ↔ map.get? name = some value := by
  obtain ⟨entries, sorted⟩ := map
  simp only [get?]
  induction entries with
  | nil => simp
  | cons entry rest ih =>
    obtain ⟨key, old⟩ := entry
    obtain ⟨first, later⟩ := List.pairwise_cons.mp sorted
    rw [List.mem_cons, ih later]
    by_cases h : name = key
    · subst h
      have hrest : rest.lookup name = none := lookup_eq_none_of_lt first
      rw [hrest, List.lookup_cons_self]
      simp [eq_comm]
    · rw [lookup_cons_of_ne h]
      simp [h]

/-- **Maps that are read alike are the same.** -/
theorem ext_get? {map map' : NameMap α} (h : ∀ name, map.get? name = map'.get? name) :
    map = map' := by
  have hentries : ∀ entry, entry ∈ map.entries ↔ entry ∈ map'.entries := by
    intro entry
    rw [mem_entries_iff, mem_entries_iff, h]
  -- Names that increase come in one order only.
  have : Std.Antisymm fun a b : String × α => a.1 < b.1 :=
    ⟨fun _ _ hab hba => absurd hab (Std.not_lt.mpr (Std.le_of_lt hba))⟩
  have : Std.Irrefl fun a b : String × α => a.1 < b.1 := ⟨fun _ => Std.lt_irrefl⟩
  obtain ⟨entries, sorted⟩ := map
  obtain ⟨entries', sorted'⟩ := map'
  congr 1
  exact sorted.eq_of_mem_iff sorted' hentries

end NameMap

end LocalizedQuery
