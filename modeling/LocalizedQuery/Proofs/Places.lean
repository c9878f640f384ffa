import LocalizedQuery.Proofs.Outline
import LocalizedQuery.Proofs.SourceOrder
import Mathlib.Data.List.Basic

/-!
# Places in source order

Source order can be told from the places alone. They are lists of child numbers, and as such they
have a lexicographic order: a place comes before those below it, and of two places whose ways part
the one that goes further left comes first. Going down depth first (`Expr.placedParts`) one meets
every part once for each of its places, and the places increase on the way. These two facts
determine the list, so they say what it means to visit each part once and in source order.

References may be equal and still stand at different places. With their places they are told apart
(`Expr.occurrences`).

## Main results

* `Expr.mem_placedParts`, `Expr.pairwise_placedParts` — each part at each place, in order
* `Expr.mem_occurrences`, `Expr.pairwise_occurrences` — the same of chosen references
* `Expr.references_occurrences` — the references without their places
-/

namespace LocalizedQuery

/-- Numbering the elements of a list does not notice that they are known to be its elements. -/
theorem mapIdx_attach {α β : Type} (l : List α) (f : Nat → α → β) :
    (l.attach.mapIdx fun i a => f i a.1) = l.mapIdx f := by
  refine List.ext_getElem (by simp) fun i hi hi' => ?_
  simp

namespace Expr

variable {e part : Expr} {path : List Nat} {p : Reference → Bool} {ref : Reference}

/-! ## Parts with their places -/

/-- All parts of an expression with their places, depth first: the expression itself and then the
parts of its children, from left to right. -/
def placedParts (e : Expr) : List (List Nat × Expr) :=
  ([], e) :: (e.children.attach.mapIdx fun i child =>
    (placedParts child.1).map fun placed => (i :: placed.1, placed.2)).flatten
termination_by e
decreasing_by exact sizeOf_lt_of_mem_children child.2

/-- The parts below an expression, with their places in it. -/
def partsBelow (e : Expr) : List (List Nat × Expr) :=
  (e.children.mapIdx fun i child =>
    child.placedParts.map fun placed => (i :: placed.1, placed.2)).flatten

theorem placedParts_eq (e : Expr) : e.placedParts = ([], e) :: e.partsBelow := by
  rw [placedParts, partsBelow, mapIdx_attach e.children fun i child =>
    child.placedParts.map fun placed => (i :: placed.1, placed.2)]

theorem mem_partsBelow {placed : List Nat × Expr} :
    placed ∈ e.partsBelow ↔ ∃ i child, e.children[i]? = some child ∧
      ∃ inner ∈ child.placedParts, (i :: inner.1, inner.2) = placed := by
  rw [partsBelow, List.mem_flatten]
  constructor
  · rintro ⟨_, hmem, hplaced⟩
    obtain ⟨i, hi, rfl⟩ := List.mem_mapIdx.mp hmem
    exact ⟨i, _, List.getElem?_eq_getElem hi, List.mem_map.mp hplaced⟩
  · rintro ⟨i, child, hchild, hplaced⟩
    obtain ⟨hi, rfl⟩ := List.getElem?_eq_some_iff.mp hchild
    exact ⟨_, List.mem_mapIdx.mpr ⟨i, hi, rfl⟩, List.mem_map.mpr hplaced⟩

/-- **Each part is met at each of its places.** -/
theorem mem_placedParts : (path, part) ∈ e.placedParts ↔ e.partAt? path = some part := by
  induction path generalizing e with
  | nil =>
    rw [placedParts_eq, List.mem_cons, mem_partsBelow, partAt?, Option.some_inj]
    simp [eq_comm]
  | cons i path ih =>
    rw [placedParts_eq, List.mem_cons, mem_partsBelow, partAt?_cons_eq_some_iff]
    constructor
    · rintro (hself | ⟨j, child, hchild, inner, hinner, heq⟩)
      · simp at hself
      · obtain ⟨⟨rfl, rfl⟩, rfl⟩ := by simpa using heq
        exact ⟨child, hchild, ih.mp hinner⟩
    · rintro ⟨child, hchild, hpart⟩
      exact .inr ⟨i, child, hchild, (path, part), ih.mpr hpart, rfl⟩

/-- **The places increase.** -/
theorem pairwise_placedParts (e : Expr) : e.placedParts.Pairwise fun a b => a.1 < b.1 := by
  induction e using induction_on_children with
  | h e ih =>
    rw [placedParts_eq, List.pairwise_cons, partsBelow, List.pairwise_flatten]
    refine ⟨fun placed hplaced => ?_, fun placed hmem => ?_, ?_⟩
    · obtain ⟨i, -, -, inner, -, rfl⟩ := mem_partsBelow.mp hplaced
      exact List.nil_lt_cons i inner.1
    · obtain ⟨i, hi, rfl⟩ := List.mem_mapIdx.mp hmem
      rw [List.pairwise_map]
      refine (ih _ (List.getElem_mem hi)).imp fun h => ?_
      exact List.cons_lt_cons_iff.mpr (.inr ⟨rfl, h⟩)
    · -- Below different children the first child number decides.
      rw [List.pairwise_iff_getElem]
      intro i j hi hj hlt placed hplaced later hlater
      rw [List.getElem_mapIdx, List.mem_map] at hplaced hlater
      obtain ⟨_, -, rfl⟩ := hplaced
      obtain ⟨_, -, rfl⟩ := hlater
      exact List.cons_lt_cons_iff.mpr (.inl hlt)

/-! ## Chosen references with their places -/

/-- The references chosen by `p` with their places, in source order. -/
def occurrences (p : Reference → Bool) (e : Expr) : List (List Nat × Reference) :=
  e.placedParts.filterMap fun placed => (placed.2.chosen? p).map fun ref => (placed.1, ref)

/-- **Each chosen reference is met at each of its places.** -/
theorem mem_occurrences : (path, ref) ∈ e.occurrences p ↔
    e.partAt? path = some (.localized ref) ∧ p ref = true := by
  rw [occurrences, List.mem_filterMap]
  constructor
  · rintro ⟨⟨path', part⟩, hmem, hchosen⟩
    obtain ⟨ref', hfound, heq⟩ := Option.map_eq_some_iff.mp hchosen
    obtain ⟨rfl, rfl⟩ := Prod.mk.inj heq
    obtain ⟨hpart, hp⟩ := chosen?_eq_some_iff.mp hfound
    exact ⟨(mem_placedParts.mp hmem).trans (congrArg some hpart), hp⟩
  · rintro ⟨hpart, hp⟩
    refine ⟨_, mem_placedParts.mpr hpart, Option.map_eq_some_iff.mpr ⟨ref, ?_, rfl⟩⟩
    exact chosen?_eq_some_iff.mpr ⟨rfl, hp⟩

/-- **The places of chosen references increase**, so none is met twice. -/
theorem pairwise_occurrences (p : Reference → Bool) (e : Expr) :
    (e.occurrences p).Pairwise fun a b => a.1 < b.1 := by
  refine e.pairwise_placedParts.filterMap _ fun a b hlt a' ha b' hb => ?_
  obtain ⟨_, -, rfl⟩ := Option.map_eq_some_iff.mp ha
  obtain ⟨_, -, rfl⟩ := Option.map_eq_some_iff.mp hb
  exact hlt

/-- What is found in all parts is found in the whole and then in the children. -/
theorem filterMap_placedParts {β : Type} (look : Expr → Option β) (e : Expr) :
    (e.placedParts.filterMap fun placed => look placed.2) = (look e).toList ++
      e.children.flatMap fun child => child.placedParts.filterMap fun placed => look placed.2 := by
  have hbelow : (e.partsBelow.filterMap fun placed => look placed.2)
      = e.children.flatMap fun child => child.placedParts.filterMap fun placed => look placed.2 := by
    rw [partsBelow, List.filterMap_flatten, ← mapIdx_const, List.mapIdx_mapIdx, List.flatMap,
      ← mapIdx_const]
    simp only [Function.comp_def, List.filterMap_map]
  rw [placedParts_eq, List.filterMap_cons, hbelow]
  cases look e <;> rfl

/-- **The references without their places.** -/
theorem references_occurrences (p : Reference → Bool) (e : Expr) :
    (e.occurrences p).map Prod.snd = e.references.filter p := by
  have hfound : ∀ e : Expr, (e.occurrences p).map Prod.snd
      = e.placedParts.filterMap fun placed => placed.2.chosen? p := by
    intro e
    simp [occurrences, List.map_filterMap, Function.comp_def]
  rw [hfound]
  induction e using induction_on_children with
  | h e ih =>
    rw [filterMap_placedParts]
    by_cases hleaf : ∃ ref, e = .localized ref
    · obtain ⟨ref, rfl⟩ := hleaf
      cases h : p ref <;> simp [chosen?, children, references, h]
    · have hnone : e.chosen? p = none := Option.eq_none_iff_forall_ne_some.mpr fun ref h =>
        hleaf ⟨ref, (chosen?_eq_some_iff.mp h).1⟩
      rw [hnone, references_eq_flatMap_children fun ref h => hleaf ⟨ref, h⟩, List.filter_flatMap,
        Option.toList_none, List.nil_append]
      exact List.flatMap_congr ih

end Expr

end LocalizedQuery
