import LocalizedQuery.Proofs.Parts

/-!
# Searching in source order

In source order an expression comes before its children, and these come from left to right. A search
that asks every expression before it goes on to the children (`Searches`) finds what it is asked for
at the first part that has it (`FirstPart`), and nothing only where no part has it.

The first part is described by the way down to it: none of the expressions passed on the way has the
property, and nothing to the left of the way does. So it is not mentioned how it is found.

## Main results

* `Expr.Searches.eq_some_iff`, `Expr.Searches.eq_none_iff` — what a search finds
* `Expr.findReference_eq_some_iff` — the first reference with a property
-/

namespace LocalizedQuery

namespace Expr

variable {β : Type} {P : Expr → Prop} {part whole e : Expr} {look search : Expr → Option β} {b : β}

/-- `part` is the first part of an expression, in source order, that has a property. -/
inductive FirstPart (P : Expr → Prop) (part : Expr) : Expr → Prop
  | here : P part → FirstPart P part part
  | child {before after : List Expr} {e whole : Expr} : ¬P whole →
      whole.children = before ++ e :: after →
      (∀ other ∈ before, ∀ inner : Expr, inner.IsPart other → ¬P inner) →
      FirstPart P part e → FirstPart P part whole

theorem FirstPart.holds (h : FirstPart P part whole) : P part := by
  induction h with
  | here h => exact h
  | child _ _ _ _ ih => exact ih

theorem FirstPart.isPart (h : FirstPart P part whole) : part.IsPart whole := by
  induction h with
  | here => exact .here
  | child _ hchildren _ _ ih =>
    exact .under (hchildren ▸ List.mem_append_right _ (List.mem_cons_self ..)) ih

/-! ## Searches -/

/-- `search` asks `look` at every expression before it goes on to the children, from left to
right. -/
def Searches (look search : Expr → Option β) : Prop :=
  ∀ e, search e = (look e).or (e.children.findSome? search)

/-- A search finds nothing only where there is nothing. -/
theorem Searches.eq_none_iff (h : Searches look search) :
    search e = none ↔ ∀ part, part.IsPart e → look part = none := by
  induction e using induction_on_children with
  | h e ih =>
    rw [h e, Option.or_eq_none_iff, List.findSome?_eq_none_iff]
    constructor
    · rintro ⟨hself, hchildren⟩ part hpart
      rcases within_iff.mp hpart with rfl | ⟨child, hchild, hpart⟩
      · exact hself
      · exact (ih child hchild).mp (hchildren child hchild) part hpart
    · intro hparts
      refine ⟨hparts e .here, fun child hchild => (ih child hchild).mpr fun part hpart => ?_⟩
      exact hparts part (.under hchild hpart)

/-- **A search finds the first part that has what is looked for.** -/
theorem Searches.eq_some_iff (h : Searches look search)
    (hlook : ∀ e, P e ↔ ∃ b, look e = some b) :
    search e = some b ↔ ∃ part, FirstPart P part e ∧ look part = some b := by
  have hnot : ∀ e, ¬P e ↔ look e = none := by
    intro e
    rw [hlook, Option.eq_none_iff_forall_ne_some, not_exists]
  constructor
  · intro hfound
    induction e using induction_on_children with
    | h e ih =>
      rw [h e, Option.or_eq_some_iff] at hfound
      rcases hfound with hself | ⟨hself, hfound⟩
      · exact ⟨e, .here ((hlook e).mpr ⟨b, hself⟩), hself⟩
      · obtain ⟨before, child, after, hchildren, hchild, hbefore⟩ :=
          List.findSome?_eq_some_iff.mp hfound
        have hmem : child ∈ e.children := hchildren ▸ List.mem_append_right _ List.mem_cons_self
        obtain ⟨part, hpart, hb⟩ := ih child hmem hchild
        refine ⟨part, .child ((hnot e).mpr hself) hchildren (fun other hother inner hinner => ?_)
          hpart, hb⟩
        exact (hnot inner).mpr (h.eq_none_iff.mp (hbefore other hother) inner hinner)
  · rintro ⟨part, hpart, hb⟩
    induction hpart with
    | here => rw [h, hb, Option.some_or]
    | @child before after e whole hself hchildren hbefore _ ih =>
      rw [h, (hnot whole).mp hself, Option.none_or, hchildren]
      refine List.findSome?_eq_some_iff.mpr ⟨before, e, after, rfl, ih, fun other hother => ?_⟩
      refine h.eq_none_iff.mpr fun inner hinner => ?_
      exact (hnot inner).mp (hbefore other hother inner hinner)

/-! ## References -/

/-- The references of an expression that is none itself are those of its children, in order. -/
theorem references_eq_flatMap_children (h : ∀ ref, e ≠ .localized ref) :
    e.references = e.children.flatMap references := by
  cases e with
  | localized ref => exact absurd rfl (h ref)
  | caseOf operand branches otherwise =>
    have hbranches : referencesOfBranches branches
        = (branches.flatMap fun branch => [branch.1, branch.2]).flatMap references := by
      induction branches with
      | nil => rfl
      | cons branch rest ih => simp [referencesOfBranches, ih]
    have hoption : ∀ e : Option Expr, referencesOfOption e = e.toList.flatMap references := by
      intro e
      cases e <;> simp [referencesOfOption]
    rw [references, children, List.flatMap_append, List.flatMap_append, hoption, hoption, hbranches]
  | _ => simp [references, children, referencesOfList_eq_flatMap]

/-- A reference chosen by `p`. -/
def IsChosen (p : Reference → Bool) (e : Expr) : Prop :=
  ∃ ref, e = .localized ref ∧ p ref = true

/-- The reference that an expression is, if `p` chooses it. -/
def chosen? (p : Reference → Bool) : Expr → Option Reference
  | .localized ref => if p ref then some ref else none
  | _ => none

theorem chosen?_eq_some_iff {p : Reference → Bool} {ref : Reference} :
    e.chosen? p = some ref ↔ e = .localized ref ∧ p ref = true := by
  cases e with
  | localized other =>
    rw [chosen?, Option.ite_none_right_eq_some, Option.some_inj, localized.injEq]
    constructor
    · rintro ⟨hp, rfl⟩
      exact ⟨rfl, hp⟩
    · rintro ⟨rfl, hp⟩
      exact ⟨hp, rfl⟩
  | _ => simp [chosen?]

theorem isChosen_iff {p : Reference → Bool} (e : Expr) :
    e.IsChosen p ↔ ∃ ref, e.chosen? p = some ref :=
  exists_congr fun _ => chosen?_eq_some_iff.symm

theorem searches_findReference (p : Reference → Bool) : Searches (chosen? p) (findReference p) := by
  intro e
  cases e with
  | localized ref => cases h : p ref <;> simp [findReference, references, chosen?, children, h]
  | _ =>
    rw [findReference, references_eq_flatMap_children (by simp), List.find?_flatMap]
    rfl

/-- **The first reference in source order.** -/
theorem findReference_eq_some_iff {p : Reference → Bool} {ref : Reference} :
    e.findReference p = some ref ↔ FirstPart (IsChosen p) (.localized ref) e := by
  rw [(searches_findReference p).eq_some_iff isChosen_iff]
  constructor
  · rintro ⟨part, hpart, hchosen⟩
    obtain ⟨rfl, -⟩ := chosen?_eq_some_iff.mp hchosen
    exact hpart
  · intro h
    obtain ⟨other, heq, hp⟩ := h.holds
    obtain rfl := localized.inj heq
    exact ⟨_, h, chosen?_eq_some_iff.mpr ⟨rfl, hp⟩⟩

end Expr

end LocalizedQuery
