import LocalizedQuery.Sql.Expr

/-!
# Parts of expressions

What an expression is made of: the expression itself, its children, their children and so on
(`Expr.IsPart`). Fewer of these are written. A test for membership in the empty list is written as a
truth value, so its operand does not show (`Expr.shown`, `Expr.IsShown`). Both are reached by going
down, and differ only in what is gone down to.

## Main results

* `Expr.induction_on_children` — induction from the children to the whole
* `Expr.mem_references_iff` — the references of an expression are its localized parts
-/

namespace LocalizedQuery

namespace Expr

/-- What can be reached from `whole` by going down, each time to one of the expressions that `below`
gives. -/
inductive Within (below : Expr → List Expr) (part : Expr) : Expr → Prop
  | here : Within below part part
  | under {e whole : Expr} : e ∈ below whole → Within below part e → Within below part whole

/-- The direct sub-expressions that are written. -/
def shown : Expr → List Expr
  | .inList _ [] _ => []
  | e => e.children

/-- An expression that stands in another one, or is it. -/
def IsPart (part whole : Expr) : Prop := Within children part whole

/-- An expression that is written where another one is. -/
def IsShown (part whole : Expr) : Prop := Within shown part whole

variable {below below' : Expr → List Expr} {part whole e : Expr}

theorem within_iff :
    Within below part whole ↔ part = whole ∨ ∃ e ∈ below whole, Within below part e := by
  constructor
  · intro h
    cases h with
    | here => exact .inl rfl
    | under he h => exact .inr ⟨_, he, h⟩
  · rintro (rfl | ⟨e, he, h⟩)
    · exact .here
    · exact .under he h

theorem Within.mono (hsub : ∀ e, below e ⊆ below' e) (h : Within below part whole) :
    Within below' part whole := by
  induction h with
  | here => exact .here
  | under he _ ih => exact .under (hsub _ he) ih

theorem Within.trans (h : Within below part e) (h' : Within below e whole) :
    Within below part whole := by
  induction h' with
  | here => exact h
  | under he _ ih => exact .under he ih

theorem shown_subset (e : Expr) : e.shown ⊆ e.children := by
  fun_cases shown e
  · exact List.nil_subset _
  · exact List.Subset.refl _

/-- What is written is a part. -/
theorem IsShown.isPart (h : part.IsShown whole) : part.IsPart whole := h.mono shown_subset

/-- What holds of an expression as soon as it holds of its children, holds of all expressions. -/
@[elab_as_elim]
theorem induction_on_children {motive : Expr → Prop}
    (h : ∀ e, (∀ child ∈ e.children, motive child) → motive e) (e : Expr) : motive e :=
  h e fun child _ => induction_on_children h child
termination_by e
decreasing_by exact sizeOf_lt_of_mem_children ‹_›

/-- The children of a `CASE`, by their places. -/
theorem exists_child_caseOf {P : Expr → Prop} {operand otherwise : Option Expr}
    {branches : List (Expr × Expr)} :
    (∃ child ∈ (caseOf operand branches otherwise).children, P child) ↔
      (∃ e ∈ operand, P e) ∨ (∃ branch ∈ branches, P branch.1 ∨ P branch.2) ∨
        ∃ e ∈ otherwise, P e := by
  have hbranches : (∃ child ∈ branches.flatMap fun branch => [branch.1, branch.2], P child) ↔
      ∃ branch ∈ branches, P branch.1 ∨ P branch.2 := by
    simp only [List.mem_flatMap, List.mem_cons, List.not_mem_nil, or_false]
    constructor
    · rintro ⟨child, ⟨branch, hbranch, rfl | rfl⟩, h⟩
      · exact ⟨branch, hbranch, .inl h⟩
      · exact ⟨branch, hbranch, .inr h⟩
    · rintro ⟨branch, hbranch, h | h⟩
      · exact ⟨branch.1, ⟨branch, hbranch, .inl rfl⟩, h⟩
      · exact ⟨branch.2, ⟨branch, hbranch, .inr rfl⟩, h⟩
  rw [← hbranches]
  simp only [children, List.mem_append, Option.mem_toList, Option.mem_def, or_and_right, exists_or,
    or_assoc]

/-! ## What holds of all parts -/

/-- Every part of an expression has a property. -/
def Everywhere (P : Expr → Prop) (whole : Expr) : Prop := ∀ part, part.IsPart whole → P part

theorem everywhere_iff {P : Expr → Prop} :
    e.Everywhere P ↔ P e ∧ ∀ child ∈ e.children, child.Everywhere P := by
  constructor
  · intro h
    exact ⟨h e .here, fun child hchild part hpart => h part (.under hchild hpart)⟩
  · rintro ⟨hself, hchildren⟩ part hpart
    rcases within_iff.mp hpart with rfl | ⟨child, hchild, hpart⟩
    · exact hself
    · exact hchildren child hchild part hpart

/-! ## References -/

theorem referencesOfList_eq_flatMap (es : List Expr) :
    referencesOfList es = es.flatMap references := by
  induction es with
  | nil => rfl
  | cons e rest ih => rw [referencesOfList, ih, List.flatMap_cons]

theorem mem_referencesOfBranches {ref : Reference} {branches : List (Expr × Expr)} :
    ref ∈ referencesOfBranches branches ↔
      ∃ branch ∈ branches, ref ∈ branch.1.references ∨ ref ∈ branch.2.references := by
  induction branches with
  | nil => simp [referencesOfBranches]
  | cons branch rest ih => simp [referencesOfBranches, ih, or_assoc]

theorem mem_referencesOfOption {ref : Reference} {e : Option Expr} :
    ref ∈ referencesOfOption e ↔ ∃ e' ∈ e, ref ∈ e'.references := by
  cases e <;> simp [referencesOfOption]

/-- A reference is the expression itself or stands in a child. -/
theorem mem_references_step {ref : Reference} {e : Expr} :
    ref ∈ e.references ↔ .localized ref = e ∨ ∃ child ∈ e.children, ref ∈ child.references := by
  cases e with
  | caseOf operand branches otherwise =>
    rw [exists_child_caseOf]
    simp [references, mem_referencesOfOption, mem_referencesOfBranches]
  | _ => simp [references, children, referencesOfList_eq_flatMap, eq_comm]

/-- **The references of an expression are its localized parts.** -/
theorem mem_references_iff {ref : Reference} {e : Expr} :
    ref ∈ e.references ↔ (Expr.localized ref).IsPart e := by
  induction e using induction_on_children with
  | h e ih =>
    rw [mem_references_step, IsPart, within_iff]
    exact or_congr_right (exists_congr fun child => and_congr_right fun hchild => ih child hchild)

end Expr

end LocalizedQuery
