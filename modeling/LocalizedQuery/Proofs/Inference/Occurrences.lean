import LocalizedQuery.Inference.Visitor
import LocalizedQuery.Proofs.Parts
import LocalizedQuery.Sql.JoinKind

/-!
# Where references stand

What inference finds for a reference depends on what stands above it. `Expr.optionalReferences`
collects the references that a backend regards as optional: those that stand below an `OR`, below
an equality with the literal `NULL` or below an `IS NULL`. A backend that joins once for all its
attributes (`bare`) regards every reference as optional until an equality settles it, and forgets at
an equality what was optional below.

Both backends answer from these lists: `kindAmong` is the kind that they give to the references of
one join.

## Implementation notes

The lists are defined by recursion over expressions, while inference goes by families, in which
nested conjunctions are one node and `NULL` literals are left out. `flatMap_conjuncts` and
`flatMap_nonNull` take the one to the other, and `Expr.induction_on_operands` is the induction that
follows the families.
-/

namespace LocalizedQuery

variable {β : Type}

/-! ## Families -/

/-- What holds of an expression as soon as it holds of its operands, holds of all expressions. -/
@[elab_as_elim]
theorem Expr.induction_on_operands {motive : Expr → Prop}
    (h : ∀ e, (∀ operand ∈ (Node.of e).operands, motive operand) → motive e) (e : Expr) :
    motive e :=
  h e fun operand _ => induction_on_operands h operand
termination_by e
decreasing_by exact Node.sizeOf_lt_of_mem_operands ‹_›

/-- What is collected over conjunctions side by side can be collected over their conjuncts. -/
theorem flatMap_conjuncts {f : Expr → List β}
    (hf : ∀ left right, f (.binary .and left right) = f left ++ f right) (e : Expr) :
    (Node.conjuncts e).flatMap f = f e := by
  fun_induction Node.conjuncts e with
  | case1 left right ihl ihr => rw [List.flatMap_append, ihl, ihr, hf]
  | case2 e => simp

theorem eq_null_of_isNullLiteral {e : Expr} (h : e.isNullLiteral = true) :
    e = .literal .null := by
  fun_cases Expr.isNullLiteral e
  · rfl
  · simp_all [Expr.isNullLiteral]

/-- Nothing is collected from the literal `NULL`, so it may be left out. -/
theorem flatMap_nonNull {f : Expr → List β} (hf : f (.literal .null) = []) (es : List Expr) :
    (es.filter fun e => !e.isNullLiteral).flatMap f = es.flatMap f := by
  induction es with
  | nil => rfl
  | cons e rest ih =>
    cases h : e.isNullLiteral with
    | true => rw [eq_null_of_isNullLiteral h] at *; simp [h, ih, hf]
    | false => simp [h, ih]

namespace Expr

/-! ## Optional references -/

mutual

/-- The references that are regarded as optional. -/
def optionalReferences (bare : Bool) : Expr → List Reference
  | .localized ref => if bare then [ref] else []
  | .binary .or left right => left.references ++ right.references
  | .binary .eq left right =>
    if left.isNullLiteral || right.isNullLiteral then left.references ++ right.references
    else if bare then [] else optionalReferences bare left ++ optionalReferences bare right
  | .binary _ left right => optionalReferences bare left ++ optionalReferences bare right
  | .isNull e false => e.references
  | .isNull e true | .unary _ e | .paren e => optionalReferences bare e
  | .call _ args => optionalReferencesOfList bare args
  | .inList e values negated =>
    if bare && !negated then []
    else optionalReferences bare e ++ optionalReferencesOfList bare values
  | .between e low high _ =>
    optionalReferences bare e ++ optionalReferences bare low ++ optionalReferences bare high
  | .caseOf .. | .column .. | .literal _ | .star _ => []

/-- The references of a list of expressions that are regarded as optional. -/
def optionalReferencesOfList (bare : Bool) : List Expr → List Reference
  | [] => []
  | e :: rest => optionalReferences bare e ++ optionalReferencesOfList bare rest

end

theorem optionalReferencesOfList_eq_flatMap (bare : Bool) (es : List Expr) :
    optionalReferencesOfList bare es = es.flatMap (optionalReferences bare) := by
  induction es with
  | nil => rfl
  | cons e rest ih => rw [optionalReferencesOfList, ih, List.flatMap_cons]

end Expr

namespace Node

/-- The references of the operands, or the reference that the node is. -/
def references : Node Expr → List Reference
  | .localized ref => [ref]
  | node => node.operands.flatMap Expr.references

/-- The optional references, from those of the operands. -/
def optionalReferences (bare : Bool) : Node Expr → List Reference
  | .localized ref => if bare then [ref] else []
  | .equality operands null =>
    if null then operands.flatMap Expr.references
    else if bare then [] else operands.flatMap (Expr.optionalReferences bare)
  | .or left right => left.references ++ right.references
  | node => node.operands.flatMap (Expr.optionalReferences bare)

theorem flatMap_comparison {f : Expr → List Reference} (hf : f (.literal .null) = [])
    (left right : Expr) :
    (comparison [left, right]).operands.flatMap f = f left ++ f right := by
  rw [comparison, operands, flatMap_nonNull hf]
  simp

/-- The references of an expression are those of its operands, if inference sees through it. -/
theorem references_of {e : Expr} (h : ∀ form, of e ≠ .unsupported form) :
    (of e).references = e.references := by
  have hand : ∀ e : Expr, (conjuncts e).flatMap Expr.references = e.references :=
    flatMap_conjuncts fun _ _ => rfl
  fun_cases of e with
  | case2 left right => exact flatMap_comparison rfl left right
  | case4 left right => simp [references, operands, hand, Expr.references]
  | case7 e values =>
    simp [references, operands, flatMap_nonNull (f := Expr.references) rfl, Expr.references,
      Expr.referencesOfList_eq_flatMap]
  | case14 => exact absurd rfl (h _)
  | _ => simp_all [of, references, operands, Expr.references, Expr.referencesOfList_eq_flatMap]

theorem optionalReferences_comparison (bare : Bool) (left right : Expr) :
    (comparison [left, right]).optionalReferences bare
      = (Expr.binary .eq left right).optionalReferences bare := by
  have hall := flatMap_comparison (f := Expr.references) rfl left right
  have hoptional := flatMap_comparison (f := Expr.optionalReferences bare) rfl left right
  rw [comparison, operands] at hall hoptional
  rw [comparison, optionalReferences, hall, hoptional, Expr.optionalReferences]
  simp

/-- The optional references of an expression follow from its operands. -/
theorem optionalReferences_of (bare : Bool) (e : Expr) :
    (of e).optionalReferences bare = e.optionalReferences bare := by
  have hand : ∀ e : Expr, (conjuncts e).flatMap (Expr.optionalReferences bare)
      = e.optionalReferences bare := flatMap_conjuncts fun _ _ => rfl
  fun_cases of e with
  | case2 left right => exact optionalReferences_comparison bare left right
  | case4 left right => simp [optionalReferences, operands, hand, Expr.optionalReferences]
  | case5 op left right =>
    cases op <;> simp_all [optionalReferences, operands, Expr.optionalReferences]
  | case7 e values =>
    cases bare <;>
      simp [optionalReferences, flatMap_nonNull (f := Expr.optionalReferences _) rfl,
        Expr.optionalReferences, Expr.optionalReferencesOfList_eq_flatMap]
  | _ =>
    simp [optionalReferences, operands, Expr.optionalReferences,
      Expr.optionalReferencesOfList_eq_flatMap]

end Node

theorem flatMap_subset {f g : Expr → List Reference} {es : List Expr} (h : ∀ e ∈ es, f e ⊆ g e) :
    es.flatMap f ⊆ es.flatMap g := by
  intro ref href
  obtain ⟨e, he, href⟩ := List.mem_flatMap.mp href
  exact List.mem_flatMap.mpr ⟨e, he, h e he href⟩

theorem Node.optionalReferences_subset {bare : Bool} {node : Node Expr}
    (h : ∀ operand ∈ node.operands, operand.optionalReferences bare ⊆ operand.references) :
    node.optionalReferences bare ⊆ node.references := by
  cases node with
  | localized ref => cases bare <;> simp [optionalReferences, references]
  | equality operands null =>
    have hsub := flatMap_subset h
    cases null <;> cases bare <;> simp_all [optionalReferences, references, Node.operands]
  | or left right => simp [optionalReferences, references, operands]
  | _ => exact flatMap_subset h

/-- An optional reference is one of the references. -/
theorem Expr.optionalReferences_subset (bare : Bool) (e : Expr) :
    e.optionalReferences bare ⊆ e.references := by
  induction e using Expr.induction_on_operands with
  | h e ih =>
    rw [← Node.optionalReferences_of]
    by_cases hform : ∃ form, Node.of e = .unsupported form
    · obtain ⟨form, hform⟩ := hform
      simp [hform, Node.optionalReferences, Node.operands]
    · rw [← Node.references_of fun form h => hform ⟨form, h⟩]
      exact Node.optionalReferences_subset ih

/-! ## Hidden references -/

/-- No `CASE` hides a reference chosen by `owns`. -/
def Expr.Exposes (owns : Reference → Bool) (e : Expr) : Prop :=
  ∀ c ∈ e.outermostCases, hiddenReference owns "CASE" c = none

theorem Expr.outermostCasesOfList_eq_flatMap (es : List Expr) :
    outermostCasesOfList es = es.flatMap outermostCases := by
  induction es with
  | nil => rfl
  | cons e rest ih => rw [outermostCasesOfList, ih, List.flatMap_cons]

theorem Node.outermostCases_of {e : Expr} (h : ∀ form, of e ≠ .unsupported form) :
    (of e).operands.flatMap Expr.outermostCases = e.outermostCases := by
  have hand : ∀ e : Expr, (conjuncts e).flatMap Expr.outermostCases = e.outermostCases :=
    flatMap_conjuncts fun _ _ => rfl
  fun_cases of e with
  | case2 left right =>
    rw [comparison, operands, flatMap_nonNull (f := Expr.outermostCases) rfl]
    simp [Expr.outermostCases]
  | case4 left right => simp [operands, hand, Expr.outermostCases]
  | case7 e values =>
    simp [operands, flatMap_nonNull (f := Expr.outermostCases) rfl, Expr.outermostCases,
      Expr.outermostCasesOfList_eq_flatMap]
  | case14 => exact absurd rfl (h _)
  | _ => simp [operands, Expr.outermostCases, Expr.outermostCasesOfList_eq_flatMap]

/-- Whether an expression is a `CASE`. -/
def Expr.isCase : Expr → Bool
  | .caseOf .. => true
  | _ => false

/-- Inference sees through everything but a `CASE`. -/
theorem Node.of_ne_unsupported_iff {e : Expr} :
    (∀ form, of e ≠ .unsupported form) ↔ e.isCase = false := by
  fun_cases of e <;> simp [comparison, Expr.isCase]

/-- The only form that inference does not see through is `CASE`. -/
theorem Node.outermostCases_of_unsupported {e : Expr} {form : String}
    (h : of e = .unsupported form) : form = "CASE" ∧ e.outermostCases = [e] := by
  fun_cases of e <;> simp_all [of, comparison, Expr.outermostCases]

/-- A form hides nothing exactly if none of its references is chosen. -/
theorem hiddenReference_eq_none_iff {owns : Reference → Bool} {form : String} {e : Expr} :
    hiddenReference owns form e = none ↔ ∀ ref ∈ e.references, owns ref = false := by
  simp [hiddenReference, Expr.findReference]

/-! ## The kind of a join -/

/-- The kind of the join that serves the references chosen by `p`, from all references of an
expression and from its optional ones. -/
def kindAmong (p : Reference → Bool) (all optional : List Reference) : Option JoinKind :=
  if optional.any p then some .outer else if all.any p then some .inner else none

section

variable {p : Reference → Bool} {all all' optional optional' : List Reference}

theorem kindAmong_append :
    kindAmong p (all ++ all') (optional ++ optional')
      = (kindAmong p all optional).merge JoinKind.merge (kindAmong p all' optional') := by
  cases h₁ : optional.any p <;> cases h₂ : optional'.any p <;> cases h₃ : all.any p <;>
    cases h₄ : all'.any p <;> simp [kindAmong, h₁, h₂, h₃, h₄, JoinKind.merge]

theorem any_of_subset (h : optional ⊆ all) (hany : optional.any p = true) : all.any p = true := by
  obtain ⟨ref, href, hp⟩ := List.any_eq_true.mp hany
  exact List.any_eq_true.mpr ⟨ref, h href, hp⟩

/-- There is a join exactly if there is a reference. -/
theorem kindAmong_isSome (h : optional ⊆ all) : (kindAmong p all optional).isSome = all.any p := by
  cases hoptional : optional.any p with
  | true => simp [kindAmong, hoptional, any_of_subset h hoptional]
  | false => cases hall : all.any p <;> simp [kindAmong, hoptional, hall]

theorem exists_of_kindAmong_eq_some (h : optional ⊆ all) {kind : JoinKind}
    (hkind : kindAmong p all optional = some kind) : ∃ ref ∈ all, p ref = true := by
  have hsome := kindAmong_isSome (p := p) h
  rw [hkind, Option.isSome_some, eq_comm, List.any_eq_true] at hsome
  exact hsome

/-- To make a join outer is to regard all its references as optional. -/
theorem map_outer_kindAmong (h : optional ⊆ all) :
    (kindAmong p all optional).map (fun _ => JoinKind.outer) = kindAmong p all all := by
  have hsome := kindAmong_isSome (p := p) h
  cases hkind : kindAmong p all optional with
  | none =>
    rw [hkind, Option.isSome_none, eq_comm] at hsome
    simp only [kindAmong, hsome, Bool.false_eq_true, if_false, Option.map_none]
  | some kind =>
    rw [hkind, Option.isSome_some, eq_comm] at hsome
    simp only [kindAmong, hsome, if_true, Option.map_some]

theorem kindAmong_nil : kindAmong p all [] = if all.any p then some .inner else none := rfl

theorem kindAmong_self : kindAmong p all all = if all.any p then some .outer else none := by
  cases hany : all.any p <;> simp only [kindAmong, hany, Bool.false_eq_true, if_false, if_true]

theorem kindAmong_eq_outer_iff :
    kindAmong p all optional = some .outer ↔ optional.any p = true := by
  cases hoptional : optional.any p <;> cases hall : all.any p <;>
    simp only [kindAmong, hoptional, hall, Bool.false_eq_true, if_false, if_true] <;> simp

theorem kindAmong_eq_inner_iff :
    kindAmong p all optional = some .inner ↔ all.any p = true ∧ optional.any p = false := by
  cases hoptional : optional.any p <;> cases hall : all.any p <;>
    simp only [kindAmong, hoptional, hall, Bool.false_eq_true, if_false, if_true] <;> simp

end

end LocalizedQuery
