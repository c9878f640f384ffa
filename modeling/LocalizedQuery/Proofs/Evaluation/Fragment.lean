import LocalizedQuery.Proofs.Evaluation.Outlook
import LocalizedQuery.Proofs.Inference.Occurrences

/-!
# Fragments of predicates

The predicates that are spoken of elsewhere, by how they are built. At the bottom stand leaves
(`Expr.IsLeaf`): columns, literals and localized attributes. A condition on leaves is an atom
(`Expr.IsAtom`). Atoms are connected by `AND` and `OR` (`Expr.Positive`) or by `NOT`, too
(`Expr.Logical`).

None of them contains a `CASE`, so none hides a reference. What a leaf and a comparison may come to
is told by few cases (`Expr.IsLeaf.cases_of_known`, `Outlook.operated_forms`).
-/

namespace LocalizedQuery

/-- The operators that compare. -/
def BinaryOperator.Compares (op : BinaryOperator) : Prop :=
  op ∈ [.eq, .ne, .lt, .gt, .le, .ge, .like]

namespace Expr

/-- A column or a literal. -/
inductive IsPlain : Expr → Prop
  | column (table : Option String) (name : String) : IsPlain (.column table name)
  | literal (l : Literal) : IsPlain (.literal l)

/-- A column, a literal or a localized attribute. -/
inductive IsLeaf : Expr → Prop
  | plain {e : Expr} : e.IsPlain → IsLeaf e
  | localized (ref : Reference) : IsLeaf (.localized ref)

/-- A condition on leaves: a leaf by itself, a comparison, a test for `NULL`, membership in a list
that is `listed`, or a range whose ends are `bound`. -/
inductive IsAtom (listed : List Expr → Prop) (bound : Expr → Prop) : Expr → Prop
  | leaf {e : Expr} : e.IsLeaf → IsAtom listed bound e
  | comparison {op : BinaryOperator} {left right : Expr} : op.Compares → left.IsLeaf →
      right.IsLeaf → IsAtom listed bound (.binary op left right)
  | isNull {e : Expr} (negated : Bool) : e.IsLeaf → IsAtom listed bound (.isNull e negated)
  | inList {e : Expr} {values : List Expr} (negated : Bool) : e.IsLeaf → listed values →
      IsAtom listed bound (.inList e values negated)
  | between {e low high : Expr} (negated : Bool) : e.IsLeaf → bound low → bound high →
      IsAtom listed bound (.between e low high negated)

/-- A condition on leaves in which references are not listed and do not bound a range, and no list
is empty. -/
def IsSimple : Expr → Prop :=
  IsAtom (fun values => values ≠ [] ∧ ∀ e ∈ values, e.IsPlain) IsPlain

/-- Simple conditions connected by `AND` and `OR`. -/
inductive Positive : Expr → Prop
  | simple {e : Expr} : e.IsSimple → Positive e
  | and {left right : Expr} : Positive left → Positive right → Positive (.binary .and left right)
  | or {left right : Expr} : Positive left → Positive right → Positive (.binary .or left right)
  | paren {e : Expr} : Positive e → Positive (.paren e)

/-- Conditions on leaves connected by `AND`, `OR` and `NOT`. -/
inductive Logical : Expr → Prop
  | atom {e : Expr} : e.IsAtom (fun values => ∀ e ∈ values, e.IsLeaf) IsLeaf → Logical e
  | and {left right : Expr} : Logical left → Logical right → Logical (.binary .and left right)
  | or {left right : Expr} : Logical left → Logical right → Logical (.binary .or left right)
  | not {e : Expr} : Logical e → Logical (.unary .not e)
  | paren {e : Expr} : Logical e → Logical (.paren e)

/-! ## Nothing is hidden -/

variable {e : Expr}

theorem IsPlain.outermostCases_eq (h : e.IsPlain) : e.outermostCases = [] := by
  cases h <;> rfl

theorem IsLeaf.outermostCases_eq (h : e.IsLeaf) : e.outermostCases = [] := by
  cases h with
  | plain h => exact h.outermostCases_eq
  | localized ref => rfl

theorem IsAtom.outermostCases_eq
    (h : e.IsAtom (fun values => ∀ e ∈ values, e.IsLeaf) IsLeaf) : e.outermostCases = [] := by
  cases h with
  | leaf h => exact h.outermostCases_eq
  | comparison _ hleft hright =>
    rw [outermostCases, hleft.outermostCases_eq, hright.outermostCases_eq, List.append_nil]
  | isNull _ h => exact h.outermostCases_eq
  | inList _ h hvalues =>
    rw [outermostCases, h.outermostCases_eq, outermostCasesOfList_eq_flatMap, List.nil_append,
      List.flatMap_eq_nil_iff]
    exact fun value hvalue => (hvalues value hvalue).outermostCases_eq
  | between _ h hlow hhigh =>
    rw [outermostCases, h.outermostCases_eq, hlow.outermostCases_eq, hhigh.outermostCases_eq,
      List.append_nil, List.append_nil]

theorem Logical.outermostCases_eq (h : e.Logical) : e.outermostCases = [] := by
  induction h with
  | atom h => exact h.outermostCases_eq
  | and _ _ ihl ihr | or _ _ ihl ihr => rw [outermostCases, ihl, ihr, List.append_nil]
  | not _ ih | paren _ ih => exact ih

/-- A logical predicate hides nothing. -/
theorem Logical.exposes (h : e.Logical) (owns : Reference → Bool) : e.Exposes owns := by
  intro c hc
  rw [h.outermostCases_eq] at hc
  exact absurd hc List.not_mem_nil

/-- A simple condition is a condition on leaves. -/
theorem IsSimple.isAtom (h : e.IsSimple) :
    e.IsAtom (fun values => ∀ e ∈ values, e.IsLeaf) IsLeaf := by
  cases h with
  | leaf h => exact .leaf h
  | comparison hop hleft hright => exact .comparison hop hleft hright
  | isNull negated h => exact .isNull negated h
  | inList negated h hvalues =>
    exact .inList negated h fun value hvalue => .plain (hvalues.2 value hvalue)
  | between negated h hlow hhigh => exact .between negated h (.plain hlow) (.plain hhigh)

theorem Positive.logical (h : e.Positive) : e.Logical := by
  induction h with
  | simple h => exact .atom h.isAtom
  | and _ _ ihl ihr => exact .and ihl ihr
  | or _ _ ihl ihr => exact .or ihl ihr
  | paren _ ih => exact .paren ih

/-! ## Outlooks -/

/-- A leaf that may be known is not of the missing row, and not the literal `NULL`. -/
theorem IsLeaf.cases_of_known {joined : String} (h : e.IsLeaf)
    (hknown : Outlook.Known (e.outlook joined)) :
    (∃ ref, e = .localized ref ∧ ref.table ≠ joined) ∨
    (∃ table name, e = .column table name ∧ table ≠ some joined) ∨
    ∃ l, e = .literal l ∧ l ≠ .null := by
  have hunknown : e.outlook joined ≠ {.unknown} := by
    intro hunknown
    rw [hunknown] at hknown
    exact Outlook.not_known_unknown hknown
  cases h with
  | localized ref => exact .inl ⟨ref, rfl, fun htable => hunknown (if_pos htable)⟩
  | plain h =>
    cases h with
    | column table name =>
      exact .inr (.inl ⟨table, name, rfl, fun htable => hunknown (if_pos htable)⟩)
    | literal l => exact .inr (.inr ⟨l, rfl, fun hnull => hunknown (by rw [hnull]; rfl)⟩)

end Expr

/-- How a comparison is read: as a test for `NULL` of its left side, as one of its right side, or as
a comparison of both. -/
theorem Outlook.operated_forms {op : BinaryOperator} (hop : op.Compares)
    (nullLeft nullRight : Bool) :
    ((op = .eq ∨ op = .ne) ∧ nullRight = true ∧
      (∀ a b, operated op nullLeft nullRight a b = negatedIf (op == .ne) (nullTest a)) ∧
      ∀ {α : Type} (I : Interpretation α) (v w : Option α),
        I.truth (I.operate op nullLeft nullRight v w)
          = (Interpretation.nullTest v).negatedIf (op == .ne)) ∨
    ((op = .eq ∨ op = .ne) ∧ nullLeft = true ∧
      (∀ a b, operated op nullLeft nullRight a b = negatedIf (op == .ne) (nullTest b)) ∧
      ∀ {α : Type} (I : Interpretation α) (v w : Option α),
        I.truth (I.operate op nullLeft nullRight v w)
          = (Interpretation.nullTest w).negatedIf (op == .ne)) ∨
    ((∀ a b, operated op nullLeft nullRight a b = compared a b) ∧
      ∀ {α : Type} (I : Interpretation α) (v w : Option α),
        I.truth (I.operate op nullLeft nullRight v w) = I.compared op v w) := by
  have hread : ∀ {α : Type} (I : Interpretation α) (t : Truth), I.truth (I.ofTruth t) = t :=
    fun I t => I.truth_ofTruth t
  cases op with
  | eq | ne =>
    cases nullRight with
    | true => exact .inl ⟨by simp, rfl, fun _ _ => rfl, fun I _ _ => hread I _⟩
    | false =>
      cases nullLeft with
      | true => exact .inr (.inl ⟨by simp, rfl, fun _ _ => rfl, fun I _ _ => hread I _⟩)
      | false => exact .inr (.inr ⟨fun _ _ => rfl, fun I _ _ => hread I _⟩)
  | lt | gt | le | ge | like => exact .inr (.inr ⟨fun _ _ => rfl, fun I _ _ => hread I _⟩)
  | and | or | plus | minus | times | divide | modulo | concat =>
    simp [BinaryOperator.Compares] at hop

end LocalizedQuery
