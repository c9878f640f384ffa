import LocalizedQuery.Proofs.Evaluation.Value
import Mathlib.Data.Finset.NAry
import Mathlib.Data.Fintype.Defs

/-!
# Outlooks

What can a condition still come to when the row of a joined table is missing? `Expr.outlook` answers
with a set of truth values, computed from the expression alone: the columns of the missing row are
unknown, all others may be anything, and functions may do what they like. A datum counts as known,
whatever it is, and `NULL` as unknown.

An outlook contains every truth value that the condition has in any such row
(`Expr.truth_mem_outlook`). So a condition without `holds` in its outlook needs the row. It may
contain more, since two uses of one column are not held against each other.

## Main results

* `Expr.truth_mem_outlook` — a condition comes to what its outlook contains
* `Expr.needsRow_of_outlook` — a condition whose outlook excludes `holds` needs the row
-/

namespace LocalizedQuery

variable {α : Type}

instance : Fintype Truth where
  elems := {.holds, .fails, .unknown}
  complete t := by cases t <;> simp

namespace Outlook

/-! ## Operations -/

/-- Some truth value is known. -/
def Known (a : Finset Truth) : Prop := .holds ∈ a ∨ .fails ∈ a

instance (a : Finset Truth) : Decidable (Known a) := inferInstanceAs (Decidable (_ ∨ _))

/-- The outlook of a comparison. -/
def compared (a b : Finset Truth) : Finset Truth :=
  Finset.univ.filter fun t =>
    if t = .unknown then .unknown ∈ a ∨ .unknown ∈ b else Known a ∧ Known b

/-- The outlook of a calculation, which may fail. -/
def calculated (a b : Finset Truth) : Finset Truth :=
  Finset.univ.filter fun t => t = .unknown ∨ Known a ∧ Known b

/-- The outlook of a test for `NULL`. -/
def nullTest (a : Finset Truth) : Finset Truth := a.image fun t => .ofBool (t = .unknown)

/-- The outlook of a condition that may stand in the negated form. -/
def negatedIf (negated : Bool) (a : Finset Truth) : Finset Truth :=
  a.image (Truth.negatedIf negated)

/-- The outlook of a binary operator. -/
def operated (op : BinaryOperator) (nullLeft nullRight : Bool) (a b : Finset Truth) :
    Finset Truth :=
  match op with
  | .and => Finset.image₂ Truth.conj a b
  | .or => Finset.image₂ Truth.disj a b
  | .eq | .ne =>
    if nullRight then negatedIf (op == .ne) (nullTest a)
    else if nullLeft then negatedIf (op == .ne) (nullTest b)
    else compared a b
  | .lt | .gt | .le | .ge | .like => compared a b
  | .plus | .minus | .times | .divide | .modulo | .concat => calculated a b

variable {a b : Finset Truth}

theorem known_iff : Known a ↔ ∃ t ∈ a, t ≠ .unknown := by
  constructor
  · rintro (h | h)
    · exact ⟨_, h, by simp⟩
    · exact ⟨_, h, by simp⟩
  · rintro ⟨t, ht, hne⟩
    cases t with
    | holds => exact .inl ht
    | fails => exact .inr ht
    | unknown => exact absurd rfl hne

@[simp] theorem not_known_unknown : ¬Known {.unknown} := by
  decide

@[simp] theorem holds_mem_compared : .holds ∈ compared a b ↔ Known a ∧ Known b := by
  simp [compared]

@[simp] theorem fails_mem_compared : .fails ∈ compared a b ↔ Known a ∧ Known b := by
  simp [compared]

@[simp] theorem unknown_mem_compared : .unknown ∈ compared a b ↔ .unknown ∈ a ∨ .unknown ∈ b := by
  simp [compared]

@[simp] theorem known_compared : Known (compared a b) ↔ Known a ∧ Known b := by
  simp [Known]

@[simp] theorem holds_mem_calculated : .holds ∈ calculated a b ↔ Known a ∧ Known b := by
  simp [calculated]

@[simp] theorem fails_mem_calculated : .fails ∈ calculated a b ↔ Known a ∧ Known b := by
  simp [calculated]

@[simp] theorem known_calculated : Known (calculated a b) ↔ Known a ∧ Known b := by
  simp [Known]

@[simp] theorem unknown_mem_calculated : .unknown ∈ calculated a b := by
  simp [calculated]

@[simp] theorem holds_mem_nullTest : .holds ∈ nullTest a ↔ .unknown ∈ a := by
  simp [nullTest, Truth.ofBool]

@[simp] theorem fails_mem_nullTest : .fails ∈ nullTest a ↔ Known a := by
  simp [nullTest, Truth.ofBool, known_iff]

@[simp] theorem holds_mem_negatedIf_false : .holds ∈ negatedIf false a ↔ .holds ∈ a := by
  simp [negatedIf, Truth.negatedIf]

@[simp] theorem holds_mem_negatedIf_true : .holds ∈ negatedIf true a ↔ .fails ∈ a := by
  simp [negatedIf, Truth.negatedIf]

/-! ## Soundness of the operations -/

variable {I : Interpretation α} {v w : Option α}

theorem known_of_some {x : α} (h : I.truth (some x) ∈ a) : Known a :=
  known_iff.mpr ⟨_, h, fun hunknown => by simp at hunknown⟩

theorem compared_mem (hv : I.truth v ∈ a) (hw : I.truth w ∈ b) (op : BinaryOperator) :
    I.compared op v w ∈ compared a b := by
  match v, w with
  | none, _ => exact unknown_mem_compared.mpr (.inl hv)
  | some _, none => exact unknown_mem_compared.mpr (.inr hw)
  | some x, some y =>
    have hknown := And.intro (known_of_some hv) (known_of_some hw)
    cases hop : I.compare op x y <;> simp [Interpretation.compared, Truth.ofBool, hop, hknown]

theorem nullTest_mem (hv : I.truth v ∈ a) : Interpretation.nullTest v ∈ nullTest a := by
  refine Finset.mem_image.mpr ⟨_, hv, ?_⟩
  cases v <;> simp [Interpretation.nullTest]

theorem negatedIf_mem {t : Truth} (ht : t ∈ a) (negated : Bool) :
    t.negatedIf negated ∈ negatedIf negated a :=
  Finset.mem_image_of_mem _ ht

theorem calculated_mem (hv : I.truth v ∈ a) (hw : I.truth w ∈ b)
    (f : α → α → Option α) : I.truth (Option.map₂ f v w).join ∈ calculated a b := by
  match v, w with
  | none, _ => exact unknown_mem_calculated
  | some _, none => exact unknown_mem_calculated
  | some x, some y => simp [calculated, known_of_some hv, known_of_some hw]

theorem ofTruth_mem {t : Truth} (ht : t ∈ a) : I.truth (I.ofTruth t) ∈ a := by
  rwa [I.truth_ofTruth]

theorem ofBool_mem (c : Bool) : Truth.ofBool c ∈ ({.holds, .fails} : Finset Truth) := by
  cases c <;> simp [Truth.ofBool]

theorem negated_mem (hv : I.truth v ∈ a) : I.truth (v.bind I.negate) ∈ calculated a a := by
  cases v with
  | none => exact unknown_mem_calculated
  | some x => simp [calculated, known_of_some hv]

theorem operated_mem (hv : I.truth v ∈ a) (hw : I.truth w ∈ b) (op : BinaryOperator)
    (nullLeft nullRight : Bool) :
    I.truth (I.operate op nullLeft nullRight v w) ∈ operated op nullLeft nullRight a b := by
  cases op with
  | and | or => exact ofTruth_mem (Finset.mem_image₂_of_mem hv hw)
  | eq | ne =>
    cases nullRight with
    | true => exact ofTruth_mem (negatedIf_mem (nullTest_mem hv) _)
    | false =>
      cases nullLeft with
      | true => exact ofTruth_mem (negatedIf_mem (nullTest_mem hw) _)
      | false => exact ofTruth_mem (compared_mem hv hw _)
  | lt | gt | le | ge | like => exact ofTruth_mem (compared_mem hv hw _)
  | plus | minus | times | divide | modulo | concat => exact calculated_mem hv hw _

end Outlook

/-! ## Outlooks of expressions -/

namespace Expr

mutual

/-- The truth values that an expression may have where the row of the table `joined` is missing. -/
def outlook (joined : String) : Expr → Finset Truth
  | .column table _ => if table = some joined then {.unknown} else Finset.univ
  | .localized ref => if ref.table = joined then {.unknown} else Finset.univ
  | .literal .null | .star _ => {.unknown}
  | .literal _ => {.holds, .fails}
  | .paren e => outlook joined e
  | .unary .not e => (outlook joined e).image Truth.neg
  | .unary .minus e => Outlook.calculated (outlook joined e) (outlook joined e)
  | .binary op left right =>
    Outlook.operated op left.isNullLiteral right.isNullLiteral (outlook joined left)
      (outlook joined right)
  | .call .. | .caseOf .. => Finset.univ
  | .inList operand values negated =>
    Outlook.negatedIf negated (outlookOfMember joined (outlook joined operand) values)
  | .between operand low high negated =>
    Outlook.negatedIf negated (Finset.image₂ Truth.conj
      (Outlook.compared (outlook joined operand) (outlook joined low))
      (Outlook.compared (outlook joined operand) (outlook joined high)))
  | .isNull operand negated => Outlook.negatedIf negated (Outlook.nullTest (outlook joined operand))

/-- The outlook of being one of a list. -/
def outlookOfMember (joined : String) (a : Finset Truth) : List Expr → Finset Truth
  | [] => {.fails}
  | e :: rest =>
    Finset.image₂ Truth.disj (Outlook.compared a (outlook joined e)) (outlookOfMember joined a rest)

end

variable {I : Interpretation α} {row : Row α} {joined : String}

mutual

/-- **A condition comes to what its outlook contains.** -/
theorem truth_mem_outlook (hmissing : row joined = Record.missing) (e : Expr) :
    e.truth I row ∈ e.outlook joined := by
  match e with
  | .column table name =>
    by_cases htable : table = some joined
    · simp [outlook, truth, value, htable, hmissing, Record.missing]
    · simp [outlook, htable]
  | .localized ref =>
    by_cases htable : ref.table = joined
    · simp [outlook, truth, value, htable, hmissing, Record.missing]
    · simp [outlook, htable]
  | .literal .null | .star _ => simp [outlook, truth, value, Interpretation.literal]
  | .literal (.int n) => exact Outlook.ofBool_mem _
  | .literal (.float d) => exact Outlook.ofBool_mem _
  | .literal (.string s) => exact Outlook.ofBool_mem _
  | .literal (.bool b) => exact Outlook.ofBool_mem _
  | .paren e => exact truth_mem_outlook hmissing e
  | .unary .not e =>
    exact Outlook.ofTruth_mem (Finset.mem_image_of_mem _ (truth_mem_outlook hmissing e))
  | .unary .minus e => exact Outlook.negated_mem (truth_mem_outlook hmissing e)
  | .binary op left right =>
    exact Outlook.operated_mem (truth_mem_outlook hmissing left) (truth_mem_outlook hmissing right)
      op _ _
  | .call .. | .caseOf .. => exact Finset.mem_univ _
  | .inList operand values negated =>
    exact Outlook.ofTruth_mem (Outlook.negatedIf_mem
      (member_mem_outlook hmissing (truth_mem_outlook hmissing operand) values) negated)
  | .between operand low high negated =>
    have hoperand := truth_mem_outlook hmissing operand
    exact Outlook.ofTruth_mem (Outlook.negatedIf_mem (Finset.mem_image₂_of_mem
      (Outlook.compared_mem hoperand (truth_mem_outlook hmissing low) .ge)
      (Outlook.compared_mem hoperand (truth_mem_outlook hmissing high) .le)) negated)
  | .isNull operand negated =>
    exact Outlook.ofTruth_mem (Outlook.negatedIf_mem
      (Outlook.nullTest_mem (truth_mem_outlook hmissing operand)) negated)

theorem member_mem_outlook (hmissing : row joined = Record.missing) {v : Option α}
    {a : Finset Truth} (hv : I.truth v ∈ a) (es : List Expr) :
    I.member v (valueOfList I row es) ∈ outlookOfMember joined a es := by
  match es with
  | [] => simp [valueOfList, Interpretation.member, outlookOfMember]
  | e :: rest =>
    exact Finset.mem_image₂_of_mem (Outlook.compared_mem hv (truth_mem_outlook hmissing e) .eq)
      (member_mem_outlook hmissing hv rest)

end

/-! ## Needing a row -/

/-- The condition holds only where the row of a table is there. -/
def NeedsRow (joined : String) (e : Expr) : Prop :=
  ∀ ⦃α : Type⦄ (I : Interpretation α) (row : Row α), row joined = Record.missing →
    e.truth I row ≠ .holds

/-- **A condition whose outlook excludes `holds` needs the row.** -/
theorem needsRow_of_outlook {e : Expr} (h : .holds ∉ e.outlook joined) : e.NeedsRow joined := by
  intro α I row hmissing hholds
  refine h ?_
  rw [← hholds]
  exact truth_mem_outlook hmissing e

end Expr

end LocalizedQuery
