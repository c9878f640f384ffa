/-!
# Three-valued logic

A condition holds, fails or is unknown, and what is unknown of the parts may still be known of the
whole: a conjunction fails as soon as one side does, whatever the other is.

## Main results

* `Truth.conj_eq_holds`, `Truth.conj_eq_fails` — when a conjunction is decided
* `Truth.disj_eq_holds`, `Truth.disj_eq_fails` — when a disjunction is decided
-/

namespace LocalizedQuery

/-- A truth value. -/
inductive Truth where
  | holds
  | fails
  | unknown
deriving DecidableEq, Repr, Inhabited

namespace Truth

/-- The truth value of what is known. -/
def ofBool (b : Bool) : Truth := if b then .holds else .fails

/-- `NOT`. -/
def neg : Truth → Truth
  | .holds => .fails
  | .fails => .holds
  | .unknown => .unknown

/-- `AND`. -/
def conj : Truth → Truth → Truth
  | .fails, _ | _, .fails => .fails
  | .holds, .holds => .holds
  | _, _ => .unknown

/-- `OR`. -/
def disj : Truth → Truth → Truth
  | .holds, _ | _, .holds => .holds
  | .fails, .fails => .fails
  | _, _ => .unknown

/-- A condition that may stand in the negated form. -/
def negatedIf (negated : Bool) (t : Truth) : Truth := if negated then t.neg else t

variable {a b : Truth}

@[simp] theorem neg_eq_holds : a.neg = .holds ↔ a = .fails := by
  cases a <;> simp [neg]

@[simp] theorem neg_neg (a : Truth) : a.neg.neg = a := by
  cases a <;> rfl

theorem neg_ofBool (b : Bool) : (ofBool b).neg = ofBool (!b) := by
  cases b <;> rfl

theorem negatedIf_not (negated : Bool) (a : Truth) :
    a.negatedIf (!negated) = (a.negatedIf negated).neg := by
  cases negated <;> simp [negatedIf]

theorem conj_assoc (a b c : Truth) : (a.conj b).conj c = a.conj (b.conj c) := by
  cases a <;> cases b <;> cases c <;> rfl

theorem disj_assoc (a b c : Truth) : (a.disj b).disj c = a.disj (b.disj c) := by
  cases a <;> cases b <;> cases c <;> rfl

@[simp] theorem conj_eq_holds : a.conj b = .holds ↔ a = .holds ∧ b = .holds := by
  cases a <;> cases b <;> simp [conj]

@[simp] theorem conj_eq_fails : a.conj b = .fails ↔ a = .fails ∨ b = .fails := by
  cases a <;> cases b <;> simp [conj]

@[simp] theorem disj_eq_holds : a.disj b = .holds ↔ a = .holds ∨ b = .holds := by
  cases a <;> cases b <;> simp [disj]

@[simp] theorem disj_eq_fails : a.disj b = .fails ↔ a = .fails ∧ b = .fails := by
  cases a <;> cases b <;> simp [disj]

end Truth

end LocalizedQuery
