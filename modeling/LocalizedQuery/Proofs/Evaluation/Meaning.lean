import LocalizedQuery.Proofs.Evaluation.Value

/-!
# Meanings that fix only what inversion turns around

`Interpretation` gives every expression its usual value. Inversion looks at the outermost node of a
predicate and needs far less: that `NOT` is negation, that `<>`, `NOT IN` and `IS NOT NULL` are
opposites of `=`, `IN` and `IS NULL`, that next to the literal `NULL` the former are the latter, and
that nothing is `IN` the empty list. A `Meaning` fixes this much. What `=` and `IN` come to, and the
value of any expression of another form, is up to the meaning: `AND`, `CASE` or a function may be
whatever it likes, and need not even depend on the values of their operands.

## Main results

* `Expr.meant_meaning` — the usual values are a meaning
-/

namespace LocalizedQuery

variable {α : Type}

/-- A reading of expressions in which the nodes that inversion turns around have their opposites. -/
structure Meaning (α : Type) where
  /-- What a value says where a condition is wanted. -/
  truth : Option α → Truth
  /-- The value of a condition. -/
  ofTruth : Truth → Option α
  truth_ofTruth : ∀ t, truth (ofTruth t) = t
  /-- `=` between operands neither of which is the literal `NULL`. -/
  equal : Option α → Option α → Truth
  /-- `<>` between such operands. -/
  different : Option α → Option α → Truth
  different_eq : ∀ v w, different v w = (equal v w).neg
  /-- Whether a value is one of a list that is not empty. -/
  member : Option α → List (Option α) → Truth
  /-- The value of an expression of any other form. -/
  other : Row α → Expr → Option α

namespace Meaning

variable (M : Meaning α)

/-- The outcome of `=`, or negated of `<>`. `nullLeft` and `nullRight` say which operands are the
literal `NULL`. -/
def equality (nullLeft nullRight : Bool) (v w : Option α) (negated : Bool) : Truth :=
  if nullRight then (Interpretation.nullTest v).negatedIf negated
  else if nullLeft then (Interpretation.nullTest w).negatedIf negated
  else if negated then M.different v w else M.equal v w

/-- The outcome of `IN`. -/
def among (v : Option α) : List (Option α) → Truth
  | [] => .fails
  | w :: rest => M.member v (w :: rest)

/-- `<>` is the negation of `=`, next to the literal `NULL` as elsewhere. -/
theorem equality_true (nullLeft nullRight : Bool) (v w : Option α) :
    M.equality nullLeft nullRight v w true = (M.equality nullLeft nullRight v w false).neg := by
  cases nullRight with
  | true => rfl
  | false =>
    cases nullLeft with
    | true => rfl
    | false => exact M.different_eq v w

end Meaning

namespace Expr

variable (M : Meaning α) (row : Row α)

mutual

/-- The value of an expression. -/
def meant : Expr → Option α
  | .unary .not e => M.ofTruth (M.truth (meant e)).neg
  | .binary .eq left right =>
    M.ofTruth (M.equality left.isNullLiteral right.isNullLiteral (meant left) (meant right) false)
  | .binary .ne left right =>
    M.ofTruth (M.equality left.isNullLiteral right.isNullLiteral (meant left) (meant right) true)
  | .inList e values negated =>
    M.ofTruth ((M.among (meant e) (meantOfList values)).negatedIf negated)
  | .isNull e negated => M.ofTruth ((Interpretation.nullTest (meant e)).negatedIf negated)
  | e => M.other row e

/-- The values of a list of expressions. -/
def meantOfList : List Expr → List (Option α)
  | [] => []
  | e :: rest => meant e :: meantOfList rest

end

/-- What an expression says as a condition. -/
def judged (e : Expr) : Truth := M.truth (e.meant M row)

/-- The expression is a condition: its value is a truth value. -/
def IsCondition (e : Expr) : Prop := e.meant M row = M.ofTruth (e.judged M row)

/-- What comes from a truth value is a condition. -/
theorem isCondition_of_eq {e : Expr} {t : Truth} (h : e.meant M row = M.ofTruth t) :
    e.IsCondition M row := by
  rw [IsCondition, judged, h, M.truth_ofTruth]

end Expr

/-! ## The usual meaning -/

/-- The usual values as a meaning. -/
def Interpretation.meaning (I : Interpretation α) : Meaning α where
  truth := I.truth
  ofTruth := I.ofTruth
  truth_ofTruth := I.truth_ofTruth
  equal := I.compared .eq
  different := I.compared .ne
  different_eq a b := by
    cases a with
    | none => rfl
    | some a =>
      cases b with
      | none => rfl
      | some b => rw [compared, compared, I.compare_ne, Truth.neg_ofBool]
  member := I.member
  other row e := e.value I row

namespace Interpretation

variable (I : Interpretation α)

theorem operate_eq (nullLeft nullRight : Bool) (v w : Option α) :
    I.operate .eq nullLeft nullRight v w
      = I.ofTruth (I.meaning.equality nullLeft nullRight v w false) := by
  cases nullRight <;> cases nullLeft <;> rfl

theorem operate_ne (nullLeft nullRight : Bool) (v w : Option α) :
    I.operate .ne nullLeft nullRight v w
      = I.ofTruth (I.meaning.equality nullLeft nullRight v w true) := by
  cases nullRight <;> cases nullLeft <;> rfl

theorem among_meaning (v : Option α) (values : List (Option α)) :
    I.meaning.among v values = I.member v values := by
  cases values <;> rfl

end Interpretation

namespace Expr

variable (I : Interpretation α) (row : Row α)

mutual

/-- **The usual values are a meaning.** -/
theorem meant_meaning (e : Expr) : e.meant I.meaning row = e.value I row := by
  match e with
  | .unary .not e =>
    rw [meant, value, meant_meaning e]
    rfl
  | .binary .eq left right =>
    rw [meant, value, meant_meaning left, meant_meaning right, I.operate_eq]
    rfl
  | .binary .ne left right =>
    rw [meant, value, meant_meaning left, meant_meaning right, I.operate_ne]
    rfl
  | .inList e values negated =>
    rw [meant, value, meant_meaning e, meantOfList_meaning values, I.among_meaning]
    rfl
  | .isNull e negated =>
    rw [meant, value, meant_meaning e]
    rfl
  | .unary .minus e | .call _ _ | .caseOf _ _ _ | .between _ _ _ _ | .star _ | .paren _ |
    .localized _ | .column _ _ | .literal _ => rfl
  | .binary .lt _ _ | .binary .gt _ _ | .binary .le _ _ | .binary .ge _ _ | .binary .and _ _ |
    .binary .or _ _ | .binary .plus _ _ | .binary .minus _ _ | .binary .times _ _ |
    .binary .divide _ _ | .binary .modulo _ _ | .binary .concat _ _ | .binary .like _ _ => rfl

theorem meantOfList_meaning (es : List Expr) :
    meantOfList I.meaning row es = valueOfList I row es := by
  match es with
  | [] => rfl
  | e :: rest => rw [meantOfList, valueOfList, meant_meaning e, meantOfList_meaning rest]

end

theorem judged_meaning (e : Expr) : e.judged I.meaning row = e.truth I row := by
  rw [judged, truth, meant_meaning]
  rfl

end Expr

end LocalizedQuery
