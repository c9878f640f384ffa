import LocalizedQuery.Proofs.Evaluation.Truth
import LocalizedQuery.Sql.Expr
import Mathlib.Data.Option.NAry

/-!
# Values of expressions

What an expression is worth in a row of a query. A row gives a record to every table that the query
knows; where a joined table has no matching row, its record is `Record.missing`, in which every
column is `NULL`.

Everything that depends on types, on collations or on the functions of a database is left to an
`Interpretation`: the statements made about values hold for any.

## Implementation notes

Comparisons with `NULL` are unknown. The exception is `=` and `<>` next to the literal `NULL`, which
are written as `IS NULL` and `IS NOT NULL` and mean just that. `IN` is a disjunction of equalities,
so over no values it fails, and `BETWEEN` is a conjunction of two comparisons.

A condition is the truth of its value: conditions are values that come from a truth value, and
`Interpretation.truth_ofTruth` takes them back.
-/

namespace LocalizedQuery

variable {α : Type}

/-- The columns of one table; `none` is `NULL`. -/
abbrev Record (α : Type) := String → Option α

/-- What an outer join puts where it finds no row. -/
def Record.missing : Record α := fun _ => none

/-- A row of a query: the record of each table, by the name that the query gives the table. -/
abbrev Row (α : Type) := String → Record α

/-- How a database treats data of the type `α`. -/
structure Interpretation (α : Type) where
  /-- The datum that a condition yields. -/
  ofBool : Bool → α
  /-- Whether a datum counts as true where a condition is wanted. -/
  isTrue : α → Bool
  isTrue_ofBool : ∀ b, isTrue (ofBool b) = b
  /-- The datum of a literal other than `NULL`, `TRUE` and `FALSE`. -/
  datum : Literal → α
  /-- The comparisons, `LIKE` among them. -/
  compare : BinaryOperator → α → α → Bool
  compare_ne : ∀ a b, compare .ne a b = !compare .eq a b
  /-- Arithmetic and concatenation. -/
  calculate : BinaryOperator → α → α → Option α
  negate : α → Option α
  /-- The functions. They see which of their arguments are `NULL`. -/
  call : String → List (Option α) → Option α
  /-- The table that a column without a qualifier belongs to. -/
  home : String → String

namespace Interpretation

variable (I : Interpretation α)

/-- The value of a literal. -/
def literal : Literal → Option α
  | .null => none
  | .bool b => some (I.ofBool b)
  | l => some (I.datum l)

/-- What a value says where a condition is wanted. -/
def truth : Option α → Truth
  | none => .unknown
  | some a => .ofBool (I.isTrue a)

/-- The value of a condition. -/
def ofTruth : Truth → Option α
  | .holds => some (I.ofBool true)
  | .fails => some (I.ofBool false)
  | .unknown => none

@[simp] theorem truth_ofTruth (t : Truth) : I.truth (I.ofTruth t) = t := by
  cases t <;> simp [truth, ofTruth, I.isTrue_ofBool, Truth.ofBool]

@[simp] theorem truth_eq_unknown {v : Option α} : I.truth v = .unknown ↔ v = none := by
  cases v with
  | none => simp [truth]
  | some a => cases h : I.isTrue a <;> simp [truth, Truth.ofBool, h]

/-- A comparison, unknown where a side is `NULL`. -/
def compared (op : BinaryOperator) : Option α → Option α → Truth
  | some a, some b => .ofBool (I.compare op a b)
  | _, _ => .unknown

/-- Whether a value is `NULL`. -/
def nullTest (v : Option α) : Truth := .ofBool v.isNone

/-- Whether a value is one of a list. -/
def member (v : Option α) : List (Option α) → Truth
  | [] => .fails
  | w :: rest => (I.compared .eq v w).disj (member v rest)

/-- Whether a value lies between two others. -/
def within (v low high : Option α) : Truth := (I.compared .ge v low).conj (I.compared .le v high)

/-- The value of a binary operator. `nullLeft` and `nullRight` say which operands are the literal
`NULL`, next to which `=` and `<>` test for `NULL`. -/
def operate (op : BinaryOperator) (nullLeft nullRight : Bool) (a b : Option α) : Option α :=
  match op with
  | .and => I.ofTruth ((I.truth a).conj (I.truth b))
  | .or => I.ofTruth ((I.truth a).disj (I.truth b))
  | .eq | .ne =>
    if nullRight then I.ofTruth ((nullTest a).negatedIf (op == .ne))
    else if nullLeft then I.ofTruth ((nullTest b).negatedIf (op == .ne))
    else I.ofTruth (I.compared op a b)
  | .lt | .gt | .le | .ge | .like => I.ofTruth (I.compared op a b)
  | .plus | .minus | .times | .divide | .modulo | .concat =>
    (Option.map₂ (I.calculate op) a b).join

/-- Whether a branch of a `CASE` is taken: by its condition, or by comparison with the value that
stands behind `CASE`. -/
def chooses (scrutinee : Option (Option α)) (condition : Option α) : Bool :=
  match scrutinee with
  | none => I.truth condition = .holds
  | some v => I.compared .eq v condition = .holds

end Interpretation

namespace Expr

variable (I : Interpretation α) (row : Row α)

mutual

/-- The value of an expression in a row. -/
def value : Expr → Option α
  | .column table name => row (table.getD (I.home name)) name
  | .literal l => I.literal l
  | .localized ref => row ref.table ref.column
  | .star _ => none
  | .paren e => value e
  | .unary .not e => I.ofTruth (I.truth (value e)).neg
  | .unary .minus e => (value e).bind I.negate
  | .binary op left right =>
    I.operate op left.isNullLiteral right.isNullLiteral (value left) (value right)
  | .call function args => I.call function (valueOfList args)
  | .caseOf operand branches otherwise =>
    valueOfBranches (valueOfOption operand) (valueOfOption otherwise).join branches
  | .inList operand values negated =>
    I.ofTruth ((I.member (value operand) (valueOfList values)).negatedIf negated)
  | .between operand low high negated =>
    I.ofTruth ((I.within (value operand) (value low) (value high)).negatedIf negated)
  | .isNull operand negated =>
    I.ofTruth ((Interpretation.nullTest (value operand)).negatedIf negated)

/-- The values of a list of expressions. -/
def valueOfList : List Expr → List (Option α)
  | [] => []
  | e :: rest => value e :: valueOfList rest

/-- The value of an expression that may be left out. -/
def valueOfOption : Option Expr → Option (Option α)
  | none => none
  | some e => some (value e)

/-- The value of the first branch of a `CASE` that is taken, or else `otherwise`. -/
def valueOfBranches (scrutinee : Option (Option α)) (otherwise : Option α) :
    List (Expr × Expr) → Option α
  | [] => otherwise
  | (condition, result) :: rest =>
    if I.chooses scrutinee (value condition) then value result
    else valueOfBranches scrutinee otherwise rest

end

/-- What an expression says as a condition. -/
def truth (e : Expr) : Truth := I.truth (e.value I row)

@[simp] theorem truth_not (e : Expr) : (Expr.unary .not e).truth I row = (e.truth I row).neg := by
  simp [truth, value]

@[simp] theorem truth_and (left right : Expr) :
    (Expr.binary .and left right).truth I row = (left.truth I row).conj (right.truth I row) := by
  simp [truth, value, Interpretation.operate]

@[simp] theorem truth_or (left right : Expr) :
    (Expr.binary .or left right).truth I row = (left.truth I row).disj (right.truth I row) := by
  simp [truth, value, Interpretation.operate]

@[simp] theorem truth_inList (e : Expr) (values : List Expr) (negated : Bool) :
    (Expr.inList e values negated).truth I row
      = (I.member (e.value I row) (valueOfList I row values)).negatedIf negated := by
  simp [truth, value]

@[simp] theorem truth_between (e low high : Expr) (negated : Bool) :
    (Expr.between e low high negated).truth I row
      = (I.within (e.value I row) (low.value I row) (high.value I row)).negatedIf negated := by
  simp [truth, value]

end Expr

end LocalizedQuery
