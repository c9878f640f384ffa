import LocalizedQuery.Decimal.Double
import LocalizedQuery.Locale

/-!
# Predicate expressions

`Expr` covers what a filter condition can contain. A localized attribute is a leaf of its own,
`Expr.localized`: it stands for the value column of a join that the backend owning it will attach.

`Expr.children` gives the direct sub-expressions and `Expr.references` all localized references
below an expression, both in source order.
-/

namespace LocalizedQuery

/-- The identity of one configured backend. Two backends with the same settings are still two. -/
structure BackendId where
  number : Nat
deriving DecidableEq, Repr, Inhabited

/-- A localized attribute in one locale. It is written as the column `column` of the join with the
alias `table`. -/
structure Reference where
  backend : BackendId
  attributeName : String
  locale : Locale
  table : String
  column : String
deriving DecidableEq, Repr, Inhabited

/-- Whether a reference belongs to a backend and a locale. -/
def Reference.belongsTo (backend : BackendId) (locale : Locale) (ref : Reference) : Bool :=
  ref.backend == backend && ref.locale == locale

/-- A literal value. -/
inductive Literal where
  | int (value : Int)
  | float (value : Double)
  | string (value : String)
  | bool (value : Bool)
  | null
deriving DecidableEq, Repr, Inhabited

/-- The binary operators. -/
inductive BinaryOperator where
  | eq | ne | lt | gt | le | ge
  | and | or
  | plus | minus | times | divide | modulo
  | concat
  | like
deriving DecidableEq, Repr, Inhabited

/-- How tightly an operator binds; a looser operand of a tighter operator needs parentheses. -/
def BinaryOperator.precedence : BinaryOperator → Nat
  | .or => 1
  | .and => 2
  | .eq | .ne | .lt | .gt | .le | .ge | .like => 4
  | .plus | .minus | .concat => 5
  | .times | .divide | .modulo => 6

/-- The unary operators. -/
inductive UnaryOperator where
  | not
  | minus
deriving DecidableEq, Repr, Inhabited

/-- An expression of a query. -/
inductive Expr where
  /-- `column` or `table.column`. -/
  | column (table : Option String) (name : String)
  | literal (value : Literal)
  | binary (op : BinaryOperator) (left right : Expr)
  | unary (op : UnaryOperator) (operand : Expr)
  | call (function : String) (args : List Expr)
  /-- `CASE [operand] WHEN … THEN … [ELSE …] END`. -/
  | caseOf (operand : Option Expr) (branches : List (Expr × Expr)) (otherwise : Option Expr)
  | inList (operand : Expr) (values : List Expr) (negated : Bool)
  | between (operand low high : Expr) (negated : Bool)
  | isNull (operand : Expr) (negated : Bool)
  /-- `*` or `table.*`. -/
  | star (table : Option String)
  | paren (inner : Expr)
  | localized (reference : Reference)
deriving Inhabited

namespace Expr

/-- `table.column`. -/
def qualified (table column : String) : Expr := .column (some table) column

/-- A string literal. -/
def text (value : String) : Expr := .literal (.string value)

/-- `left = right`. -/
def equals (left right : Expr) : Expr := .binary .eq left right

/-- `left AND right`. -/
def both (left right : Expr) : Expr := .binary .and left right

/-- Whether the expression is the literal `NULL`. -/
def isNullLiteral : Expr → Bool
  | .literal .null => true
  | _ => false

/-- The direct sub-expressions, in source order. -/
def children : Expr → List Expr
  | .binary _ left right => [left, right]
  | .unary _ e | .isNull e _ | .paren e => [e]
  | .call _ args => args
  | .caseOf operand branches otherwise =>
    operand.toList ++ branches.flatMap (fun branch => [branch.1, branch.2]) ++ otherwise.toList
  | .inList operand values _ => operand :: values
  | .between operand low high _ => [operand, low, high]
  | .column .. | .literal _ | .star _ | .localized _ => []

/-- A direct sub-expression is smaller than the whole. -/
theorem sizeOf_lt_of_mem_children {child : Expr} {e : Expr} (h : child ∈ e.children) :
    sizeOf child < sizeOf e := by
  cases e with
  | column | literal | star | localized => simp [children] at h
  | binary | unary | between | isNull | paren =>
    simp only [children, List.mem_cons, List.not_mem_nil, or_false] at h
    rcases h with rfl | rfl | rfl <;> simp <;> omega
  | call name args =>
    have := List.sizeOf_lt_of_mem h
    simp only [children] at *
    simp
    omega
  | inList operand values negated =>
    simp only [children, List.mem_cons] at h
    rcases h with rfl | h
    · simp
      omega
    · have := List.sizeOf_lt_of_mem h
      simp
      omega
  | caseOf operand branches otherwise =>
    simp only [children, List.mem_append, Option.mem_toList, List.mem_flatMap, List.mem_cons,
      List.not_mem_nil, or_false] at h
    rcases h with (h | ⟨branch, hm, h⟩) | h
    · subst h
      simp
      omega
    · have := List.sizeOf_lt_of_mem hm
      rcases branch with ⟨condition, result⟩
      rcases h with rfl | rfl <;> simp at * <;> omega
    · subst h
      simp
      omega

/-! ## Localized references -/

mutual

/-- All localized references of an expression, in source order. -/
def references : Expr → List Reference
  | .localized reference => [reference]
  | .binary _ left right => left.references ++ right.references
  | .unary _ e | .isNull e _ | .paren e => e.references
  | .call _ args => referencesOfList args
  | .caseOf operand branches otherwise =>
    referencesOfOption operand ++ referencesOfBranches branches ++ referencesOfOption otherwise
  | .inList operand values _ => operand.references ++ referencesOfList values
  | .between operand low high _ => operand.references ++ low.references ++ high.references
  | .column .. | .literal _ | .star _ => []

/-- The references of a list of expressions. -/
def referencesOfList : List Expr → List Reference
  | [] => []
  | e :: rest => e.references ++ referencesOfList rest

/-- The references of an expression that may be missing. -/
def referencesOfOption : Option Expr → List Reference
  | none => []
  | some e => e.references

/-- The references of the branches of a `CASE`. -/
def referencesOfBranches : List (Expr × Expr) → List Reference
  | [] => []
  | (condition, result) :: rest =>
    condition.references ++ result.references ++ referencesOfBranches rest

end

/-- The first localized reference in source order that satisfies `p`. -/
def findReference (p : Reference → Bool) (e : Expr) : Option Reference := e.references.find? p

end Expr

end LocalizedQuery
