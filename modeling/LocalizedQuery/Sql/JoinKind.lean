/-!
# Join kinds

A join either drops the records without a matching row (`inner`) or keeps them with `NULL` in its
columns (`outer`). The first is the stronger requirement.
-/

namespace LocalizedQuery

/-- How a table is joined. -/
inductive JoinKind where
  | inner
  | outer
deriving DecidableEq, Repr, Inhabited

namespace JoinKind

/-- The kind that serves two needs of one join: inner only if both are. -/
def merge : JoinKind → JoinKind → JoinKind
  | .inner, .inner => .inner
  | _, _ => .outer

/-- The kind for a predicate that may be negated: a negated one needs a row that fails it, so all
its joins are inner. -/
def forPredicate (kind : JoinKind) (invert : Bool) : JoinKind := if invert then .inner else kind

/-- Whether a join of this kind serves a need for a join of the kind `required`. -/
def satisfies (kind required : JoinKind) : Bool := kind == .inner || required == .outer

/-- The name of a kind. -/
def name : JoinKind → String
  | .inner => "inner"
  | .outer => "outer"

end JoinKind

end LocalizedQuery
