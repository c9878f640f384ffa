import LocalizedQuery.Sql.Expr

/-!
# Negated predicates

`Expr.inverted` negates a predicate at its outermost node where that node has a direct opposite, and
puts a `NOT` before it elsewhere.
-/

namespace LocalizedQuery

/-- The negation of a predicate: `=` and `<>` change places, `IN` and `IS NULL` change their sign,
and `NOT` is taken off. -/
def Expr.inverted : Expr → Expr
  | .binary .eq left right => .binary .ne left right
  | .binary .ne left right => .binary .eq left right
  | .inList e values negated => .inList e values (!negated)
  | .isNull e negated => .isNull e (!negated)
  | .unary .not e => e
  | e => .unary .not e

end LocalizedQuery
