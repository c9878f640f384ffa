import LocalizedQuery.Sql.JoinKind
import LocalizedQuery.Sql.Rendering

/-!
# Queries

A query selects from one table, through a list of joins in order, what an optional condition keeps.
Every operation gives a new query.
-/

namespace LocalizedQuery

/-- A table of a query, possibly under another name. -/
structure TableRef where
  table : String
  alias? : Option String := none
deriving DecidableEq, Repr, Inhabited

/-- The name by which the rest of the query knows the table: its alias if it has one. -/
def TableRef.referenceName (t : TableRef) : String := t.alias?.getD t.table

/-- A join. -/
structure Join where
  kind : JoinKind
  table : TableRef
  on : Expr
deriving Inhabited

/-- The name of what is joined. The same table under two aliases is two targets. -/
def Join.target (join : Join) : String := join.table.referenceName

/-- A query. -/
structure Query where
  select : List Expr := []
  source : Option TableRef := none
  joins : List Join := []
  condition : Option Expr := none
deriving Inhabited

namespace Query

/-- Adds a join at the end. Joins of the same target stay as they are. -/
def join (q : Query) (kind : JoinKind) (table : TableRef) (on : Expr) : Query :=
  { q with joins := q.joins ++ [⟨kind, table, on⟩] }

/-- The first join of a target. -/
def findJoin (q : Query) (target : String) : Option Join :=
  q.joins.find? (fun join => join.target == target)

/-- Drops every join of a target. -/
def removeJoin (q : Query) (target : String) : Query :=
  { q with joins := q.joins.filter (fun join => join.target != target) }

/-- Keeps only what satisfies a further condition. -/
def filter (q : Query) (condition : Expr) : Query :=
  { q with condition := some (match q.condition with
      | some existing => existing.both condition
      | none => condition) }

/-! ## Rendering -/

/-- The tokens of a table. -/
def tableTokens (t : TableRef) : List Token :=
  match t.alias? with
  | some given => [.name t.table, .space, .keyword .as, .space, .name given]
  | none => [.name t.table]

/-- The keywords of a join kind. -/
def kindTokens : JoinKind → List Token
  | .inner => [.keyword .inner]
  | .outer => [.keyword .left, .space, .keyword .outer]

/-- The tokens of a join. -/
def joinTokens (d : Dialect) (join : Join) : List Token :=
  kindTokens join.kind ++ [.space, .keyword .join, .space] ++ tableTokens join.table ++
    [.space, .keyword .on, .space] ++ join.on.tokens d

/-- The tokens of the selected expressions, each on a line of its own. -/
def selectTokens (d : Dialect) (select : List Expr) : List Token :=
  ((select.map fun e => [.newline, .indent 1] ++ e.tokens d).intersperse [.comma]).flatten

/-- The tokens of a query. -/
def tokens (d : Dialect) (q : Query) : List Token :=
  .keyword .select :: (selectTokens d q.select ++
    (match q.source with
      | some table => [.newline, .keyword .source, .space] ++ tableTokens table
      | none => []) ++
    q.joins.flatMap (fun join => .newline :: joinTokens d join) ++
    (match q.condition with
      | some condition => [.newline, .keyword .filter, .space] ++ condition.tokens d
      | none => []))

/-- The text of a query in a dialect. -/
def toSql (d : Dialect) (q : Query) : Except Unwritable String := Token.writeAll d (q.tokens d)

end Query

end LocalizedQuery
