import LocalizedQuery.Inversion
import LocalizedQuery.Sql.Query

/-!
# Join plans

What a predicate needs joined is a list of requirements: targets, each with the kind it needs at
least. `Query.applyJoin` attaches one to a query. It never weakens and never doubles a join.
-/

namespace LocalizedQuery

/-- A table of localized values with the condition that matches its rows with records. -/
structure JoinTarget where
  table : TableRef
  on : Expr
deriving Inhabited

/-- The alias by which the target is known. -/
def JoinTarget.aliasName (target : JoinTarget) : String := target.table.referenceName

/-- A join that a predicate needs. -/
structure JoinRequirement where
  /-- The attribute that the join serves, unless it serves all of a backend. -/
  attributeName : Option String
  target : JoinTarget
  kind : JoinKind
deriving Inhabited

namespace Query

/-- Joins a target with at least the given kind. A join that serves already stays; one that is too
weak is replaced, at the end of the list. -/
def applyJoin (q : Query) (target : JoinTarget) (kind : JoinKind) : Query :=
  match q.findJoin target.aliasName with
  | some existing =>
    if existing.kind.satisfies kind then q
    else (q.removeJoin target.aliasName).join kind target.table target.on
  | none => q.join kind target.table target.on

/-- Attaches the joins of a plan in order. -/
def applyPlan (q : Query) (plan : List JoinRequirement) : Query :=
  plan.foldl (fun q requirement => q.applyJoin requirement.target requirement.kind) q

/-- Keeps the records for which a predicate holds, or, inverted, those for which it fails. -/
def filterBy (q : Query) (predicate : Expr) (invert : Bool) : Query :=
  q.filter (if invert then predicate.inverted else predicate)

end Query

end LocalizedQuery
