import LocalizedQuery.Predicate.Parse
import LocalizedQuery.LocalizedModel

/-!
# Compiling predicates

`LocalizedModel.compile` takes the text of a predicate over the localized attributes of a model
to the query for the records that satisfy it, together with the joins that were found necessary.
-/

namespace LocalizedQuery

/-- Why a predicate cannot be compiled. -/
inductive CompileError where
  | predicate (error : PredicateError)
  | inference (error : InferenceError)
deriving DecidableEq, Repr

/-- The wording of an error. -/
def CompileError.message : CompileError → String
  | .predicate error => s!"Parse error: {error.message}"
  | .inference error => s!"Translation error: {error.message}"

/-- How to compile a predicate. -/
structure CompileOptions where
  /-- The locale in which localized attributes are read. -/
  locale : Locale
  dialect : Dialect := .postgres
  /-- Whether the records are wanted for which the predicate fails. -/
  invert : Bool := false
deriving Repr

/-- A join that was found necessary, as it is reported. -/
structure PlannedJoin where
  backend : String
  attributeName : Option String
  table : String
  aliasName : String
  kind : JoinKind
deriving DecidableEq, Repr

/-- The report of a requirement of a backend. -/
def PlannedJoin.ofRequirement (b : Backend) (requirement : JoinRequirement) : PlannedJoin :=
  { backend := b.name
    attributeName := requirement.attributeName
    table := requirement.target.table.table
    aliasName := requirement.target.aliasName
    kind := requirement.kind }

/-- A compiled predicate. -/
structure Compilation where
  query : Query
  joins : List PlannedJoin
  dialect : Dialect

/-- The text of the query. -/
def Compilation.sql (c : Compilation) : Except Unwritable String := c.query.toSql c.dialect

namespace LocalizedModel

/-- The expression that a text denotes, in which the names of localized attributes are references
in a locale and other names are columns. -/
def parse (t : LocalizedModel) (text : String) (locale : Locale) : Except PredicateError Expr :=
  parsePredicate (t.resolve locale) text

/-- Compiles the text of a predicate. -/
def compile (t : LocalizedModel) (text : String) (options : CompileOptions) :
    Except CompileError Compilation := do
  let predicate ← (t.parse text options.locale).mapError .predicate
  let plans ← (t.planByBackend predicate options.locale options.invert).mapError .inference
  let joined := t.model.baseQuery.applyPlan (plans.flatMap Prod.snd)
  return {
    query := joined.filterBy predicate options.invert
    joins := plans.flatMap fun (b, plan) => plan.map (PlannedJoin.ofRequirement b)
    dialect := options.dialect }

end LocalizedModel

end LocalizedQuery
