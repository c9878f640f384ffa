import LocalizedQuery.Inference.Visitor
import LocalizedQuery.JoinPlan
import LocalizedQuery.Model

/-!
# Localized tables

A table of its own holds one row for every record and locale, with a column for each localized
attribute. All attributes of a locale share one join, so the inference gives one kind to the whole
predicate.

A reference by itself says nothing about its row. An equality settles its operands anew: the row is
needed, unless `NULL` is compared with. One outer need decides a collection; what follows it is then
only searched for hidden references.
-/

namespace LocalizedQuery

/-- Attributes of a model that are kept in a table of their own. -/
structure TableBackend where
  id : BackendId
  model : Model
  table : String := model.singular ++ "_translations"
  foreignKey : String := model.singular ++ "_id"
  localeColumn : String := "locale"
  attributeNames : List String
deriving Repr, Inhabited

namespace TableBackend

/-- The alias of the join that serves a locale. -/
def aliasName (b : TableBackend) (locale : Locale) : String :=
  s!"{b.table}_{locale.normalized}"

/-- The join that serves a locale. -/
def joinTarget (b : TableBackend) (locale : Locale) : JoinTarget :=
  let joined := b.aliasName locale
  { table := { table := b.table, alias? := some joined }
    on := ((Expr.qualified joined b.foreignKey).equals
        (.qualified b.model.table b.model.primaryKey)).both
      ((Expr.qualified joined b.localeColumn).equals (.text locale.tag)) }

/-- The reference to an attribute in a locale. -/
def reference (b : TableBackend) (attributeName : String) (locale : Locale) : Reference :=
  { backend := b.id
    attributeName := attributeName
    locale := locale
    table := b.aliasName locale
    column := attributeName }

/-- The need of two neighbours. -/
def combine : Option JoinKind → Option JoinKind → Option JoinKind
  | some left, some right => some (left.merge right)
  | none, need | need, none => need

/-- The need of an equality: that of a row, if any operand has a reference. -/
def equality (operands : List (Visit (Except InferenceError) (Option JoinKind))) (null : Bool) :
    Except InferenceError (Option JoinKind) := do
  let touched ← operands.foldlM (fun touched operand => do
    return touched || (← operand.result).isSome) false
  return if touched then some (if null then .outer else .inner) else none

/-- The need of a collection of which `found` is the need so far. -/
def collection (owns : Reference → Bool) (found : Option JoinKind) :
    List (Visit (Except InferenceError) (Option JoinKind)) →
    Except InferenceError (Option JoinKind)
  | [] => .ok found
  | child :: rest => do
    match ← child.result with
    | some .outer =>
      rest.forM fun later => rejectUnsupported owns later.expr
      return some .outer
    | some .inner => collection owns (found <|> some .inner) rest
    | none => collection owns found rest

/-- The inference of one backend in one locale. -/
def visitor (id : BackendId) (locale : Locale) :
    Visitor (Except InferenceError) (Option JoinKind) where
  owns := Reference.belongsTo id locale
  localized _ := some .outer
  combine := combine
  empty := none
  collection := collection (Reference.belongsTo id locale) none
  equality := equality
  disjunction left right := do
    let left ← left.result
    let right ← right.result
    return (left <|> right).map fun _ => .outer

/-- The kind of join that a predicate needs, if it needs one. -/
def infer (b : TableBackend) (predicate : Expr) (locale : Locale) :
    Except InferenceError (Option JoinKind) :=
  (visitor b.id locale).accept predicate

/-- The joins that a predicate needs: one or none. -/
def planJoins (b : TableBackend) (predicate : Expr) (locale : Locale) (invert : Bool) :
    Except InferenceError (List JoinRequirement) :=
  (b.infer predicate locale).map fun need => need.toList.map fun kind =>
    { attributeName := none
      target := b.joinTarget locale
      kind := kind.forPredicate invert }

end TableBackend

end LocalizedQuery
