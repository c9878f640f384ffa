import LocalizedQuery.Backend.Basic
import LocalizedQuery.Configuration.Error

/-!
# Localized models

The localized attributes of a model may be spread over several backends, each attribute owned by
one of them. A predicate over all of them is planned backend by backend, in the order in which the
backends were attached, and applied once.

`LocalizedModel.withBackend` is the only way to attach a backend; it refuses what would give two
owners to an attribute.
-/

namespace LocalizedQuery

/-- A model with its backends, in the order in which they were attached. -/
structure LocalizedModel where
  model : Model
  backends : List Backend := []
deriving Repr, Inhabited

namespace LocalizedModel

/-- The first backend that keeps an attribute. -/
def backendFor (t : LocalizedModel) (attributeName : String) : Option Backend :=
  t.backends.find? (fun b => b.keeps attributeName)

/-- The first name of a list that is taken or that stands among `seen` or earlier in the list. -/
def firstClash (taken : String → Bool) (seen : List String) : List String → Option String
  | [] => none
  | name :: rest =>
    if seen.contains name || taken name then some name else firstClash taken (name :: seen) rest

/-- Attaches a backend after the others. -/
def withBackend (t : LocalizedModel) (b : Backend) :
    Except ConfigurationError LocalizedModel :=
  if b.model ≠ t.model then
    .error (.foreignBackend b.name b.model.table t.model.table)
  else if b.attributeNames.isEmpty then
    .error (.noAttributes b.name t.model.table)
  else match firstClash (fun name => (t.backendFor name).isSome) [] b.attributeNames with
    | some name => .error (.duplicateAttribute t.model.table name)
    | none => .ok { t with backends := t.backends ++ [b] }

/-- The predicate leaf for a localized attribute. -/
def attributeNode (t : LocalizedModel) (attributeName : String) (locale : Locale) :
    Except InferenceError Expr :=
  match t.backendFor attributeName with
  | some b => b.buildNode attributeName locale
  | none => .error (.foreignAttribute t.model.table attributeName)

/-- What a bare name of a predicate stands for, if it is a localized attribute. -/
def resolve (t : LocalizedModel) (locale : Locale) (name : String) : Option Expr :=
  (t.attributeNode name locale).toOption

/-- The joins that a predicate needs from each backend. -/
def planByBackend (t : LocalizedModel) (predicate : Expr) (locale : Locale) (invert : Bool) :
    Except InferenceError (List (Backend × List JoinRequirement)) :=
  t.backends.mapM fun b => do return (b, ← b.planJoins predicate locale invert)

/-- All joins that a predicate needs. -/
def plan (t : LocalizedModel) (predicate : Expr) (locale : Locale) (invert : Bool) :
    Except InferenceError (List JoinRequirement) :=
  (t.planByBackend predicate locale invert).map fun plans => plans.flatMap Prod.snd

/-- Restricts a query to the records for which a predicate holds, or, inverted, to those for which
it fails, with the joins that this needs. -/
def whereClause (t : LocalizedModel) (q : Query) (predicate : Expr) (locale : Locale)
    (invert : Bool) : Except InferenceError Query :=
  (t.plan predicate locale invert).map fun plan => (q.applyPlan plan).filterBy predicate invert

end LocalizedModel

end LocalizedQuery
