import LocalizedQuery.Backend.KeyValue
import LocalizedQuery.Backend.Table

/-!
# Backends

A backend is one way to keep localized attributes of a model: in a key-value table or in a table of
their own. It builds references to its attributes and plans the joins that a predicate needs
for them.
-/

namespace LocalizedQuery

/-- A backend. -/
inductive Backend where
  | keyValue (backend : KeyValueBackend)
  | table (backend : TableBackend)
deriving Repr, Inhabited

namespace Backend

/-- The identity of a backend. -/
def id : Backend → BackendId
  | .keyValue b => b.id
  | .table b => b.id

/-- The name of the way a backend keeps attributes. -/
def name : Backend → String
  | .keyValue _ => "key_value"
  | .table _ => "table"

/-- The model that a backend belongs to. -/
def model : Backend → Model
  | .keyValue b => b.model
  | .table b => b.model

/-- The attributes that a backend keeps. -/
def attributeNames : Backend → List String
  | .keyValue b => b.attributeNames
  | .table b => b.attributeNames

/-- Whether a backend keeps an attribute. -/
def keeps (b : Backend) (attributeName : String) : Bool :=
  b.attributeNames.contains attributeName

/-- The reference to an attribute in a locale, whether or not the backend keeps it. -/
def reference (b : Backend) (attributeName : String) (locale : Locale) : Reference :=
  match b with
  | .keyValue b => b.reference attributeName locale
  | .table b => b.reference attributeName locale

/-- The predicate leaf for an attribute in a locale. -/
def buildNode (b : Backend) (attributeName : String) (locale : Locale) :
    Except InferenceError Expr :=
  if b.keeps attributeName then .ok (.localized (b.reference attributeName locale))
  else .error (.unknownAttribute b.name b.model.table attributeName)

/-- The joins that a predicate needs from this backend. -/
def planJoins (b : Backend) (predicate : Expr) (locale : Locale) (invert : Bool) :
    Except InferenceError (List JoinRequirement) :=
  match b with
  | .keyValue b => b.planJoins predicate locale invert
  | .table b => b.planJoins predicate locale invert

/-- Attaches the joins that a predicate needs, but not the predicate. -/
def applyJoins (b : Backend) (q : Query) (predicate : Expr) (locale : Locale) (invert : Bool) :
    Except InferenceError Query :=
  (b.planJoins predicate locale invert).map q.applyPlan

/-- Attaches the joins that a predicate needs and then the predicate. -/
def whereClause (b : Backend) (q : Query) (predicate : Expr) (locale : Locale) (invert : Bool) :
    Except InferenceError Query :=
  (b.applyJoins q predicate locale invert).map fun q => q.filterBy predicate invert

end Backend

end LocalizedQuery
