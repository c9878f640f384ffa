import LocalizedQuery.Inference.Visitor
import LocalizedQuery.JoinPlan
import LocalizedQuery.Model
import LocalizedQuery.NameMap

/-!
# Key-value tables

One table, shared by many models, holds a row for every localized value, found by the name of the
attribute, the locale and the record that owns it. Each attribute and locale is a join of its own.

The inference gives a kind to every attribute that a predicate mentions. A reference needs its row;
a comparison with `NULL` may hold because the row is missing, and either side of an `OR` may hold
without the rows of the other, so attributes under these are joined outer.
-/

namespace LocalizedQuery

/-- Which shared table holds the values. -/
inductive KeyValueType where
  | string
  | text
deriving DecidableEq, Repr, Inhabited

namespace KeyValueType

/-- The name of a type. -/
def name : KeyValueType → String
  | .string => "string"
  | .text => "text"

/-- The type with the given name. -/
def ofName? : String → Option KeyValueType
  | "string" => some .string
  | "text" => some .text
  | _ => none

/-- The table of a type where none is named. -/
def defaultTable (type : KeyValueType) : String := type.name ++ "_translations"

end KeyValueType

/-- The column names of a key-value table. -/
structure KeyValueColumns where
  key : String := "key"
  value : String := "value"
  locale : String := "locale"
  ownerId : String := "translatable_id"
  ownerType : String := "translatable_type"
deriving DecidableEq, Repr, Inhabited

/-- Attributes of a model that are kept in a key-value table. -/
structure KeyValueBackend where
  id : BackendId
  model : Model
  type : KeyValueType
  table : String := type.defaultTable
  columns : KeyValueColumns := {}
  attributeNames : List String
deriving Repr, Inhabited

/-- The kinds of the attributes that a predicate mentions. -/
abbrev JoinMap := NameMap JoinKind

namespace JoinMap

/-- Notes a need for an attribute, next to those noted before. -/
def add (name : String) (kind : JoinKind) (joins : JoinMap) : JoinMap :=
  joins.insertWith JoinKind.merge name kind

/-- The needs of two neighbours. -/
def merge (left right : JoinMap) : JoinMap :=
  right.entries.foldl (fun joins entry => joins.add entry.1 entry.2) left

/-- The same attributes, all joined outer. -/
def allOuter (joins : JoinMap) : JoinMap := joins.map fun _ => .outer

end JoinMap

namespace KeyValueBackend

/-- The alias of the join that serves an attribute in a locale. -/
def aliasName (b : KeyValueBackend) (attributeName : String) (locale : Locale) : String :=
  s!"{b.model.singular}_{attributeName}_{locale.normalized}_{b.table}"

/-- The join that serves an attribute in a locale. -/
def joinTarget (b : KeyValueBackend) (attributeName : String) (locale : Locale) : JoinTarget :=
  let joined := b.aliasName attributeName locale
  let column := Expr.qualified joined
  { table := { table := b.table, alias? := some joined }
    on := ((((column b.columns.ownerId).equals (.qualified b.model.table b.model.primaryKey)).both
      ((column b.columns.locale).equals (.text locale.tag))).both
      ((column b.columns.key).equals (.text attributeName))).both
      ((column b.columns.ownerType).equals (.text b.model.typeName)) }

/-- The reference to an attribute in a locale. -/
def reference (b : KeyValueBackend) (attributeName : String) (locale : Locale) : Reference :=
  { backend := b.id
    attributeName := attributeName
    locale := locale
    table := b.aliasName attributeName locale
    column := b.columns.value }

/-- The inference of one backend in one locale. -/
def visitor (id : BackendId) (locale : Locale) : Visitor (Except InferenceError) JoinMap where
  owns := Reference.belongsTo id locale
  localized ref := JoinMap.add ref.attributeName .inner {}
  combine := JoinMap.merge
  empty := {}
  equality operands null := do
    let joins ← operands.foldlM (fun joins operand => do
      return JoinMap.merge joins (← operand.result)) {}
    return if null then joins.allOuter else joins
  disjunction left right := do
    return ((← left.result).merge (← right.result)).allOuter

/-- The kinds of the attributes that a predicate mentions. -/
def infer (b : KeyValueBackend) (predicate : Expr) (locale : Locale) :
    Except InferenceError JoinMap :=
  (visitor b.id locale).accept predicate

/-- The joins that a predicate needs: one for each attribute, in the order of their names. -/
def planJoins (b : KeyValueBackend) (predicate : Expr) (locale : Locale) (invert : Bool) :
    Except InferenceError (List JoinRequirement) :=
  (b.infer predicate locale).map fun joins => joins.entries.map fun entry =>
    { attributeName := some entry.1
      target := b.joinTarget entry.1 locale
      kind := entry.2.forPredicate invert }

end KeyValueBackend

end LocalizedQuery
