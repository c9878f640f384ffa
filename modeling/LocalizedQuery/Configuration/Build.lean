import LocalizedQuery.Configuration.Settings
import LocalizedQuery.Registry

/-!
# From settings to backends

`Settings.registry` builds the backends that settings declare. Models are built in the order of
their names and the groups of a model in the order in which they stand, so the first offence is
reported.
-/

namespace LocalizedQuery

/-- A group of attributes that share a backend. -/
inductive GroupSettings where
  | keyValue (settings : KeyValueSettings)
  | table (settings : TableSettings)
deriving DecidableEq, Repr, Inhabited

/-- The backend of a group, with a given identity. -/
def GroupSettings.backend (model : Model) (id : BackendId) :
    GroupSettings → Except ConfigurationError Backend
  | .keyValue settings =>
    match KeyValueType.ofName? settings.typeName with
    | none => .error (.unknownKeyValueType model.table settings.typeName)
    | some type => .ok (.keyValue {
        id := id
        model := model
        type := type
        table := settings.table.getD type.defaultTable
        columns := settings.columns.getD {}
        attributeNames := settings.attributeNames })
  | .table settings =>
    let backend : TableBackend :=
      { id := id, model := model, attributeNames := settings.attributeNames }
    .ok (.table { backend with
      table := settings.table.getD backend.table
      foreignKey := settings.foreignKey.getD backend.foreignKey })

namespace ModelSettings

/-- The model over a table, with what is declared of it. -/
def model (settings : ModelSettings) (table : String) : Model :=
  let model := Model.ofTable table
  { model with
    typeName := settings.typeName.getD model.typeName
    primaryKey := settings.primaryKey.getD model.primaryKey }

/-- The groups of a model: those in key-value tables, then the one in a table of its own. -/
def groups (settings : ModelSettings) : List GroupSettings :=
  settings.keyValue.map .keyValue ++ settings.table.toList.map .table

/-- The localized model over a table. Its backends are numbered from `first` on. -/
def build (settings : ModelSettings) (table : String) (first : Nat) :
    Except ConfigurationError LocalizedModel :=
  let model := settings.model table
  if settings.groups.isEmpty then .error (.noBackends table)
  else settings.groups.zipIdx.foldlM (fun built (group, index) => do
    built.withBackend (← group.backend model ⟨first + index⟩)) { model := model }

end ModelSettings

namespace Settings

/-- Adds models to a registry. The backends are numbered from `first` on. -/
def addModels (registry : Registry) (first : Nat) :
    List (String × ModelSettings) → Except ConfigurationError Registry
  | [] => .ok registry
  | (table, settings) :: rest => do
    let built ← settings.build table first
    addModels (registry.insert built) (first + settings.groups.length) rest

/-- The models that settings declare. -/
def registry (settings : Settings) : Except ConfigurationError Registry :=
  addModels {} 0 settings.models.entries

end Settings

end LocalizedQuery
