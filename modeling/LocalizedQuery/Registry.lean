import LocalizedQuery.LocalizedModel

/-!
# Registries

A registry holds many localized models, one per table, in the order of the table names.
-/

namespace LocalizedQuery

/-- Many localized models. -/
structure Registry where
  /-- By the tables of the models. -/
  byTable : NameMap LocalizedModel := {}
deriving Repr, Inhabited

namespace Registry

/-- Adds a model; one over the same table gives way. -/
def insert (registry : Registry) (t : LocalizedModel) : Registry :=
  ⟨registry.byTable.insert t.model.table t⟩

/-- All models, in the order of their tables. -/
def models (registry : Registry) : List LocalizedModel := registry.byTable.values

/-- The model over a table. -/
def get? (registry : Registry) (table : String) : Option LocalizedModel :=
  registry.byTable.get? table

/-- The model over a table, which has to be there. -/
def get (registry : Registry) (table : String) : Except ConfigurationError LocalizedModel :=
  match registry.get? table with
  | some t => .ok t
  | none => .error (.unknownModel table)

/-- How many models there are. -/
def size (registry : Registry) : Nat := registry.byTable.size

end Registry

end LocalizedQuery
