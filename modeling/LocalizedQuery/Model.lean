import LocalizedQuery.Sql.Query
import LocalizedQuery.Text.Inflection

/-!
# Models

A model is the table whose records have localized attributes, with the names that the tables of
localized values derive from it.
-/

namespace LocalizedQuery

/-- The table whose records have localized attributes. -/
structure Model where
  table : String
  primaryKey : String
  /-- The owner type that shared key-value tables store. -/
  typeName : String
  /-- The singular name that other names derive from. -/
  singular : String
deriving DecidableEq, Repr, Inhabited

namespace Model

/-- The model over a table: its primary key is `id`, its other names follow from the table's. -/
def ofTable (table : String) : Model :=
  let singular := singularName table
  { table := table, primaryKey := "id", typeName := pascalName singular, singular := singular }

/-- The query for all records: `SELECT table.* FROM table`. -/
def baseQuery (model : Model) : Query :=
  { select := [.star (some model.table)], source := some { table := model.table } }

end Model

end LocalizedQuery
