import LocalizedQuery.Predicate.Grammar.Selection

/-!
# Modifications

The grammar accepts rows to insert and to update in the place of a query, because they can return
rows. They are read as their canonical spellings.
-/

namespace LocalizedQuery

namespace Rules

open Reader

/-- What happens to a row that is in conflict with another. -/
def conflictRule? : Reader (Option String) := do
  for w in ["REPLACE", "ROLLBACK", "ABORT", "FAIL", "IGNORE"] do
    if ← words? ["OR", w] then return some s!"OR {w}"
  if ← word? "REPLACE" then return some "OR REPLACE"
  return none

/-- A column, or several in parentheses, with the new value. -/
def assignment (rules : Rules) : Reader String := do
  let target ← if ← atSymbol "(" then do
      pure s!"({commaList (← parenthesized (commaSeparated pathText))})"
    else pathText
  symbol "="
  return target ++ " = " ++ (← rules.spelled)

/-- The columns that a modification returns. -/
def returningClause (rules : Rules) : Reader String :=
  clause ["RETURNING"] do return commaList (← commaSeparated rules.selectItem)

/-- What happens instead of an insertion in conflict with a row. -/
def insertionConflict (rules : Rules) : Reader String := do
  unless ← word? "ON" do return ""
  let assignments : Reader String := do return commaList (← commaSeparated rules.assignment)
  if ← word? "CONFLICT" then
    let target ←
      if ← words? ["ON", "CONSTRAINT"] then do pure (" ON CONSTRAINT " ++ (← pathText))
      else if ← atSymbol "(" then nameList
      else pure ""
    word "DO"
    if ← word? "NOTHING" then return s!" ON CONFLICT{target} DO NOTHING"
    words ["UPDATE", "SET"]
    let changes ← assignments
    let condition ← clause ["WHERE"] rules.spelled
    return s!" ON CONFLICT{target} DO UPDATE SET {changes}{condition}"
  words ["DUPLICATE", "KEY", "UPDATE"]
  return s!" ON DUPLICATE KEY UPDATE {← assignments}"

/-- Rows written to files, behind the word `DIRECTORY`; `lead` is what stands before it. -/
def directoryInsertion (rules : Rules) (lead : String) : Reader String := do
  let path ← textValue
  let format ← if ← words? ["STORED", "AS"] then do
      match ← oneOf? ["AVRO", "JSONFILE", "ORC", "PARQUET", "RCFILE", "SEQUENCEFILE",
        "TEXTFILE"] with
      | some w => pure s!" STORED AS {w}"
      | none => unexpected
    else pure ""
  return s!"{lead} DIRECTORY '{path}'{format} {← rules.query}"

/-- The columns, partitions and rows of an insertion. -/
def insertedRows (rules : Rules) : Reader String := do
  if ← words? ["DEFAULT", "VALUES"] then return "DEFAULT VALUES"
  let isQuery := (← atSymbol "(") && (← peekAfter? 1).any (Lexeme.isWord "SELECT")
  let columns ← if (← atSymbol "(") && !isQuery then do pure ((← nameList) ++ " ") else pure ""
  let partition ← if ← word? "PARTITION" then do
      pure s!"PARTITION ({← parenthesized rules.spelledList}) "
    else pure ""
  return columns ++ partition ++ (← rules.query)

/-- Rows to insert, behind the first word. -/
def insertion (rules : Rules) : Reader String := do
  let conflict? ← conflictRule?
  let spelled (ws : List String) : Reader String := do
    return match ← oneOf? ws with
      | some w => " " ++ w
      | none => ""
  let priority ← spelled ["LOW_PRIORITY", "DELAYED", "HIGH_PRIORITY"]
  let ignored ← spelled ["IGNORE"]
  let overwrite ← spelled ["OVERWRITE"]
  let into ← spelled ["INTO"]
  let here ← spelled ["LOCAL"]
  if ← word? "DIRECTORY" then return ← rules.directoryInsertion s!"INSERT{overwrite}{here}"
  let table ← spelled ["TABLE"]
  let target ← pathText
  let rows ← rules.insertedRows
  let rowAlias ← if ← word? "AS" then do
      let n ← pathText
      let columns ← if ← atSymbol "(" then do pure (" " ++ (← nameList)) else pure ""
      pure s!" AS {n}{columns}"
    else pure ""
  let instead ← rules.insertionConflict
  let returned ← rules.returningClause
  let lead := match conflict? with
    | some conflict => s!"INSERT {conflict} INTO {target} "
    | none => s!"INSERT{priority}{ignored}{overwrite}{into}{table} {target} "
  return lead ++ rows ++ rowAlias ++ instead ++ returned

/-- Rows to update, behind the first word. -/
def update (rules : Rules) : Reader String := do
  let conflict ← match ← conflictRule? with
    | some spelling => pure (" " ++ spelling)
    | none => pure ""
  let table ← rules.joinedTable
  word "SET"
  let changes ← commaSeparated rules.assignment
  let source ← clause ["FROM"] rules.joinedTable
  let condition ← clause ["WHERE"] rules.spelled
  let returned ← rules.returningClause
  return s!"UPDATE{conflict} {table} SET {commaList changes}{source}{condition}{returned}"

end Rules

end LocalizedQuery
