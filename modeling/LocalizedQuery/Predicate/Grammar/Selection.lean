import LocalizedQuery.Predicate.Grammar.Table

/-!
# Selections

A selection is what follows the word `SELECT`: expressions and wildcards, the tables they come from,
conditions, groups and windows. It is read as its canonical spelling.
-/

namespace LocalizedQuery

namespace Rules

open Reader

/-! ## Selected expressions -/

/-- A column renamed, as `a AS b`. -/
def renamedColumn : Reader String := do
  let n ← name
  word "AS"
  return n.written ++ " AS " ++ (← name).written

/-- One item, or several in parentheses. -/
def oneOrSeveral (item : Reader String) : Reader String := do
  if ← atSymbol "(" then return s!"({commaList (← parenthesized (commaSeparated item))})"
  item

/-- What a wildcard leaves out, replaces and renames. -/
def wildcardOptions (rules : Rules) : Reader String := do
  let column : Reader String := do return (← name).written
  let pattern ← if ← word? "ILIKE" then do
      match ← next with
      | .quoted text => pure (" ILIKE " ++ Lexeme.quoteText text)
      | _ => unexpected
    else pure ""
  let excluded ← if pattern.isEmpty then clause ["EXCLUDE"] (oneOrSeveral column) else pure ""
  let omitted ← clause ["EXCEPT"] do
    if ← atSymbol "(" then nameList else return s!"({← column})"
  let replaced ← clause ["REPLACE"] do
    let items ← parenthesized (commaSeparated do
      let e ← rules.spelled
      let link := if ← word? "AS" then " AS " else " "
      return e ++ link ++ (← column))
    return s!"({commaList items})"
  let renamed ← clause ["RENAME"] (oneOrSeveral renamedColumn)
  return pattern ++ excluded ++ omitted ++ replaced ++ renamed

/-- A selected expression. -/
def selectItem (rules : Rules) : Reader String := do
  match ← rules.argumentValue with
  | .special wildcard => return wildcard ++ (← rules.wildcardOptions)
  | .positional tree =>
    if let .name n := tree then
      if n.upper? == some "FROM" then unexpected
    match ← aliasName? noColumnAlias with
    | some n => return tree.written ++ " AS " ++ n.written
    | none => return tree.written

/-- Which of equal rows are kept. -/
def distinctClause (rules : Rules) : Reader String := do
  let all ← word? "ALL"
  unless ← word? "DISTINCT" do return ""
  if all then unexpected
  unless ← word? "ON" do return " DISTINCT"
  symbol "("
  let keys ← commaSeparatedTo ")" rules.spelled
  return s!" DISTINCT ON ({commaList keys})"

/-- How many rows are kept. -/
def topClause (rules : Rules) : Reader String := do
  unless ← word? "TOP" do return ""
  let quantity ← if ← atSymbol "(" then do pure s!"({← parenthesized rules.spelled})" else digits
  let percent ← if ← word? "PERCENT" then pure " PERCENT" else pure ""
  let ties ← if ← words? ["WITH", "TIES"] then pure " WITH TIES" else pure ""
  return s!" TOP {quantity}{percent}{ties}"

/-- The table that the rows are written to. -/
def intoClause : Reader String := do
  unless ← word? "INTO" do return ""
  let temporary ← match ← oneOf? ["TEMP", "TEMPORARY"] with
    | some _ => pure " TEMPORARY"
    | none => pure ""
  let unlogged ← if ← word? "UNLOGGED" then pure " UNLOGGED" else pure ""
  let table ← if ← word? "TABLE" then pure " TABLE" else pure ""
  return s!" INTO{temporary}{unlogged}{table} {← pathText}"

/-! ## Rows and groups -/

/-- Rows made from the elements of a value of each row. -/
def lateralView? (rules : Rules) : Reader (Option String) := do
  unless ← words? ["LATERAL", "VIEW"] do return none
  let outer ← if ← word? "OUTER" then pure " OUTER" else pure ""
  let e ← rules.spelled
  let table ← pathText
  let columns ← commaSeparated (aliasName? ["WHERE", "GROUP", "CLUSTER", "HAVING", "LATERAL"])
  let columns := (columns.filterMap id).map Name.written
  let names := if columns.isEmpty then "" else s!" AS {commaList columns}"
  return some s!" LATERAL VIEW{outer} {e} {table}{names}"

/-- Expressions in parentheses, perhaps none. -/
def groupTuple (rules : Rules) : Reader (List String) := do
  symbol "("
  commaSeparatedTo ")" rules.spelled

/-- Expressions to group by at once: one alone, or some in parentheses. -/
def groupSet (rules : Rules) : Reader String := do
  if ← atSymbol "(" then
    match ← rules.groupTuple with
    | [single] => return single
    | several => return s!"({commaList several})"
  rules.spelled

/-- An expression to group by, or a family of groupings. -/
def groupItem (rules : Rules) : Reader String := do
  if ← words? ["GROUPING", "SETS"] then
    let sets ← parenthesized (commaSeparated do return s!"({commaList (← rules.groupTuple)})")
    return s!"GROUPING SETS ({commaList sets})"
  match ← oneOf? ["CUBE", "ROLLUP"] with
  | some w => return s!"{w} ({commaList (← parenthesized (commaSeparated rules.groupSet))})"
  | none =>
    if (← atSymbol "(") && (← peekAfter? 1) == some (.symbol ")") then
      symbol "("
      symbol ")"
      return "()"
    rules.spelled

/-- How rows are grouped. -/
def groupClause (rules : Rules) : Reader String := do
  unless ← words? ["GROUP", "BY"] do return ""
  let items ← if ← word? "ALL" then pure "ALL"
    else do pure (commaList (← commaSeparated rules.groupItem))
  let modifiers ← repeated do
    unless ← word? "WITH" do return none
    match ← oneOf? ["ROLLUP", "CUBE", "TOTALS"] with
    | some w => return some s!" WITH {w}"
    | none => unexpected
  return s!" GROUP BY {items}{String.join modifiers}"

/-- A window with a name. -/
def namedWindow (rules : Rules) : Reader String := do
  let n ← name
  word "AS"
  if ← symbol? "(" then return s!"{n.written} AS ({← rules.window})"
  return n.written ++ " AS " ++ (← name).written

/-- How rows form a hierarchy: where it starts and which rows are the children of a row. The start
is written first. -/
def hierarchyClause (rules : Rules) : Reader String := do
  let start : Reader String := do
    words ["START", "WITH"]
    rules.spelled
  let children : Reader String := do
    words ["CONNECT", "BY"]
    return commaList (← commaSeparated do return (← rules.nested true 0).written)
  if ← atWord ["CONNECT"] then
    let links ← children
    return s!" START WITH {← start} CONNECT BY {links}"
  if ← atWord ["START"] then
    let first ← start
    return s!" START WITH {first} CONNECT BY {← children}"
  return ""

/-- A selection behind its first word. -/
def selection (rules : Rules) : Reader String := do
  let distinct ← rules.distinctClause
  let top ← rules.topClause
  let items ← commaSeparated rules.selectItem
  let into ← intoClause
  let source ← clause ["FROM"] do return commaList (← commaSeparated rules.joinedTable)
  let views ← repeated rules.lateralView?
  let early ← clause ["PREWHERE"] rules.spelled
  let condition ← clause ["WHERE"] rules.spelled
  let groups ← rules.groupClause
  let clusters ← clause ["CLUSTER", "BY"] rules.spelledList
  let shares ← clause ["DISTRIBUTE", "BY"] rules.spelledList
  let sorts ← clause ["SORT", "BY"] rules.spelledList
  let having ← clause ["HAVING"] rules.spelled
  let windows := clause ["WINDOW"] do return commaList (← commaSeparated rules.namedWindow)
  let first ← windows
  let qualify ← clause ["QUALIFY"] rules.spelled
  let second ← if first.isEmpty && !qualify.isEmpty then windows else pure ""
  let hierarchy ← rules.hierarchyClause
  return "SELECT" ++ distinct ++ top ++ " " ++ commaList items ++ into ++ source ++
    String.join views ++ early ++ condition ++ groups ++ clusters ++ shares ++ sorts ++ having ++
    first ++ qualify ++ second ++ hierarchy

end Rules

end LocalizedQuery
