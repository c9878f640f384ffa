import LocalizedQuery.Predicate.Grammar.RowPattern

/-!
# Tables of a query

A query reads tables, calls that give tables, and queries in the place of a table, each with an
alias, and joins of these. All are read as their canonical spellings.

Parentheses around a single table are dropped, so that an alias behind them goes to the table
inside; around a join they stay. That is why a table is read as a `TableSource`, in which the alias
can still be filled in.
-/

namespace LocalizedQuery

/-- A table or what stands in its place, by its canonical spelling. -/
structure TableSource where
  /-- What stands before the alias. -/
  head : String
  /-- The alias, with the names it gives to columns. -/
  correlation? : Option String := none
  /-- What stands behind the alias. -/
  tail : String := ""
  /-- Whether it is a join in parentheses. -/
  isJoin : Bool := false

/-- The canonical spelling of a table. -/
def TableSource.written (table : TableSource) : String :=
  table.head ++ (match table.correlation? with
    | some correlation => " AS " ++ correlation
    | none => "") ++ table.tail

namespace Rules

open Reader

/-! ## Aliases -/

/-- Words that start the next part of a query and so are no alias without `AS`. -/
def partWords : List String :=
  ["WITH", "EXPLAIN", "ANALYZE", "SELECT", "WHERE", "GROUP", "SORT", "HAVING", "ORDER", "TOP",
   "LATERAL", "VIEW", "LIMIT", "OFFSET", "FETCH", "UNION", "EXCEPT", "INTERSECT", "CLUSTER",
   "DISTRIBUTE"]

/-- Words that are no alias of an expression. -/
def noColumnAlias : List String := partWords ++ ["RETURNING", "FROM", "INTO", "END"]

/-- Words that are no alias of a table. -/
def noTableAlias : List String :=
  partWords ++ ["PIVOT", "UNPIVOT", "ON", "JOIN", "INNER", "CROSS", "FULL", "LEFT", "RIGHT",
   "NATURAL", "USING", "GLOBAL", "ANTI", "SEMI", "OUTER", "SET", "QUALIFY", "WINDOW", "END", "FOR",
   "PARTITION", "PREWHERE", "SETTINGS", "FORMAT", "START", "CONNECT", "MATCH_RECOGNIZE"]

/-- The names that an alias gives to columns, each with a type or without. -/
def aliasColumns (rules : Rules) : Reader String := do
  unless ← atSymbol "(" do return ""
  let columns ← parenthesized (commaSeparated do
    let n ← name
    let type := match ← attempt rules.dataTypeText with
      | some type => " " ++ type
      | none => ""
    return n.written ++ type)
  return s!" ({commaList columns})"

/-- The alias of a table. -/
def tableAlias (rules : Rules) : Reader (Option String) := do
  match ← aliasName? noTableAlias with
  | some n => return some (n.written ++ (← rules.aliasColumns))
  | none => return none

/-- A table with the alias that may follow it. -/
def withAlias (rules : Rules) (head : String) : Reader TableSource := do
  return { head := head, correlation? := ← rules.tableAlias }

/-! ## Calls that give tables -/

/-- Settings behind their word. -/
def settings? : Reader (Option String) := do
  unless ← word? "SETTINGS" do return none
  let all ← commaSeparated do
    let n ← name
    symbol "="
    return n.written ++ " = " ++ (← valueText)
  return some ("SETTINGS " ++ commaList all)

/-- An argument, by its canonical spelling. -/
def argumentText (rules : Rules) : Reader String := do
  match ← rules.argument with
  | .positional tree => return tree.written
  | .special spelling => return spelling

/-- Arguments, of which the last can be settings. -/
def tableArguments (rules : Rules) : Reader (List String) :=
  commaSeparated do
    match ← settings? with
    | some spelling => return spelling
    | none => rules.argumentText

/-- A query in the place of a table, behind its opening parenthesis. -/
def derivedTable (rules : Rules) (lead : String) : Reader TableSource := do
  let q ← rules.query
  symbol ")"
  rules.withAlias s!"{lead}({q})"

/-- A query or call that can use the tables before it, behind its word. -/
def lateralTable (rules : Rules) : Reader TableSource := do
  if ← symbol? "(" then rules.derivedTable "LATERAL "
  else
    let function ← pathText
    symbol "("
    let args ← commaSeparatedTo ")" rules.argumentText
    rules.withAlias s!"LATERAL {function}({commaList args})"

/-- A row of values. -/
def valueRow (rules : Rules) : Reader (String × Bool) := do
  let explicit ← word? "ROW"
  return (s!"({← parenthesized rules.spelledList})", explicit)

/-- Rows of values behind their word. If one of them is marked as a row, all are. -/
def valueRows (rules : Rules) : Reader String := do
  let rows ← commaSeparated rules.valueRow
  let mark := if rows.any Prod.snd then "ROW" else ""
  return "VALUES " ++ commaList (rows.map fun row => mark ++ row.1)

/-- The elements of arrays as rows, behind their word. A `WITH` that does not go on with `OFFSET` is
dropped. -/
def unnestedTable (rules : Rules) : Reader TableSource := do
  let arrays ← parenthesized rules.spelledList
  let ordinality ← if ← words? ["WITH", "ORDINALITY"] then pure " WITH ORDINALITY" else pure ""
  let correlation? ← rules.tableAlias
  let withOffset ← if ← word? "WITH" then word? "OFFSET" else pure false
  let offset ← if withOffset then do
      match ← aliasName? noColumnAlias with
      | some n => pure (" WITH OFFSET AS " ++ n.written)
      | none => pure " WITH OFFSET"
    else pure ""
  return {
    head := s!"UNNEST({arrays}){ordinality}", correlation? := correlation?, tail := offset }

/-- What a column gives where a document has no value or a wrong one, and which of the two. -/
def columnFallback? : Reader (Option (String × String)) := do
  let what? ←
    if ← word? "NULL" then pure (some "NULL")
    else if ← word? "ERROR" then pure (some "ERROR")
    else if ← word? "DEFAULT" then do pure (some ("DEFAULT " ++ (← valueText)))
    else pure none
  match what? with
  | none => return none
  | some what =>
    word "ON"
    match ← oneOf? ["EMPTY", "ERROR"] with
    | some event => return some (event, what)
    | none => unexpected

/-- A column of a table made from a document, at most `fuel` levels deep. -/
def documentColumn (rules : Rules) : (fuel : Nat) → Reader String
  | 0 => unexpected
  | fuel + 1 => do
    if ← word? "NESTED" then
      let _ ← word? "PATH"
      let path ← valueText
      word "COLUMNS"
      let columns ← parenthesized (commaSeparated (documentColumn rules fuel))
      return s!"NESTED PATH {path} COLUMNS ({commaList columns})"
    let n ← name
    if ← word? "FOR" then
      word "ORDINALITY"
      return n.written ++ " FOR ORDINALITY"
    let type ← rules.dataTypeText
    let test ← if ← word? "EXISTS" then pure " EXISTS" else pure ""
    word "PATH"
    let path ← valueText
    let fallbacks ← repeated columnFallback?
    let ending := ["EMPTY", "ERROR"].map fun event =>
      match fallbacks.reverse.lookup event with
      | some what => s!" {what} ON {event}"
      | none => ""
    return s!"{n.written} {type}{test} PATH {path}{String.join ending}"

/-- A table made from a document by paths, behind its word. -/
def documentTable (rules : Rules) : Reader TableSource := do
  symbol "("
  let document ← rules.spelled
  symbol ","
  let path ← valueText
  word "COLUMNS"
  let columns ← parenthesized (commaSeparated do rules.documentColumn (← get).length)
  symbol ")"
  rules.withAlias s!"JSON_TABLE({document}, {path} COLUMNS({commaList columns}))"

/-- A column of an opened document. -/
def openedColumn (rules : Rules) : Reader String := do
  let n ← name
  let type ← rules.dataTypeText
  let path ← match ← peek? with
    | some (.quoted path) => do
      let _ ← next
      pure (" " ++ Lexeme.quoteText path)
    | _ => pure ""
  let document ← if ← word? "AS" then do
      word "JSON"
      pure " AS JSON"
    else pure ""
  return s!"{n.written} {type}{path}{document}"

/-- A document opened as a table, behind its word. -/
def openedDocument (rules : Rules) : Reader TableSource := do
  symbol "("
  let document ← rules.spelled
  let path ← if ← symbol? "," then do pure (", " ++ (← valueText)) else pure ""
  symbol ")"
  let columns ← if ← word? "WITH" then do
      pure s!" WITH ({commaList (← parenthesized (commaSeparated rules.openedColumn))})"
    else pure ""
  rules.withAlias s!"OPENJSON({document}{path}){columns}"

/-! ## Turned tables -/

/-- An expression, which `expression` reads, with a name for it. -/
def namedExpression (expression : Reader String) : Reader String := do
  let spelling ← expression
  if ← word? "AS" then return spelling ++ " AS " ++ (← name).written
  return spelling

/-- A call by an unqualified name, which loses its quotes. -/
def aggregateCall (rules : Rules) : Reader String := do
  match ← next with
  | .word n => return (← rules.call [{ text := n.text }] false).written
  | _ => unexpected

/-- The values that become columns. -/
def pivotValues (rules : Rules) : Reader String := do
  if ← word? "ANY" then
    if ← words? ["ORDER", "BY"] then return "ANY " ++ (← rules.orderClause)
    return "ANY"
  if ← atWord ["SELECT", "WITH"] then rules.query
  else return commaList (← commaSeparated (namedExpression rules.spelled))

/-- A table whose rows become columns, behind its word. -/
def pivotTable (rules : Rules) (table : String) : Reader TableSource := do
  symbol "("
  let aggregates ← commaSeparated (namedExpression rules.aggregateCall)
  word "FOR"
  let column ← pathText
  word "IN"
  let values ← parenthesized rules.pivotValues
  let default ← if ← words? ["DEFAULT", "ON", "NULL"] then do
      pure s!" DEFAULT ON NULL ({← parenthesized rules.spelled})"
    else pure ""
  symbol ")"
  rules.withAlias
    s!"{table} PIVOT({commaList aggregates} FOR {column} IN ({values}){default})"

/-- A table whose columns become rows, behind its word. -/
def unpivotTable (rules : Rules) (table : String) : Reader TableSource := do
  symbol "("
  let value ← name
  word "FOR"
  let column ← name
  word "IN"
  let columns ← nameList
  symbol ")"
  rules.withAlias s!"{table} UNPIVOT({value.written} FOR {column.written} IN {columns})"

/-- A table turned as often as that is asked for, at most `fuel` times. -/
def turned (rules : Rules) : (fuel : Nat) → TableSource → Reader TableSource
  | 0, table => return table
  | fuel + 1, table => do
    if ← word? "PIVOT" then turned rules fuel (← rules.pivotTable table.written)
    else if ← word? "UNPIVOT" then turned rules fuel (← rules.unpivotTable table.written)
    else return table

/-! ## Tables -/

/-- A table by its name, or a call of a function by its name. -/
def namedTable (rules : Rules) : Reader TableSource := do
  let n ← pathText
  let partitions ← if ← word? "PARTITION" then do pure ("PARTITION " ++ (← nameList)) else pure ""
  let args ← if ← symbol? "(" then do
      if ← symbol? ")" then pure "()"
      else
        let all ← rules.tableArguments
        symbol ")"
        pure s!"({commaList all})"
    else pure ""
  let ordinality ← if ← words? ["WITH", "ORDINALITY"] then pure " WITH ORDINALITY" else pure ""
  let correlation? ← rules.tableAlias
  let hasHints := (← peek?).any (Lexeme.isWord "WITH") && (← peekAfter? 1) == some (.symbol "(")
  let hints ← if hasHints then do
      word "WITH"
      pure s!" WITH ({← parenthesized rules.spelledList})"
    else pure ""
  let table : TableSource :=
    { head := n ++ partitions ++ args ++ ordinality, correlation? := correlation?, tail := hints }
  let table ← rules.turned (← get).length table
  if ← word? "MATCH_RECOGNIZE" then
    rules.withAlias (table.written ++ " " ++ (← rules.patternSearch))
  else return table

/-! ## Joins -/

/-- How a table is joined. -/
structure JoinForm where
  /-- The words before the table. -/
  words : String
  /-- Whether a condition can follow. -/
  hasConstraint : Bool := true

/-- The words of a join. -/
def joinForm? (natural : Bool) : Reader (Option JoinForm) := do
  unless natural do
    if ← word? "CROSS" then
      if ← word? "JOIN" then return some { words := "CROSS JOIN", hasConstraint := false }
      word "APPLY"
      return some { words := "CROSS APPLY", hasConstraint := false }
    if ← word? "OUTER" then
      word "APPLY"
      return some { words := "OUTER APPLY", hasConstraint := false }
    if ← word? "ASOF" then
      word "JOIN"
      return some { words := "ASOF JOIN" }
  if ← word? "JOIN" then return some { words := "JOIN" }
  match ← oneOf? ["INNER", "LEFT", "RIGHT", "ANTI", "SEMI", "FULL"] with
  | some "INNER" =>
    word "JOIN"
    return some { words := "JOIN" }
  | some "FULL" =>
    let _ ← word? "OUTER"
    word "JOIN"
    return some { words := "FULL JOIN" }
  | some w =>
    let isSide := w == "LEFT" || w == "RIGHT"
    let kind ← if isSide then oneOf? ["OUTER", "SEMI", "ANTI"] else pure none
    word "JOIN"
    return some { words := match kind with
      | some "SEMI" => w ++ " SEMI JOIN"
      | some "ANTI" => w ++ " ANTI JOIN"
      | _ => w ++ " JOIN" }
  | none => return none

/-- The condition of a join. -/
def joinConstraint (rules : Rules) : Reader String := do
  if ← word? "ON" then return " ON " ++ (← rules.spelled)
  if ← word? "USING" then return " USING" ++ (← nameList)
  return ""

/-- A join behind the table before it; `table` reads the one that is joined. A `GLOBAL` without a
join is dropped. -/
def join? (rules : Rules) (table : Reader TableSource) : Reader (Option String) := do
  let scope ← if ← word? "GLOBAL" then pure " GLOBAL" else pure ""
  let natural ← word? "NATURAL"
  match ← joinForm? natural with
  | none => if natural then unexpected else return none
  | some form =>
    let joined ← table
    let condition ← if form.words = "ASOF JOIN" then do
        word "MATCH_CONDITION"
        pure s!" MATCH_CONDITION ({← parenthesized rules.spelled})"
      else pure ""
    let constraint ← if natural || !form.hasConstraint then pure "" else rules.joinConstraint
    let lead := if natural then " NATURAL " else " "
    return some (scope ++ lead ++ form.words ++ " " ++ joined.written ++ condition ++ constraint)

/-- A table and the joins behind it. -/
def joinParts (rules : Rules) (table : Reader TableSource) :
    Reader (TableSource × List String) := do
  let first ← table
  return (first, ← repeated (rules.join? table))

/-- What stands behind an opening parenthesis in the place of a table: a query or else tables, which
`table` reads. -/
def parenthesizedTable (rules : Rules) (table : Reader TableSource) : Reader TableSource := do
  match ← attempt (rules.derivedTable "") with
  | some derived => rules.turned (← get).length derived
  | none =>
    let (first, joins) ← rules.joinParts table
    symbol ")"
    if first.isJoin || !joins.isEmpty then
      let join ← rules.withAlias s!"({first.written}{String.join joins})"
      return { join with isJoin := true }
    match first.correlation?, ← rules.tableAlias with
    | _, none => return first
    | none, some correlation => return { first with correlation? := some correlation }
    | some _, some _ => unexpected

/-- Takes a word if it comes next and an opening parenthesis follows it. -/
def callWord? (w : String) : Reader Bool := do
  if (← peekAfter? 1) == some (.symbol "(") then word? w else return false

/-- A table or what stands in its place, with parentheses at most `fuel` levels deep. -/
def tableAt (rules : Rules) : (fuel : Nat) → Reader TableSource
  | 0 => unexpected
  | fuel + 1 => do
    if ← word? "LATERAL" then rules.lateralTable
    else if ← word? "TABLE" then rules.withAlias s!"TABLE({← parenthesized rules.spelled})"
    else if ← symbol? "(" then rules.parenthesizedTable (tableAt rules fuel)
    else if ← callWord? "VALUES" then rules.withAlias s!"({← rules.valueRows})"
    else if ← word? "UNNEST" then rules.unnestedTable
    else if ← callWord? "JSON_TABLE" then rules.documentTable
    else if ← callWord? "OPENJSON" then rules.openedDocument
    else rules.namedTable

/-- A table with the tables joined to it. -/
def joinedTable (rules : Rules) : Reader String := do
  let (first, joins) ← rules.joinParts do rules.tableAt (← get).length
  return first.written ++ String.join joins

end Rules

end LocalizedQuery
