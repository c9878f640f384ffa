import LocalizedQuery.Predicate.Grammar.Modification

/-!
# Queries inside predicates

No query inside a predicate can be compiled, but its canonical spelling belongs to the message that
says so. A query is a selection, a list of values or a table, or several of these joined by the
operations of sets; named queries stand before it, and an order, limits and locks behind it.
-/

namespace LocalizedQuery

namespace Rules

open Reader

/-! ## Operations of sets -/

/-- A table as a query, behind its word. Three lexemes are taken: a name, a period and a name, or
else a name and two of any kind. Names lose their quotes. -/
def tableQuery : Reader String := do
  let first ← next
  let second ← next
  let third ← next
  match first, second, third with
  | .word schema, .symbol ".", .word table => return s!"TABLE {schema.text}.{table.text}"
  | _, .symbol ".", _ => unexpected
  | .word table, _, _ => return s!"TABLE {table.text}"
  | _, _, _ => unexpected

/-- A query without operations of sets. -/
def querySimple (rules : Rules) : Reader String := do
  if ← word? "SELECT" then rules.selection
  else if ← symbol? "(" then
    let q ← rules.query
    symbol ")"
    return s!"({q})"
  else if ← word? "VALUES" then rules.valueRows
  else if ← word? "TABLE" then tableQuery
  else unexpected

/-- How tightly an operation of sets binds. -/
def setPrecedence? (lexeme : Option Lexeme) : Option (String × Nat) :=
  match lexeme.bind Lexeme.upper? with
  | some "UNION" => some ("UNION", 10)
  | some "EXCEPT" => some ("EXCEPT", 10)
  | some "INTERSECT" => some ("INTERSECT", 20)
  | _ => none

/-- Which rows an operation of sets keeps and which columns it matches. -/
def setQuantifier (operation : String) : Reader String := do
  let phrases := if operation = "UNION" then
      [["DISTINCT", "BY", "NAME"], ["BY", "NAME"], ["ALL", "BY", "NAME"], ["ALL"], ["DISTINCT"]]
    else [["ALL"], ["DISTINCT"]]
  for phrase in phrases do
    if ← words? phrase then return " " ++ " ".intercalate phrase
  return ""

/-- A query with operations of sets that bind tighter than `precedence`; `fuel` bounds their number
on one side. -/
def queryBody (rules : Rules) : (fuel precedence : Nat) → Reader String
  | 0, _ => unexpected
  | fuel + 1, precedence => do
    let first ← rules.querySimple
    let more ← repeated do
      match setPrecedence? (← peek?) with
      | some (operation, tightness) =>
        if precedence < tightness then
          let _ ← next
          let quantifier ← setQuantifier operation
          let right ← queryBody rules fuel tightness
          pure (some (" " ++ operation ++ quantifier ++ " " ++ right))
        else pure none
      | none => pure none
    return first ++ String.join more

/-! ## Named queries -/

/-- A named query before the main one. -/
def namedQuery (rules : Rules) : Reader String := do
  let n ← name
  let columns ← if ← atWord ["AS"] then pure "" else rules.aliasColumns
  word "AS"
  let q ← parenthesized rules.query
  let source ← if ← word? "FROM" then do pure (" FROM " ++ (← name).written) else pure ""
  return s!"{n.written}{columns} AS ({q}){source}"

/-! ## Order, limits and locks -/

/-- A column whose missing values are filled in. -/
def interpolation (rules : Rules) : Reader String := do
  let n ← name
  if ← word? "AS" then return n.written ++ " AS " ++ (← rules.spelled)
  return n.written

/-- The order of the rows. -/
def queryOrder (rules : Rules) : Reader String := do
  unless ← words? ["ORDER", "BY"] do return ""
  let order ← rules.orderClause
  unless ← word? "INTERPOLATE" do return " " ++ order
  unless ← symbol? "(" do return s!" {order} INTERPOLATE"
  let columns ← commaSeparatedTo ")" rules.interpolation
  return s!" {order} INTERPOLATE ({commaList columns})"

/-- How many rows there are at most, and how many are left out before them. -/
structure Limits where
  limit? : Option String := none
  offset? : Option String := none

/-- Reads on from the limits known so far. A limit can be missing behind its word, and two numbers
behind it are the rows left out and the limit. -/
def moreLimits (rules : Rules) (known : Limits) : Reader Limits := do
  let limit? ←
    if known.limit?.isNone then do
      if ← word? "LIMIT" then
        if ← word? "ALL" then pure none else some <$> rules.spelled
      else pure none
    else pure known.limit?
  let offset? ←
    if known.offset?.isNone then do
      if ← word? "OFFSET" then
        let n ← rules.spelled
        match ← oneOf? ["ROW", "ROWS"] with
        | some w => pure (some s!"{n} {w}")
        | none => pure (some n)
      else pure none
    else pure known.offset?
  match limit?, offset? with
  | some first, none =>
    if ← symbol? "," then return { limit? := ← rules.spelled, offset? := first }
    return { limit? := limit?, offset? := offset? }
  | _, _ => return { limit? := limit?, offset? := offset? }

/-- The limits behind a query, in either order. -/
def limits (rules : Rules) : Reader String := do
  let known ← rules.moreLimits (← rules.moreLimits {})
  let part (w : String) : Option String → String
    | some n => s!" {w} {n}"
    | none => ""
  let groups ← clause ["BY"] rules.spelledList
  return part "LIMIT" known.limit? ++ part "OFFSET" known.offset? ++ groups

/-- The number of rows to fetch. -/
def fetchClause : Reader String := do
  unless ← word? "FETCH" do return ""
  let row? : Reader Bool := do return (← oneOf? ["ROW", "ROWS"]).isSome
  unless (← oneOf? ["FIRST", "NEXT"]).isSome do unexpected
  let quantity ← if ← row? then pure ""
    else
      let n ← valueText
      let percent ← if ← word? "PERCENT" then pure " PERCENT" else pure ""
      unless ← row? do unexpected
      pure s!" {n}{percent}"
  let ending ← if ← word? "ONLY" then pure "ONLY"
    else
      words ["WITH", "TIES"]
      pure "WITH TIES"
  return s!" FETCH FIRST{quantity} ROWS {ending}"

/-- A text in parentheses. -/
def labelText : Reader String := do return s!"('{← parenthesized textValue}')"

/-- Options of a document, each behind a comma: `options` are those without a value. A comma can
stand without an option. The options are given in the order of `order`. -/
def documentOptions (options : List (List String)) (order : List String) : Reader String := do
  let given : List (String × String) ← repeated do
    unless ← symbol? "," do return none
    for ws in options do
      if ← words? ws.head?.toList then
        words ws.tail
        return some (" ".intercalate ws, "")
    if ← word? "ROOT" then return some ("ROOT", ← labelText)
    return some ("", "")
  return String.join (order.map fun option =>
    match given.reverse.lookup option with
    | some label => s!", {option}{label}"
    | none => "")

/-- The document that the rows become, behind `FOR`. -/
def documentClause? : Reader (Option String) := do
  if ← word? "BROWSE" then return some "BROWSE"
  if ← word? "XML" then
    let form ← match ← oneOf? ["RAW", "AUTO", "EXPLICIT", "PATH"] with
      | some w =>
        if (← atSymbol "(") && (w == "RAW" || w == "PATH") then do pure (w ++ (← labelText))
        else pure w
      | none => unexpected
    let options ← documentOptions [["ELEMENTS"], ["BINARY", "BASE64"], ["TYPE"]]
      ["BINARY BASE64", "TYPE", "ROOT", "ELEMENTS"]
    return some s!"XML {form}{options}"
  if ← word? "JSON" then
    match ← oneOf? ["AUTO", "PATH"] with
    | some form =>
      let flags := ["INCLUDE_NULL_VALUES", "WITHOUT_ARRAY_WRAPPER"]
      let options ← documentOptions (flags.map ([·])) ("ROOT" :: flags)
      return some s!"JSON {form}{options}"
    | none => unexpected
  return none

/-- How the rows are locked, behind `FOR`. -/
def lock : Reader String := do
  match ← oneOf? ["UPDATE", "SHARE"] with
  | some w =>
    let table ← clause ["OF"] pathText
    let wait ← if ← word? "NOWAIT" then pure " NOWAIT"
      else if ← words? ["SKIP", "LOCKED"] then pure " SKIP LOCKED"
      else pure ""
    return s!"{w}{table}{wait}"
  | none => unexpected

/-- Locks and at last a document, at most `fuel` of them. -/
def locksFrom : (fuel : Nat) → Reader (List String)
  | 0 => return []
  | fuel + 1 => do
    unless ← word? "FOR" do return []
    match ← documentClause? with
    | some document => return [s!" FOR {document}"]
    | none =>
      let first ← lock
      return s!" FOR {first}" :: (← locksFrom fuel)

/-- The form in which the rows are given. -/
def formatClause : Reader String :=
  clause ["FORMAT"] do
    if ← word? "NULL" then return "NULL"
    return (← name).written

/-- A query, where `rules` can read intervals. -/
def queryParts (rules : Rules) : Reader String := do
  let named ← if ← word? "WITH" then do
      let recursive ← if ← word? "RECURSIVE" then pure "RECURSIVE " else pure ""
      pure ("WITH " ++ recursive ++ commaList (← commaSeparated rules.namedQuery) ++ " ")
    else pure ""
  if ← word? "INSERT" then return named ++ (← rules.insertion)
  if ← word? "UPDATE" then return named ++ (← rules.update)
  let body ← rules.queryBody (← get).length 0
  let order ← rules.queryOrder
  let limit ← rules.limits
  let settings := match ← settings? with
    | some spelling => " " ++ spelling
    | none => ""
  let fetch ← fetchClause
  let locks ← locksFrom (← get).length
  let format ← formatClause
  return named ++ body ++ order ++ limit ++ settings ++ fetch ++ String.join locks ++ format

end Rules

end LocalizedQuery
