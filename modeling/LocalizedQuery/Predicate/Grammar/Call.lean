import LocalizedQuery.Predicate.Grammar.DataType

/-!
# Calls

A call has a list of arguments, which may be named or wildcards, and may carry clauses inside and
behind its parentheses. The clauses are read as their canonical spellings.
-/

namespace LocalizedQuery

namespace Rules

open Reader

/-! ## Order and windows -/

/-- The bounds between which missing values are filled in. -/
def fillClause (rules : Rules) : Reader String := do
  unless ← words? ["WITH", "FILL"] do return ""
  let part (w : String) : Reader String := do
    if ← word? w then return " " ++ w ++ " " ++ (← rules.spelled)
    return ""
  let start ← part "FROM"
  let stop ← part "TO"
  let step ← part "STEP"
  return " WITH FILL" ++ start ++ stop ++ step

/-- An expression to order by. -/
def orderItem (rules : Rules) : Reader String := do
  let e ← rules.spelled
  let direction := match ← oneOf? ["ASC", "DESC"] with
    | some w => " " ++ w
    | none => ""
  let nulls ←
    if ← words? ["NULLS", "FIRST"] then pure " NULLS FIRST"
    else if ← words? ["NULLS", "LAST"] then pure " NULLS LAST"
    else pure ""
  let fill ← rules.fillClause
  return e ++ direction ++ nulls ++ fill

/-- The expressions to order by, behind `ORDER BY`. -/
def orderClause (rules : Rules) : Reader String := do
  return "ORDER BY " ++ commaList (← commaSeparated rules.orderItem)

/-- A bound of a window. -/
def windowBound (rules : Rules) : Reader String := do
  if ← words? ["CURRENT", "ROW"] then return "CURRENT ROW"
  let distance ←
    if ← word? "UNBOUNDED" then pure "UNBOUNDED"
    else match ← peek? with
      | some (.quoted _) => do pure (← rules.interval).written
      | _ => rules.spelled
  match ← oneOf? ["PRECEDING", "FOLLOWING"] with
  | some side => return distance ++ " " ++ side
  | none => unexpected

/-- The inside of a window, up to its closing parenthesis. -/
def window (rules : Rules) : Reader String := do
  let named : List String ← match ← peek? with
    | some (.word n) => if n.isReserved then pure [] else do pure [(← name).written]
    | _ => pure []
  let partition ← if ← words? ["PARTITION", "BY"] then do
      pure ["PARTITION BY " ++ commaList (← commaSeparated rules.spelled)]
    else pure []
  let order ← if ← words? ["ORDER", "BY"] then do pure [← rules.orderClause] else pure []
  let frame ← if ← symbol? ")" then pure [] else do
    match ← oneOf? ["ROWS", "RANGE", "GROUPS"] with
    | none => unexpected
    | some unit =>
      let frame ← if ← word? "BETWEEN" then do
          let start ← rules.windowBound
          word "AND"
          let stop ← rules.windowBound
          pure (unit ++ " BETWEEN " ++ start ++ " AND " ++ stop)
        else do pure (unit ++ " " ++ (← rules.windowBound))
      symbol ")"
      pure [frame]
  return " ".intercalate (named ++ partition ++ order ++ frame)

/-! ## Arguments -/

/-- A wildcard such as `t.*`. -/
def wildcard : Reader String := do
  let first ← name
  let more ← repeated (attempt do
    symbol "."
    name)
  symbol "."
  symbol "*"
  return Name.writtenPath (first :: more) ++ ".*"

/-- The value of an argument. -/
def argumentValue (rules : Rules) : Reader Argument := do
  if ← symbol? "*" then return .special "*"
  match ← attempt wildcard with
  | some spelling => return .special spelling
  | none => return .positional (← rules.expr)

/-- The sign between the name and the value of an argument. -/
def argumentSign : Reader String := do
  if ← word? "VALUE" then return "VALUE"
  if ← symbol? "=>" then return "=>"
  if ← symbol? ":=" then return ":="
  unexpected

/-- A named argument. -/
def namedArgument (rules : Rules) : Reader Argument := do
  let n ← name
  let sign ← argumentSign
  let value := match ← rules.argumentValue with
    | .positional tree => tree.written
    | .special spelling => spelling
  return .special (n.written ++ " " ++ sign ++ " " ++ value)

/-- An argument. -/
def argument (rules : Rules) : Reader Argument := do
  match ← attempt rules.namedArgument with
  | some arg => return arg
  | none => rules.argumentValue

/-- The arguments of a call with the clauses beside them. -/
structure Arguments where
  quantifier : Option String := none
  values : List Argument := []
  clauses : List String := []

/-- The spelling of arguments in their parentheses. -/
def Arguments.written (args : Arguments) : String :=
  let form : CallForm := { name := [], quantifier := args.quantifier, clauses := args.clauses }
  form.written (Tree.writtenArguments args.values)

/-- A clause that says what happens to nulls in a generated value. -/
def nullClause : Reader (List String) := do
  if ← words? ["ABSENT", "ON", "NULL"] then return ["ABSENT ON NULL"]
  if ← words? ["NULL", "ON", "NULL"] then return ["NULL ON NULL"]
  return []

/-- A clause that says whether nulls count. -/
def nullTreatment : Reader (List String) := do
  match ← oneOf? ["RESPECT", "IGNORE"] with
  | some w =>
    word "NULLS"
    return [w ++ " NULLS"]
  | none => return []

/-- A clause that says what happens when a list grows too long. -/
def overflowClause (rules : Rules) : Reader (List String) := do
  unless ← words? ["ON", "OVERFLOW"] do return []
  if ← word? "ERROR" then return ["ON OVERFLOW ERROR"]
  word "TRUNCATE"
  let filler ← match ← peek? with
    | some (.quoted _) | some (.marked .escaped _) | some (.marked .unicode _)
    | some (.marked .national _) | some (.marked .hexadecimal _) => do
      pure (" " ++ (← rules.spelled))
    | _ => if ← atWord ["WITH", "WITHOUT"] then pure "" else unexpected
  match ← oneOf? ["WITH", "WITHOUT"] with
  | none => unexpected
  | some w =>
    word "COUNT"
    return ["ON OVERFLOW TRUNCATE" ++ filler ++ " " ++ w ++ " COUNT"]

/-- A word and what follows it, if the word comes next. -/
def clause? (w : String) (rest : Reader String) : Reader (List String) := do
  if ← word? w then return [w ++ " " ++ (← rest)]
  return []

/-- Arguments behind their opening parenthesis, and the closing one. -/
def arguments (rules : Rules) : Reader Arguments := do
  let leading ← nullClause
  if ← symbol? ")" then return { clauses := leading }
  let all ← word? "ALL"
  let distinct ← word? "DISTINCT"
  if all ∧ distinct then unexpected
  let values ← commaSeparated rules.argument
  let nulls ← nullTreatment
  let order ← if ← words? ["ORDER", "BY"] then do pure [← rules.orderClause] else pure []
  let limit ← clause? "LIMIT" rules.spelled
  let bound ← clause? "HAVING" do
    match ← oneOf? ["MIN", "MAX"] with
    | some w => return w ++ " " ++ (← rules.spelled)
    | none => unexpected
  let separator ← clause? "SEPARATOR" do return (← value).written
  let overflow ← rules.overflowClause
  let trailing ← nullClause
  symbol ")"
  return {
    quantifier := if all then some "ALL" else if distinct then some "DISTINCT" else none
    values := values
    clauses := leading ++ nulls ++ order ++ limit ++ bound ++ separator ++ overflow ++ trailing }

/-- A call of a function by its name. -/
def call (rules : Rules) (function : List Name) (braces : Bool) :
    Reader Tree := do
  symbol "("
  let first ← rules.arguments
  let (parameters, args) ← if ← symbol? "(" then do
      pure (some first.written, ← rules.arguments)
    else pure (none, first)
  let group ← if ← words? ["WITHIN", "GROUP"] then do
      symbol "("
      words ["ORDER", "BY"]
      let order ← rules.orderClause
      symbol ")"
      pure ["WITHIN GROUP (" ++ order ++ ")"]
    else pure []
  let treated := args.clauses.any fun c => c == "RESPECT NULLS" || c == "IGNORE NULLS"
  let nulls ← if treated then pure [] else nullTreatment
  let windowed ← clause? "OVER" do
    if ← symbol? "(" then return "(" ++ (← rules.window) ++ ")"
    return (← name).written
  let form : CallForm :=
    { name := function
      quantifier := args.quantifier
      clauses := args.clauses
      parameters := parameters
      trailing := group ++ nulls ++ windowed
      braces := braces }
  return .call form args.values

end Rules

end LocalizedQuery
