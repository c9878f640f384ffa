import LocalizedQuery.Predicate.Grammar.Call

/-!
# Forms that start with a word

Some words start a form of their own: `CASE`, `CAST`, `EXTRACT`, `INTERVAL` and others. `wordForm`
reads what follows such a word. Most of these forms cannot be compiled, so they are read as their
canonical spellings.
-/

namespace LocalizedQuery

namespace Rules

open Reader

/-- `CASE … END` behind its first word. -/
def caseForm (rules : Rules) : Reader Tree := do
  let operand ← if ← word? "WHEN" then pure "" else do
    let e ← rules.spelled
    word "WHEN"
    pure (" " ++ e)
  let branch : Reader String := do
    let condition ← rules.spelled
    word "THEN"
    return " WHEN " ++ condition ++ " THEN " ++ (← rules.spelled)
  let first ← branch
  let more ← repeated do
    if ← word? "WHEN" then some <$> branch else pure none
  let otherwise ← if ← word? "ELSE" then do pure (" ELSE " ++ (← rules.spelled)) else pure ""
  word "END"
  return .foreign ("CASE" ++ operand ++ String.join (first :: more) ++ otherwise ++ " END")

/-- A cast behind its first word, which is `function`. -/
def castForm (rules : Rules) (function : String) : Reader Tree := do
  symbol "("
  let e ← rules.spelled
  word "AS"
  let type ← rules.dataTypeText
  let format ← if ← word? "FORMAT" then do
      let text ← value
      let zone ← if ← words? ["AT", "TIME", "ZONE"] then do
          pure (" AT TIME ZONE " ++ (← value).written)
        else pure ""
      pure (" FORMAT " ++ text.written ++ zone)
    else pure ""
  symbol ")"
  return .foreign s!"{function}({e} AS {type}{format})"

/-- A conversion behind its first word, which is `function`. -/
def convertForm (rules : Rules) (function : String) : Reader Tree := do
  symbol "("
  let e ← rules.spelled
  let target ←
    if ← word? "USING" then do pure (" USING " ++ (← pathText))
    else do
      symbol ","
      let type ← rules.dataTypeText
      let charset ← if ← words? ["CHARACTER", "SET"] then do
          pure (" CHARACTER SET " ++ (← pathText))
        else pure ""
      pure (", " ++ type ++ charset)
  symbol ")"
  return .foreign s!"{function}({e}{target})"

/-- A test whether a query has rows, behind its word. -/
def existsForm (rules : Rules) (negated : Bool) : Reader Tree := do
  let q ← parenthesized rules.query
  return .foreign s!"{negationWord negated}EXISTS ({q})"

/-- The extraction of a unit of time, behind its word. -/
def extractForm (rules : Rules) : Reader Tree := do
  symbol "("
  let unit ← timeUnit
  let sign ← if ← word? "FROM" then pure " FROM "
    else do
      symbol ","
      pure ", "
  let e ← rules.spelled
  symbol ")"
  return .foreign s!"EXTRACT({unit}{sign}{e})"

/-- Rounding to a unit of time or a scale, behind its word, which is `function`. -/
def roundForm (rules : Rules) (function : String) : Reader Tree := do
  symbol "("
  let e ← rules.spelled
  let scale ←
    if ← word? "TO" then do pure (" TO " ++ (← timeUnit))
    else if ← symbol? "," then do
      match ← value with
      | .number spelling long => pure (", " ++ Lexeme.writeNumber spelling long)
      | _ => unexpected
    else pure ""
  symbol ")"
  return .foreign s!"{function}({e}{scale})"

/-- The position of one text in another. -/
def positionForm (rules : Rules) : Reader Tree := do
  symbol "("
  let part ← rules.operand 20
  word "IN"
  let whole ← rules.spelled
  symbol ")"
  return .foreign s!"POSITION({part.written} IN {whole})"

/-- A part of a text, behind its word. -/
def substringForm (rules : Rules) : Reader Tree := do
  symbol "("
  let e ← rules.spelled
  let commas ← symbol? ","
  let start ← if ← (if commas then pure true else word? "FROM") then do
      pure ((if commas then ", " else " FROM ") ++ (← rules.spelled))
    else pure ""
  let length ← if ← (do if ← word? "FOR" then pure true else symbol? ",") then do
      pure ((if commas then ", " else " FOR ") ++ (← rules.spelled))
    else pure ""
  symbol ")"
  return .foreign s!"SUBSTRING({e}{start}{length})"

/-- A text with a part replaced, behind its word. -/
def overlayForm (rules : Rules) : Reader Tree := do
  symbol "("
  let e ← rules.spelled
  word "PLACING"
  let part ← rules.spelled
  word "FROM"
  let start ← rules.spelled
  let length ← if ← word? "FOR" then do pure (" FOR " ++ (← rules.spelled)) else pure ""
  symbol ")"
  return .foreign s!"OVERLAY({e} PLACING {part} FROM {start}{length})"

/-- A text without certain characters at its ends, behind its word. -/
def trimForm (rules : Rules) : Reader Tree := do
  symbol "("
  let side ← oneOf? ["BOTH", "LEADING", "TRAILING"]
  let side := match side with
    | some w => w ++ " "
    | none => ""
  let e ← rules.spelled
  let inside ←
    if ← word? "FROM" then do pure (side ++ e ++ " FROM " ++ (← rules.spelled))
    else if ← symbol? "," then do
      pure (e ++ ", " ++ commaList (← commaSeparated rules.spelled))
    else pure (side ++ e)
  symbol ")"
  return .foreign s!"TRIM({inside})"

/-- An interval behind its word; `amount` reads what stands before the unit. -/
def intervalForm (amount : Reader Tree) : Reader Tree := do
  let e ← amount
  let unit? ← if ← atWord intervalUnits then some <$> timeUnit else pure none
  let unit := match unit? with
    | some unit => " " ++ unit
    | none => ""
  let spaced (length : String) : String := if length.isEmpty then "" else " " ++ length
  let rest ←
    if unit? = some "SECOND" then do
      if ← symbol? "(" then
        let precision ← digits
        let fraction ← if ← symbol? "," then do pure (", " ++ (← digits)) else pure ""
        symbol ")"
        pure s!" ({precision}{fraction})"
      else pure ""
    else do
      let precision ← length?
      if ← word? "TO" then
        let last ← timeUnit
        let fraction ← if last = "SECOND" then length? else pure ""
        pure (spaced precision ++ " TO " ++ last ++ spaced fraction)
      else pure (spaced precision)
  return .foreign ("INTERVAL " ++ e.written ++ unit ++ rest)

/-- A search in columns, behind its word. -/
def matchForm : Reader Tree := do
  let columns ← parenthesized (commaSeparated do return (← name).written)
  word "AGAINST"
  symbol "("
  let text ← value
  let mode ←
    if ← words? ["IN", "NATURAL", "LANGUAGE", "MODE"] then
      if ← words? ["WITH", "QUERY", "EXPANSION"] then
        pure " IN NATURAL LANGUAGE MODE WITH QUERY EXPANSION"
      else pure " IN NATURAL LANGUAGE MODE"
    else if ← words? ["IN", "BOOLEAN", "MODE"] then pure " IN BOOLEAN MODE"
    else if ← words? ["WITH", "QUERY", "EXPANSION"] then pure " WITH QUERY EXPANSION"
    else pure ""
  symbol ")"
  return .foreign s!"MATCH ({commaList columns}) AGAINST ({text.written}{mode})"

/-- A record behind its word. -/
def structForm (rules : Rules) : Reader Tree := do
  let (fields, closing) ← recordFields (rules.openType (← get).length)
  if closing then unexpected
  let values ← parenthesized (commaSeparated do
    let e ← rules.spelled
    if ← word? "AS" then
      if fields.isEmpty then return e ++ " AS " ++ (← name).written else unexpected
    return e)
  return .foreign s!"STRUCT{fields}({commaList values})"

/-- A mapping in braces, behind the opening one; `key` reads a key. -/
def mapping (rules : Rules) (key : Reader String) : Reader String := do
  let fields ← commaSeparatedTo "\x7d" do
    let k ← key
    symbol ":"
    return k ++ ": " ++ (← rules.spelled)
  return "\x7b" ++ commaList fields ++ "\x7d"

/-- An array behind its opening bracket. -/
def arrayForm (rules : Rules) (mark : String) : Reader Tree := do
  let elements ← commaSeparatedTo "]" rules.spelled
  return .foreign s!"{mark}[{commaList elements}]"

/-- `NOT` behind its word. -/
def notForm (rules : Rules) : Reader Tree := do
  if ← word? "EXISTS" then rules.existsForm true
  else return .signed .not (← rules.operand 15)

/-- What a word starts, if it starts a form of its own. -/
def wordForm (rules : Rules) (n : Name) : Reader (Option Tree) := do
  match n.upper? with
  | some "TRUE" => return some (.bool true)
  | some "FALSE" => return some (.bool false)
  | some "NULL" => return some .null
  | some "CURRENT_CATALOG" | some "CURRENT_USER" | some "SESSION_USER" | some "USER" =>
    return some (.call { name := [n], parentheses := false } [])
  | some "CURRENT_TIMESTAMP" | some "CURRENT_TIME" | some "CURRENT_DATE" | some "LOCALTIME"
  | some "LOCALTIMESTAMP" => do
    if ← symbol? "(" then
      let args ← rules.arguments
      return some (.call { name := [n], quantifier := args.quantifier, clauses := args.clauses }
        args.values)
    return some (.call { name := [n], parentheses := false } [])
  | some "CASE" => some <$> rules.caseForm
  | some "CONVERT" => some <$> rules.convertForm "CONVERT"
  | some "TRY_CONVERT" => some <$> rules.convertForm "TRY_CONVERT"
  | some "CAST" => some <$> rules.castForm "CAST"
  | some "TRY_CAST" => some <$> rules.castForm "TRY_CAST"
  | some "SAFE_CAST" => some <$> rules.castForm "SAFE_CAST"
  | some "EXISTS" => some <$> rules.existsForm false
  | some "EXTRACT" => some <$> rules.extractForm
  | some "CEIL" => some <$> rules.roundForm "CEIL"
  | some "FLOOR" => some <$> rules.roundForm "FLOOR"
  | some "POSITION" => do
    unless ← atSymbol "(" do return none
    match ← attempt rules.positionForm with
    | some tree => return some tree
    | none => some <$> rules.call [n] false
  | some "SUBSTRING" => some <$> rules.substringForm
  | some "OVERLAY" => some <$> rules.overlayForm
  | some "TRIM" => some <$> rules.trimForm
  | some "INTERVAL" => some <$> rules.interval
  | some "ARRAY" => do
    if ← symbol? "[" then some <$> rules.arrayForm "ARRAY"
    else if ← atSymbol "(" then
      let q ← parenthesized rules.query
      return some (.foreign s!"{n.written}({q})")
    else return none
  | some "NOT" => some <$> rules.notForm
  | some "PRIOR" =>
    if rules.hierarchical then
      return some (.foreign ("PRIOR " ++ (← rules.operand 30).written))
    else return none
  | some "MATCH" => some <$> matchForm
  | some "STRUCT" => some <$> rules.structForm
  | some "MAP" => do
    if ← symbol? "\x7b" then return some (.foreign ("MAP " ++ (← rules.mapping rules.spelled)))
    return none
  | _ => return none

end Rules

end LocalizedQuery
