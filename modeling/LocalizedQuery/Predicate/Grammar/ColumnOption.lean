import LocalizedQuery.Predicate.Grammar.Rules

/-!
# Options of columns

A nested data type lists columns, and a column can carry options behind its type: a default, a
constraint, a comment. They are read as their canonical spellings.
-/

namespace LocalizedQuery

namespace Rules

open Reader

/-- When a constraint is checked: whether that can be deferred, what it starts with, and whether it
is checked at all. Each can be said once, and they are written in that order. -/
def constraintTiming : Reader String := do
  let aspects : List (List (List String)) :=
    [[["NOT", "DEFERRABLE"], ["DEFERRABLE"]],
     [["INITIALLY", "DEFERRED"], ["INITIALLY", "IMMEDIATE"]],
     [["ENFORCED"], ["NOT", "ENFORCED"]]]
  let said ← repeated do
    for phrase in aspects.flatten do
      if ← words? phrase then return some phrase
    return none
  let spellings ← aspects.mapM fun phrases =>
    match said.filter phrases.contains with
    | [] => pure ""
    | [phrase] => pure (" " ++ " ".intercalate phrase)
    | _ => unexpected
  return String.join spellings

/-- What happens to a reference when the row that it points to changes. -/
def referentialAction : Reader String := do
  for action in [["RESTRICT"], ["CASCADE"], ["SET", "NULL"], ["NO", "ACTION"],
      ["SET", "DEFAULT"]] do
    if ← words? action then return " ".intercalate action
  unexpected

/-- A reference to a table, behind its word. -/
def referenceOption : Reader String := do
  let table ← pathText
  let columns ← if ← atSymbol "(" then do pure (" " ++ (← nameList)) else pure ""
  let event (ws : List String) : Reader (Option (String × String)) := do
    for w in ws do
      if ← words? ["ON", w] then return some (w, ← referentialAction)
    return none
  let both := ["DELETE", "UPDATE"]
  let first ← event both
  let second ← match first with
    | some (w, _) => event (both.erase w)
    | none => pure none
  let actions := both.filterMap fun w =>
    ((first.toList ++ second.toList).lookup w).map fun action => s!" ON {w} {action}"
  return "REFERENCES " ++ table ++ columns ++ String.join actions ++ (← constraintTiming)

/-- A computed value in parentheses and how it is kept. -/
def computedValue (rules : Rules) : Reader String := do
  let e ← parenthesized rules.spelled
  let mode := match ← oneOf? ["STORED", "VIRTUAL"] with
    | some w => " " ++ w
    | none => ""
  return s!"AS ({e}){mode}"

/-- Options that consist of words alone. -/
def plainOptions : List (List String) :=
  [["NOT", "NULL"], ["NULL"], ["AUTO_INCREMENT"], ["AUTOINCREMENT"], ["ASC"], ["DESC"],
   ["GENERATED", "ALWAYS", "AS", "IDENTITY"], ["GENERATED", "BY", "DEFAULT", "AS", "IDENTITY"]]

/-- Options that consist of words and an expression. -/
def valueOptions : List (List String) :=
  [["DEFAULT"], ["MATERIALIZED"], ["ALIAS"], ["ON", "UPDATE"]]

/-- The numbers of an identity column, behind its word: the first and the step. -/
def identityNumbers : Reader String := do
  unless ← symbol? "(" do return ""
  let first ← signedNumber
  symbol ","
  let step ← signedNumber
  symbol ")"
  return s!"({first}, {step})"

/-- Settings of a column, behind their word. -/
def columnSettings (rules : Rules) : Reader String := do
  symbol "("
  let all ← commaSeparatedTo ")" do
    let n ← name
    symbol "="
    return n.written ++ " = " ++ (← rules.spelled)
  return s!"OPTIONS({commaList all})"

/-- An option of a column. -/
def columnOption? (rules : Rules) : Reader (Option String) := do
  for ws in plainOptions do
    if ← words? ws then return some (" ".intercalate ws)
  for ws in valueOptions do
    if ← words? ws then return some (" ".intercalate ws ++ " " ++ (← rules.spelled))
  if ← words? ["CHARACTER", "SET"] then return some ("CHARACTER SET " ++ (← pathText))
  if ← word? "COMMENT" then
    match ← next with
    | .quoted text => return some ("COMMENT " ++ Lexeme.quoteText text)
    | _ => unexpected
  if ← word? "EPHEMERAL" then
    if (← atSymbol ",") || (← atSymbol ")") then return some "EPHEMERAL"
    return some ("EPHEMERAL " ++ (← rules.spelled))
  if ← words? ["PRIMARY", "KEY"] then return some ("PRIMARY KEY" ++ (← constraintTiming))
  if ← word? "UNIQUE" then return some ("UNIQUE" ++ (← constraintTiming))
  if ← word? "REFERENCES" then return some (← referenceOption)
  if ← word? "CHECK" then return some s!"CHECK ({← parenthesized rules.spelled})"
  if ← words? ["GENERATED", "ALWAYS", "AS"] then
    return some ("GENERATED ALWAYS " ++ (← rules.computedValue))
  if ← word? "OPTIONS" then return some (← rules.columnSettings)
  if ← word? "AS" then return some (← rules.computedValue)
  if ← word? "IDENTITY" then return some ("IDENTITY" ++ (← identityNumbers))
  if ← words? ["ON", "CONFLICT"] then
    match ← oneOf? ["ROLLBACK", "ABORT", "FAIL", "IGNORE", "REPLACE"] with
    | some w => return some s!"ON CONFLICT {w}"
    | none => unexpected
  return none

/-- The collation and the options of a column, each behind a space. The last collation counts, and
it is written first. -/
def columnOptions (rules : Rules) : Reader String := do
  let items : List (String × Bool) ← repeated do
    if ← word? "CONSTRAINT" then
      let n ← name
      match ← rules.columnOption? with
      | some option => return some (s!" CONSTRAINT {n.written} {option}", false)
      | none => unexpected
    if let some option ← rules.columnOption? then return some (" " ++ option, false)
    if ← word? "COLLATE" then return some (" COLLATE " ++ (← pathText), true)
    return none
  let (collations, options) := items.partition Prod.snd
  return (collations.getLast?.map Prod.fst).getD "" ++ String.join (options.map Prod.fst)

end Rules

end LocalizedQuery
