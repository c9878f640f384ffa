import LocalizedQuery.Predicate.Grammar.Call

/-!
# Patterns of rows

`MATCH_RECOGNIZE` searches the rows of a table for a pattern. A pattern is written like a regular
expression whose letters are names; the names are defined by conditions on rows behind it.
-/

namespace LocalizedQuery

namespace Rules

open Reader

/-! ## Patterns -/

/-- A number of repetitions. -/
def repetitions : Reader String := do return toString (← natural (Nat.pow 2 32))

/-- How often a pattern is repeated, if that comes next. -/
def quantifier? : Reader (Option String) := do
  if ← symbol? "*" then return some "*"
  if ← symbol? "+" then return some "+"
  if ← takeIf (· == .placeholder "?") then return some "?"
  unless ← symbol? "\x7b" do return none
  let least ← if ← atSymbol "," then pure "" else repetitions
  let between ← if ← symbol? "," then pure "," else pure ""
  let most ← if between.isEmpty || (!least.isEmpty && (← atSymbol "\x7d")) then pure ""
    else repetitions
  symbol "\x7d"
  return some ("\x7b" ++ least ++ between ++ most ++ "\x7d")

/-- The smallest part of a pattern; `inner` reads a pattern in parentheses. -/
def patternAtom (inner : Reader String) : Reader String := do
  if ← symbol? "^" then return "^"
  if ← takeIf (· == .placeholder "$") then return "$"
  if ← symbol? "\x7b" then
    symbol "-"
    let n ← name
    symbol "-"
    symbol "\x7d"
    return "\x7b- " ++ n.written ++ " -\x7d"
  if ← takeIf (· == .word { text := "PERMUTE" }) then return "PERMUTE" ++ (← nameList)
  if ← atSymbol "(" then return s!"( {← parenthesized inner} )"
  return (← name).written

/-- Parts of a pattern, one behind the other. -/
def patternSequence (inner : Reader String) : Reader String := do
  let part : Reader String := do
    return (← patternAtom inner) ++ String.join (← repeated quantifier?)
  let first ← part
  let more ← repeated do
    if (← atSymbol ")") || (← atSymbol "|") then return none
    return some (← part)
  return " ".intercalate (first :: more)

/-- A pattern, in which parentheses and alternatives are nested at most `fuel` levels deep. -/
def rowPattern : (fuel : Nat) → Reader String
  | 0 => unexpected
  | fuel + 1 => do
    let first ← patternSequence (rowPattern fuel)
    if ← symbol? "|" then return first ++ " | " ++ (← rowPattern fuel)
    return first

/-! ## The search -/

/-- Which rows a match gives. -/
def rowsPerMatch : Reader String := do
  if ← words? ["ONE", "ROW", "PER", "MATCH"] then return "ONE ROW PER MATCH "
  unless ← words? ["ALL", "ROWS", "PER", "MATCH"] do return ""
  for mode in [["SHOW", "EMPTY", "MATCHES"], ["OMIT", "EMPTY", "MATCHES"],
      ["WITH", "UNMATCHED", "ROWS"]] do
    if ← words? mode then return "ALL ROWS PER MATCH " ++ " ".intercalate mode ++ " "
  return "ALL ROWS PER MATCH "

/-- Where the search goes on after a match. A next row is written behind two spaces. -/
def afterMatch : Reader String := do
  unless ← words? ["AFTER", "MATCH", "SKIP"] do return ""
  let target ←
    if ← words? ["PAST", "LAST", "ROW"] then pure "PAST LAST ROW"
    else if ← words? ["TO", "NEXT", "ROW"] then pure " TO NEXT ROW"
    else if ← words? ["TO", "FIRST"] then do pure ("TO FIRST " ++ (← name).written)
    else if ← words? ["TO", "LAST"] then do pure ("TO LAST " ++ (← name).written)
    else unexpected
  return s!"AFTER MATCH SKIP {target} "

/-- What is computed for a match. -/
def measure (rules : Rules) : Reader String := do
  let e ← rules.spelled
  let _ ← word? "AS"
  return e ++ " AS " ++ (← name).written

/-- The search for a pattern behind its word. -/
def patternSearch (rules : Rules) : Reader String := do
  symbol "("
  let part (ws : List String) (p : Reader String) : Reader String := do
    if ← words? ws then return " ".intercalate ws ++ " " ++ (← p) ++ " "
    return ""
  let partition ← part ["PARTITION", "BY"] rules.spelledList
  let order ← part ["ORDER", "BY"] do return commaList (← commaSeparated rules.orderItem)
  let measures ← part ["MEASURES"] do return commaList (← commaSeparated rules.measure)
  let rows ← rowsPerMatch
  let after ← afterMatch
  word "PATTERN"
  let pattern ← parenthesized do rowPattern (← get).length
  word "DEFINE"
  let definitions ← commaSeparated do
    let n ← name
    word "AS"
    return n.written ++ " AS " ++ (← rules.spelled)
  symbol ")"
  return "MATCH_RECOGNIZE(" ++ partition ++ order ++ measures ++ rows ++ after ++
    s!"PATTERN ({pattern}) DEFINE {commaList definitions})"

end Rules

end LocalizedQuery
