import LocalizedQuery.Predicate.Reader

/-!
# Rules for what is nested

Expressions and queries are nested in each other. The readers of a form are therefore written over
`Rules`: how to read an expression or a query one level deeper. Literals and placeholders, which
nest nothing, are read here, too.
-/

namespace LocalizedQuery

/-- How to read what is nested in a form. -/
structure Rules where
  /-- An expression one level deeper, whose operators bind tighter than the given precedence. The
  flag tells whether `PRIOR` refers to the parent of a row in it. -/
  nested : (hierarchical : Bool) → (precedence : Nat) → Reader Tree
  /-- A query one level deeper, by its canonical spelling. -/
  nestedQuery : (hierarchical : Bool) → Reader String
  /-- Whether `PRIOR` refers to the parent of a row here. -/
  hierarchical : Bool
  /-- What follows the word `INTERVAL` here. -/
  interval : Reader Tree

namespace Rules

open Reader

/-- An expression whose operators bind tighter than the given precedence. -/
def operand (rules : Rules) (precedence : Nat) : Reader Tree :=
  rules.nested rules.hierarchical precedence

/-- A query, by its canonical spelling. -/
def query (rules : Rules) : Reader String := rules.nestedQuery rules.hierarchical

/-- Any expression. -/
def expr (rules : Rules) : Reader Tree := rules.operand 0

/-- Any expression, by its canonical spelling. -/
def spelled (rules : Rules) : Reader String := do return (← rules.expr).written

/-- Expressions separated by commas, by their canonical spelling. -/
def spelledList (rules : Rules) : Reader String := do
  return commaList (← commaSeparated rules.spelled)

/-- A clause behind a form: a space, the words `ws` and what `rest` reads, if the words come
next. -/
def clause (ws : List String) (rest : Reader String) : Reader String := do
  if ← words? ws then return " " ++ " ".intercalate ws ++ " " ++ (← rest)
  return ""

/-! ## Values -/

/-- The value that a lexeme is by itself. -/
def value? (lexeme : Lexeme) : Option Tree :=
  match lexeme with
  | .number digits long => some (.number digits long)
  | .quoted value => some (.text value)
  | .marked mark value => some (.foreign (mark.write value))
  | .placeholder spelling => some (.foreign spelling)
  | .word name =>
    match name.upper? with
    | some "TRUE" => some (.bool true)
    | some "FALSE" => some (.bool false)
    | some "NULL" => some .null
    | some _ => none
    | none => if name.quote? = some '"' then some (.foreign name.written) else none
  | .symbol _ => none

/-- A placeholder that starts with a sign of its own. -/
def signedPlaceholder (sign : String) : Reader Tree := do
  match ← next with
  | .word name => return .foreign (sign ++ name.text)
  | .number digits false => return .foreign (sign ++ digits)
  | _ => unexpected

/-- A literal or placeholder. -/
def value : Reader Tree := do
  let lexeme ← next
  match value? lexeme with
  | some tree => return tree
  | none =>
    match lexeme with
    | .symbol ":" => signedPlaceholder ":"
    | .symbol "@" => signedPlaceholder "@"
    | _ => unexpected

/-- A literal or placeholder, by its canonical spelling. -/
def valueText : Reader String := do return (← value).written

/-- A number or placeholder, with a sign before it or not, by its canonical spelling. -/
def signedNumber : Reader String := do
  let sign ← if ← symbol? "+" then pure "+" else if ← symbol? "-" then pure "-" else pure ""
  let isPlaceholder := match ← peek? with
    | some (.placeholder _) | some (.symbol _) => true
    | _ => false
  match ← value with
  | .number digits long => return sign ++ Lexeme.writeNumber digits long
  | tree => if isPlaceholder then return sign ++ tree.written else unexpected

end Rules

end LocalizedQuery
