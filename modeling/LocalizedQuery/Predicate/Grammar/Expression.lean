import LocalizedQuery.Predicate.Grammar.Form
import LocalizedQuery.Predicate.Grammar.Query

/-!
# Expressions

An expression is an operand followed by operators, each with what stands on its right. How tightly
an operator binds is a number, its precedence, and an expression ends before an operator that does
not bind tighter than its surroundings ask (`Rules.expression`).

Expressions and queries may be nested up to a certain depth. `grammar depth` are the rules for what
is nested `depth` levels deep at most; `Tree.ofText` reads a whole predicate.
-/

namespace LocalizedQuery

namespace Rules

open Reader

/-! ## Operands -/

/-- A text literal behind the name of its type, or an interval. -/
def typedLiteral (rules : Rules) : Reader Tree := do
  match ← rules.dataType with
  | .interval => rules.interval
  | .custom _ => unexpected
  | .builtin type => do
    let value ← textValue
    return .foreign (type ++ " " ++ Lexeme.quoteText value)

/-- What a name starts that starts no form of its own: a path, a call or a text in a character
set. -/
def named (rules : Rules) (n : Name) : Reader Tree := do
  if ← atSymbol "(" then rules.call [n] false
  else if ← atSymbol "." then
    let more ← repeated do
      if ← symbol? "." then some <$> name else pure none
    if ← atSymbol "(" then rules.call (n :: more) false
    else return .path (n :: more)
  else if n.text.startsWith "_" then
    match ← peek? with
    | some (.quoted value) =>
      let _ ← next
      return .foreign (n.text ++ " " ++ Lexeme.quoteText value)
    | some (.marked .hexadecimal value) =>
      let _ ← next
      return .foreign (n.text ++ " " ++ Mark.write .hexadecimal value)
    | _ => return .name n
  else return .name n

/-- What follows an opening parenthesis. -/
def parentheses (rules : Rules) : Reader Tree := do
  let tree ←
    if ← atWord ["SELECT", "WITH"] then do pure (Tree.subquery (← rules.query))
    else do
      match ← commaSeparated rules.expr with
      | [single] => pure (Tree.nested single)
      | trees => pure (Tree.foreign s!"({commaList (Tree.writtenList trees)})")
  symbol ")"
  if ← symbol? "." then
    match ← next with
    | .word field => return .foreign (tree.written ++ "." ++ field.written)
    | _ => unexpected
  return tree

/-- What follows an opening brace: a call or a mapping. -/
def braces (rules : Rules) : Reader Tree := do
  let function ← attempt do
    word "FN"
    let function ← path
    rules.call function true
  match function with
  | some tree =>
    symbol "\x7d"
    return tree
  | none =>
    if ← atSymbol "\x7d" then unexpected
    return .foreign (← rules.mapping (do return (← name).written))

/-- An operand with the collation that may follow it. -/
def collated (tree : Tree) : Reader Tree := do
  if ← word? "COLLATE" then return .foreign (tree.written ++ " COLLATE " ++ (← pathText))
  return tree

/-- Words that are no names. -/
def neverNames : List String := ["EXISTS", "INTERVAL", "STRUCT", "TRIM"]

/-- An operand. A word that fails to start its form is tried as a name. -/
def operandForm (rules : Rules) : Reader Tree := do
  if let some tree ← attempt rules.typedLiteral then return tree
  match ← next with
  | .word n =>
    match ← outcome (rules.wordForm n) with
    | .ok (some tree) => collated tree
    | .ok none => collated (← rules.named n)
    | .error e =>
      if n.upper?.any neverNames.contains then throw e
      match ← attempt (rules.named n) with
      | some tree => return tree
      | none => throw e
  | .symbol "[" => collated (← rules.arrayForm "")
  | .symbol "-" => collated (.signed .minus (← rules.operand 40))
  | .symbol "+" => collated (.signed .plus (← rules.operand 40))
  | .symbol "(" => collated (← rules.parentheses)
  | .symbol ":" => collated (← signedPlaceholder ":")
  | .symbol "@" => collated (← signedPlaceholder "@")
  | .symbol "\x7b" => collated (← rules.braces)
  | lexeme =>
    match value? lexeme with
    | some tree => collated tree
    | none => unexpected

/-- An operand, in which at most `fuel` intervals stand directly inside one another. -/
def operandAt (rules : Rules) : (fuel : Nat) → Reader Tree
  | 0 => unexpected
  | fuel + 1 => operandForm { rules with interval := intervalForm (operandAt rules fuel) }

/-- A query, at the level of the expressions around it. -/
def queryForm (rules : Rules) : Reader String := do
  let fuel := (← get).length + 1
  queryParts { rules with interval := intervalForm (rules.operandAt fuel) }

/-! ## Operators -/

/-- The symbols that are binary operators, with their precedences. -/
def symbolOperators : List (String × Operator × Nat) :=
  [("=", .known .eq, 20), ("==", .known .eq, 20), ("<>", .known .ne, 20),
   ("<", .known .lt, 20), (">", .known .gt, 20), ("<=", .known .le, 20), (">=", .known .ge, 20),
   ("+", .known .plus, 30), ("-", .known .minus, 30), ("*", .known .times, 40),
   ("/", .known .divide, 40), ("%", .known .modulo, 40), ("||", .known .concat, 40)] ++
  [("<=>", 20), ("~", 20), ("~*", 20), ("!~", 20), ("!~*", 20), ("~~", 20), ("~~*", 20),
   ("!~~", 20), ("!~~*", 20), ("//", 40), ("|", 21), ("^", 22), ("<<", 22), (">>", 22), ("&", 23),
   ("&&", 50), ("^@", 50), ("->", 16), ("->>", 16), ("#>", 16), ("#>>", 16), ("@>", 16),
   ("<@", 16), ("#-", 16), ("@?", 16), ("@@", 16)].map
    fun (spelling, precedence) => (spelling, .foreign spelling, precedence)

/-- The words that are binary operators, with their precedences. -/
def wordOperators : List (String × Operator × Nat) :=
  [("AND", .known .and, 10), ("OR", .known .or, 5), ("XOR", .foreign "XOR", 24)]

/-- The operator that a lexeme is by itself. -/
def operator? : Lexeme → Option (Operator × Nat)
  | .symbol spelling => symbolOperators.lookup spelling
  | lexeme => lexeme.upper?.bind fun w => wordOperators.lookup w

/-- The precedence of a word that starts a test. -/
def testPrecedence? : String → Option Nat
  | "IN" | "BETWEEN" => some 20
  | "LIKE" | "ILIKE" | "SIMILAR" | "REGEXP" | "RLIKE" => some 19
  | _ => none

/-- The precedence of what comes next, as something that follows an operand; zero if it cannot.
`DIV` counts as an operator here, so it ends no expression, although no form has it. -/
def precedenceOf (rest : List Lexeme) : Nat :=
  match rest with
  | [] => 0
  | lexeme :: rest =>
    match operator? lexeme with
    | some (_, precedence) => precedence
    | none =>
      match lexeme with
      | .symbol "::" | .symbol "[" => 50
      | _ =>
        match lexeme.upper? with
        | some "IS" => 17
        | some "OPERATOR" => 20
        | some "DIV" => 40
        | some "AT" =>
          match rest with
          | time :: zone :: _ => if time.isWord "TIME" && zone.isWord "ZONE" then 41 else 0
          | _ => 0
        | some "NOT" => ((rest.head?.bind Lexeme.upper?).bind testPrecedence?).getD 0
        | some w => (testPrecedence? w).getD 0
        | none => 0

/-- The right side of an operator that comes behind `left`, which may be compared with some or all
of several values. -/
def rightSide (rules : Rules) (left : Tree) (op : Operator) (precedence : Nat) : Reader Tree := do
  match ← oneOf? ["ANY", "ALL", "SOME"] with
  | none => return .binary left op (← rules.operand precedence)
  | some quantifier =>
    unless ← atSymbol "(" do unexpected
    let isQuery := ((← peekAfter? 1).bind Lexeme.upper?).any ["SELECT", "WITH"].contains
    let right ← if isQuery then rules.operand precedence
      else parenthesized (rules.operand precedence)
    let compares : Bool := match op with
      | .known .eq | .known .ne | .known .lt | .known .gt | .known .le | .known .ge => true
      | _ => false
    unless compares do unexpected
    let inside := match right with
      | .subquery _ => right.written
      | _ => s!"({right.written})"
    return .foreign (left.written ++ " " ++ op.written ++ " " ++ quantifier ++ inside)

/-- `IS` behind its word. -/
def isForm (rules : Rules) (left : Tree) : Reader Tree := do
  if ← word? "NULL" then return .isNull left false
  if ← words? ["NOT", "NULL"] then return .isNull left true
  let negated ← word? "NOT"
  let test (what : String) : Tree :=
    .foreign (left.written ++ " IS " ++ negationWord negated ++ what)
  match ← oneOf? ["TRUE", "FALSE", "UNKNOWN"] with
  | some w => return test w
  | none =>
    words ["DISTINCT", "FROM"]
    return test ("DISTINCT FROM " ++ (← rules.spelled))

/-- `ESCAPE` and its character, if they come next. -/
def escape? : Reader (Option String) := do
  if ← word? "ESCAPE" then some <$> textValue else return none

/-- A pattern with its escape, as the canonical spelling of the whole test. -/
def patternForm (rules : Rules) (left : Tree) (negated : Bool) (w : String) (hasEscape : Bool) :
    Reader Tree := do
  let pattern ← rules.operand 19
  let escape ← if hasEscape then escape? else pure none
  let ending := match escape with
    | some c => " ESCAPE '" ++ c ++ "'"
    | none => ""
  return .foreign (left.written ++ " " ++ negationWord negated ++ w ++ " " ++ pattern.written ++
    ending)

/-- Membership behind its word. -/
def inForm (rules : Rules) (left : Tree) (negated : Bool) : Reader Tree := do
  let test (values : String) : Tree :=
    .foreign (left.written ++ " " ++ negationWord negated ++ "IN " ++ values)
  if ← word? "UNNEST" then
    let array ← parenthesized rules.spelled
    return test s!"UNNEST({array})"
  symbol "("
  if ← atWord ["SELECT", "WITH"] then
    let q ← rules.query
    symbol ")"
    return test s!"({q})"
  let values ← commaSeparated rules.expr
  symbol ")"
  return .inList left values negated

/-- A test that may be negated, from its first word on. -/
def testForm (rules : Rules) (left : Tree) : Reader Tree := do
  let negated ← word? "NOT"
  match ← oneOf? ["REGEXP", "RLIKE", "IN", "BETWEEN", "LIKE", "ILIKE", "SIMILAR"] with
  | some "IN" => rules.inForm left negated
  | some "BETWEEN" =>
    let low ← rules.operand 20
    word "AND"
    let high ← rules.operand 20
    return .between left low high negated
  | some "LIKE" =>
    let anyOf ← word? "ANY"
    let pattern ← rules.operand 19
    return .like left pattern negated anyOf (← escape?)
  | some "ILIKE" =>
    let w ← if ← word? "ANY" then pure "ILIKE ANY" else pure "ILIKE"
    rules.patternForm left negated w true
  | some "SIMILAR" =>
    word "TO"
    rules.patternForm left negated "SIMILAR TO" true
  | some w => rules.patternForm left negated w false
  | none => unexpected

/-- An operator named by its path, behind its first word. -/
def namedOperator : Reader Operator := do
  symbol "("
  let first ← next
  let more ← repeated do
    if ← symbol? "." then some <$> next else pure none
  symbol ")"
  return .foreign ("OPERATOR(" ++ ".".intercalate ((first :: more).map Lexeme.verbatim) ++ ")")

/-- An index or a slice behind its opening bracket, up to the closing one. -/
def subscript (rules : Rules) : Reader String := do
  let low ← if ← symbol? ":" then pure none else some <$> rules.spelled
  if ← symbol? "]" then return low.getD ":"
  if low.isSome then symbol ":"
  let low := low.getD ""
  if ← symbol? "]" then return low ++ ":"
  let high ← rules.spelled
  if ← symbol? "]" then return low ++ ":" ++ high
  symbol ":"
  if ← symbol? "]" then return low ++ ":" ++ high
  let step ← rules.spelled
  symbol "]"
  return low ++ ":" ++ high ++ ":" ++ step

/-- What comes behind the operand `left`, whose precedence is the given one. -/
def extended (rules : Rules) (left : Tree) (precedence : Nat) : Reader Tree := do
  let lexeme ← next
  match operator? lexeme with
  | some (op, _) => rules.rightSide left op precedence
  | none =>
    match lexeme with
    | .symbol "::" => return .foreign (left.written ++ "::" ++ (← rules.dataTypeText))
    | .symbol "[" => return .foreign (left.written ++ "[" ++ (← rules.subscript) ++ "]")
    | _ =>
      match lexeme.upper? with
      | some "IS" => rules.isForm left
      | some "OPERATOR" => do rules.rightSide left (← namedOperator) precedence
      | some "AT" =>
        words ["TIME", "ZONE"]
        return .foreign (left.written ++ " AT TIME ZONE " ++
          (← rules.operand precedence).written)
      | _ =>
        modify (lexeme :: ·)
        rules.testForm left

/-- Goes on from `left` as long as what follows binds tighter than `precedence`, at most `fuel`
times. -/
def extendFrom (rules : Rules) (precedence : Nat) : (fuel : Nat) → Tree → Reader Tree
  | 0, left => return left
  | fuel + 1, left => do
    let tightness := precedenceOf (← get)
    if precedence < tightness then
      extendFrom rules precedence fuel (← rules.extended left tightness)
    else return left

/-- An expression whose operators bind tighter than `precedence`, with the rules for what is nested
in it. -/
def expression (rules : Rules) (precedence : Nat) : Reader Tree := do
  let length := (← get).length
  let first ← rules.operandAt (length + 1)
  rules.extendFrom precedence length first

end Rules

/-- The rules for what is nested at most `depth` levels deep. -/
def grammar : (depth : Nat) → (hierarchical : Bool) → Rules
  | 0, hierarchical =>
    { nested := fun _ _ => throw .tooDeep
      nestedQuery := fun _ => throw .tooDeep
      hierarchical := hierarchical
      interval := throw .tooDeep }
  | depth + 1, hierarchical =>
    { nested := fun hierarchical => (grammar depth hierarchical).expression
      nestedQuery := fun hierarchical => (grammar depth hierarchical).queryForm
      hierarchical := hierarchical
      interval := throw .unexpected }

/-- How deeply expressions may be nested. -/
def greatestDepth : Nat := 50

/-- The syntax tree of lexemes. -/
def Tree.ofLexemes (lexemes : List Lexeme) : Except SyntaxError Tree := do
  let (tree, rest) ← (grammar greatestDepth false).expr.run lexemes
  if rest.isEmpty then return tree else throw .unexpected

/-- The syntax tree of a text. -/
def Tree.ofText (text : String) : Except SyntaxError Tree := do
  Tree.ofLexemes (← Lexeme.ofText text)

end LocalizedQuery
