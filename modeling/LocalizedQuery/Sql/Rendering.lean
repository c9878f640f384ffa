import LocalizedQuery.Sql.Expr
import LocalizedQuery.Sql.Token

/-!
# Rendering expressions

`Expr.tokens` writes an expression for a dialect. Parentheses of the source are kept
(`Expr.paren`), and an operand that binds looser than its place allows gets a pair of its own.

Three forms are not written as they stand: a comparison with `NULL` by `=` or `<>` becomes
`IS [NOT] NULL`, membership in the empty list becomes `FALSE` or `TRUE`, and where a dialect has no
concatenation operator the function `CONCAT` is called.
-/

namespace LocalizedQuery

/-- The token of a binary operator. -/
def BinaryOperator.token : BinaryOperator → Token
  | .eq => .eq
  | .ne => .ne
  | .lt => .lt
  | .gt => .gt
  | .le => .le
  | .ge => .ge
  | .and => .keyword .and
  | .or => .keyword .or
  | .plus => .plus
  | .minus => .minus
  | .times => .times
  | .divide => .divide
  | .modulo => .modulo
  | .concat => .concat
  | .like => .keyword .like

/-- The token of a literal. -/
def Literal.token : Literal → Token
  | .int value => .int value
  | .float value => .float value
  | .string value => .string value
  | .bool value => .bool value
  | .null => .null

namespace Expr

/-- How tightly an expression binds as an operand. What is not listed never needs parentheses. -/
def precedence : Expr → Nat
  | .binary op _ _ => op.precedence
  | .unary .not _ => 3
  | .inList .. | .between .. | .isNull .. => 4
  | _ => 8

/-- The tokens of an operand in a place that asks for at least the precedence `least`. -/
def operandTokens (least : Nat) (e : Expr) (tokens : List Token) : List Token :=
  if e.precedence < least then .lparen :: (tokens ++ [.rparen]) else tokens

/-- The tokens of a qualified or plain name. -/
def nameTokens (table : Option String) (last : Token) : List Token :=
  match table with
  | some table => [.name table, .dot, last]
  | none => [last]

/-- The keyword that tests for `NULL`, or for its absence. -/
def nullTest (negated : Bool) : Keyword := if negated then .isNotNull else .isNull

/-- The keyword `NOT` with a space before it, if the test is negated. -/
def negation (negated : Bool) : List Token := if negated then [.space, .keyword .not] else []

/-- For a comparison of something with `NULL` by `=` or `<>`: which side is compared, as a choice
between two values. -/
def comparedWithNull {α : Type} (op : BinaryOperator) (left right : Expr) (onLeft onRight : α) :
    Option α :=
  if op = .eq ∨ op = .ne then
    if right.isNullLiteral then some onLeft
    else if left.isNullLiteral then some onRight
    else none
  else none

mutual

/-- The tokens of an expression. -/
def tokens (d : Dialect) : Expr → List Token
  | .column table name => nameTokens table (.name name)
  | .localized reference => nameTokens (some reference.table) (.name reference.column)
  | .star table => nameTokens table .star
  | .literal value => [value.token]
  | .paren inner => .lparen :: (inner.tokens d ++ [.rparen])
  | .binary op left right =>
    let leftTokens := left.tokens d
    let rightTokens := right.tokens d
    match comparedWithNull op left right (operandTokens 5 left leftTokens)
        (operandTokens 5 right rightTokens) with
    | some compared => compared ++ [.space, .keyword (nullTest (op == .ne))]
    | none =>
      if op = .concat ∧ !d.hasConcatOperator then
        [.function "CONCAT", .lparen] ++ leftTokens ++ [.comma, .space] ++ rightTokens ++ [.rparen]
      else
        operandTokens op.precedence left leftTokens ++ [.space, op.token, .space] ++
          operandTokens op.precedence right rightTokens
  | .unary .not e => [.keyword .not, .space] ++ operandTokens 3 e (e.tokens d)
  | .unary .minus e => .minus :: operandTokens 7 e (e.tokens d)
  | .call function args => [.function function, .lparen] ++ listTokens d args ++ [.rparen]
  | .caseOf operand branches otherwise =>
    .keyword .caseOf :: (optionTokens d [.space] operand ++ branchTokens d branches ++
      optionTokens d [.space, .keyword .otherwise, .space] otherwise ++ [.space, .keyword .done])
  | .inList _ [] negated => [.keyword (if negated then .true else .false)]
  | .inList operand (value :: values) negated =>
    operandTokens 5 operand (operand.tokens d) ++ negation negated ++
      [.space, .keyword .inList, .space, .lparen] ++ value.tokens d ++ followingTokens d values ++
      [.rparen]
  | .between operand low high negated =>
    operandTokens 5 operand (operand.tokens d) ++ negation negated ++
      [.space, .keyword .between, .space] ++ operandTokens 5 low (low.tokens d) ++
      [.space, .keyword .and, .space] ++ operandTokens 5 high (high.tokens d)
  | .isNull operand negated =>
    operandTokens 5 operand (operand.tokens d) ++ [.space, .keyword (nullTest negated)]

/-- The tokens of a list of expressions, separated by commas. -/
def listTokens (d : Dialect) : List Expr → List Token
  | [] => []
  | e :: rest => e.tokens d ++ followingTokens d rest

/-- The tokens of the expressions after the first of a list, each after a comma. -/
def followingTokens (d : Dialect) : List Expr → List Token
  | [] => []
  | e :: rest => [.comma, .space] ++ e.tokens d ++ followingTokens d rest

/-- The tokens of an expression that may be missing, after `lead` if it is there. -/
def optionTokens (d : Dialect) (lead : List Token) : Option Expr → List Token
  | none => []
  | some e => lead ++ e.tokens d

/-- The tokens of the branches of a `CASE`. -/
def branchTokens (d : Dialect) : List (Expr × Expr) → List Token
  | [] => []
  | (condition, result) :: rest =>
    [.space, .keyword .when, .space] ++ condition.tokens d ++
      [.space, .keyword .result, .space] ++ result.tokens d ++ branchTokens d rest

end

/-- The text of an expression in a dialect. -/
def toSql (d : Dialect) (e : Expr) : Except Unwritable String := Token.writeAll d (e.tokens d)

end Expr

end LocalizedQuery
