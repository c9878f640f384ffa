import LocalizedQuery.Sql.Rendering

/-!
# Reading conditions

A grammar for the tokens of a condition, written down without regard to how they are produced. An
expression is an operand and what continues it: operators with their right operands, and tests. From
loose to tight they bind as follows, and what binds alike is grouped to the left.

| level | form                                                                    |
|-------|-------------------------------------------------------------------------|
| 1     | `OR`                                                                    |
| 2     | `AND`                                                                   |
| 3     | `NOT` before a condition                                                |
| 4     | comparisons, `LIKE`, `IS [NOT] NULL`, `[NOT] IN (…)`, `[NOT] BETWEEN …` |
| 5     | `+`, `-`                                                                |
| 6     | `*`, `/`, `%`                                                           |

Two keywords have two parts to play. `NOT` belongs to the `IN` or `BETWEEN` behind it, if it stands
behind an operand, and else to the condition behind it. The first `AND` behind `BETWEEN` belongs to
it; its bounds bind tighter than any test.

## Implementation notes

Pairs of parentheses are kept as `Expr.paren`. The levels are those of `Reading.operator?` and
`Link.level` and owe nothing to `BinaryOperator.precedence`, by which expressions are written. Every
step takes at least one token, so `Reading.ofTokens` has enough fuel.
-/

namespace LocalizedQuery

/-- What continues an expression. -/
inductive Link where
  | operator (op : BinaryOperator) (level : Nat)
  | nullTest (negated : Bool)
  | inList (negated : Bool)
  | between (negated : Bool)

/-- How tightly a link binds what it continues. -/
def Link.level : Link → Nat
  | .operator _ level => level
  | .nullTest _ | .inList _ | .between _ => 4

namespace Reading

/-- The operators and how tightly they bind. -/
def operator? : Token → Option Link
  | .keyword .or => some (.operator .or 1)
  | .keyword .and => some (.operator .and 2)
  | .eq => some (.operator .eq 4)
  | .ne => some (.operator .ne 4)
  | .lt => some (.operator .lt 4)
  | .gt => some (.operator .gt 4)
  | .le => some (.operator .le 4)
  | .ge => some (.operator .ge 4)
  | .keyword .like => some (.operator .like 4)
  | .plus => some (.operator .plus 5)
  | .minus => some (.operator .minus 5)
  | .times => some (.operator .times 6)
  | .divide => some (.operator .divide 6)
  | .modulo => some (.operator .modulo 6)
  | _ => none

/-- The link that some tokens start with, and the tokens behind it. -/
def link? : List Token → Option (Link × List Token)
  | .keyword .isNull :: rest => some (.nullTest false, rest)
  | .keyword .isNotNull :: rest => some (.nullTest true, rest)
  | .keyword .inList :: .lparen :: rest => some (.inList false, rest)
  | .keyword .not :: .keyword .inList :: .lparen :: rest => some (.inList true, rest)
  | .keyword .between :: rest => some (.between false, rest)
  | .keyword .not :: .keyword .between :: rest => some (.between true, rest)
  | token :: rest => (operator? token).map fun link => (link, rest)
  | [] => none

/-- A literal. -/
def literal? : Token → Option Literal
  | .int value => some (.int value)
  | .float value => some (.float value)
  | .string value => some (.string value)
  | .bool value => some (.bool value)
  | .null => some .null
  | .keyword .true => some (.bool true)
  | .keyword .false => some (.bool false)
  | _ => none

/-- An expression or a list of them, and the tokens behind it. -/
abbrev Step (α : Type) := Option (α × List Token)

/-- An operand: a name, a literal, a condition after `NOT` where the level `least` admits one, or
anything in parentheses. `expression` reads what is inside. -/
def operand (expression : (least : Nat) → List Token → Step Expr) (least : Nat) :
    List Token → Step Expr
  | .name table :: .dot :: .name column :: rest => some (.column (some table) column, rest)
  | .name column :: rest => some (.column none column, rest)
  | .lparen :: rest =>
    match expression 1 rest with
    | some (inner, .rparen :: rest) => some (.paren inner, rest)
    | _ => none
  | .keyword .not :: rest =>
    if least ≤ 3 then (expression 3 rest).map fun (e, rest) => (.unary .not e, rest) else none
  | token :: rest => (literal? token).map fun literal => (.literal literal, rest)
  | [] => none

/-- What stands on the left of a link, together with the link and what stands on its right. -/
def linked (expression : (least : Nat) → List Token → Step Expr)
    (values : List Token → Step (List Expr)) (left : Expr) (link : Link) (tokens : List Token) :
    Step Expr :=
  match link with
  | .operator op level =>
    (expression (level + 1) tokens).map fun (right, rest) => (.binary op left right, rest)
  | .nullTest negated => some (.isNull left negated, tokens)
  | .inList negated => (values tokens).map fun (values, rest) => (.inList left values negated, rest)
  | .between negated =>
    match expression 5 tokens with
    | some (low, .keyword .and :: rest) =>
      (expression 5 rest).map fun (high, rest) => (.between left low high negated, rest)
    | _ => none

mutual

/-- An expression whose operators bind at least as tightly as the level `least`. -/
def expression : (fuel : Nat) → (least : Nat) → List Token → Step Expr
  | 0, _, _ => none
  | fuel + 1, least, tokens =>
    match operand (expression fuel) least tokens with
    | some (first, rest) => continued fuel least first rest
    | none => none

/-- What has been read, with the links behind it that bind tightly enough. -/
def continued : (fuel : Nat) → (least : Nat) → Expr → List Token → Step Expr
  | 0, _, _, _ => none
  | fuel + 1, least, left, tokens =>
    match link? tokens with
    | none => some (left, tokens)
    | some (link, rest) =>
      if link.level < least then some (left, tokens)
      else
        match linked (expression fuel) (values fuel) left link rest with
        | some (e, rest) => continued fuel least e rest
        | none => none

/-- Expressions with commas between them, up to a closing parenthesis. -/
def values : (fuel : Nat) → List Token → Step (List Expr)
  | 0, _ => none
  | fuel + 1, tokens =>
    match expression fuel 1 tokens with
    | some (first, .comma :: rest) =>
      (values fuel rest).map fun (others, rest) => (first :: others, rest)
    | some (first, .rparen :: rest) => some ([first], rest)
    | _ => none

end

/-- The tokens that are not blank. -/
def solid (tokens : List Token) : List Token := tokens.filter (· ≠ .space)

/-- The expression that some tokens denote, if they all belong to it. -/
def ofTokens (tokens : List Token) : Option Expr :=
  match expression ((solid tokens).length + 1) 1 (solid tokens) with
  | some (e, []) => some e
  | _ => none

end Reading

end LocalizedQuery
