import LocalizedQuery.Predicate.Tree

/-!
# From syntax trees to expressions

`Tree.lower` turns the tree of a predicate into an expression, from left to right. A bare name is
offered to a resolver, which is how localized attributes enter; a name that it does not claim is a
column. The first form without an equivalent is the error.

Integers that fit 64 bits stay integers. Any other number has to be the text of a finite double.
-/

namespace LocalizedQuery

/-- A form of a predicate that has no equivalent, by its canonical spelling. -/
structure UnsupportedForm where
  spelling : String
deriving DecidableEq, Repr

namespace Tree

/-- The integer that a text of digits denotes, if it fits 64 bits. -/
def smallInteger? (digits : String) : Option Int :=
  if digits.isEmpty ∨ !digits.all Char.isDigit then none
  else
    let value := Double.digitsValue digits.toList
    if value < Nat.pow 2 63 then some value else none

/-- A number as a literal. -/
def lowerNumber (digits : String) : Except UnsupportedForm Expr :=
  match smallInteger? digits with
  | some value => .ok (.literal (.int value))
  | none =>
    match (Double.ofText? digits).filter Double.isFinite with
    | some value => .ok (.literal (.float value))
    | none => .error ⟨"number " ++ digits⟩

variable (resolve : String → Option Expr)

mutual

/-- The expression of a tree. -/
def lower (tree : Tree) : Except UnsupportedForm Expr :=
  match tree with
  | .name ident => .ok ((resolve ident.text).getD (.column none ident.text))
  | .path [table, column] => .ok (.column (some table.text) column.text)
  | .path parts => .error ⟨Name.writtenPath parts⟩
  | .number digits _ => lowerNumber digits
  | .text value => .ok (.literal (.string value))
  | .bool value => .ok (.literal (.bool value))
  | .null => .ok (.literal .null)
  | .nested inner => do return .paren (← inner.lower)
  | .binary left op right => do
    let left' ← left.lower
    match op with
    | .known op => return .binary op left' (← right.lower)
    | .foreign _ => throw ⟨(Tree.binary left op right).written⟩
  | .signed .plus operand => operand.lower
  | .signed .minus operand => do return .unary .minus (← operand.lower)
  | .signed .not operand => do return .unary .not (← operand.lower)
  | .isNull operand negated => do return .isNull (← operand.lower) negated
  | .inList operand values negated => do
    let operand' ← operand.lower
    return .inList operand' (← lowerList values) negated
  | .between operand low high negated => do
    let operand' ← operand.lower
    let low' ← low.lower
    let high' ← high.lower
    return .between operand' low' high' negated
  | .like operand pattern negated _ _ => do
    let operand' ← operand.lower
    let pattern' ← pattern.lower
    let like := Expr.binary .like operand' pattern'
    return if negated then .unary .not like else like
  | .call form args => do
    let args' ← lowerArguments ⟨(Tree.call form args).written⟩ args
    return .call (Name.writtenPath form.name) args'
  | .subquery spelling => .error ⟨"(" ++ spelling ++ ")"⟩
  | .foreign spelling => .error ⟨spelling⟩

/-- The expressions of a list of trees. -/
def lowerList (trees : List Tree) : Except UnsupportedForm (List Expr) :=
  match trees with
  | [] => .ok []
  | tree :: rest => do
    let first ← tree.lower
    return first :: (← lowerList rest)

/-- The expressions of arguments; `call` is the error for one that is not positional. -/
def lowerArguments (call : UnsupportedForm) (args : List Argument) :
    Except UnsupportedForm (List Expr) :=
  match args with
  | [] => .ok []
  | .positional value :: rest => do
    let first ← value.lower
    return first :: (← lowerArguments call rest)
  | .special _ :: _ => .error call

end

end Tree

end LocalizedQuery
