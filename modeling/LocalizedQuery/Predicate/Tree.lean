import LocalizedQuery.Predicate.Lexeme
import LocalizedQuery.Sql.Expr

/-!
# Syntax trees of predicates

The grammar of predicates covers more of SQL than a predicate may use. `Tree` has a node for every
form that can be compiled, and two, `foreign` and `subquery`, for those that are only recognised:
they keep their canonical spelling, so that a message can name them.

`Tree.written` is the canonical spelling of any tree: reserved words in capitals, one space between
words, and only the parentheses of the source.
-/

namespace LocalizedQuery

/-- A binary operator of the grammar. -/
inductive Operator where
  | known (op : BinaryOperator)
  /-- An operator that cannot be compiled, by its canonical spelling. -/
  | foreign (spelling : String)
deriving DecidableEq, Repr, Inhabited

/-- The canonical spelling of an operator. -/
def Operator.written : Operator → String
  | .known .eq => "="
  | .known .ne => "<>"
  | .known .lt => "<"
  | .known .gt => ">"
  | .known .le => "<="
  | .known .ge => ">="
  | .known .and => "AND"
  | .known .or => "OR"
  | .known .plus => "+"
  | .known .minus => "-"
  | .known .times => "*"
  | .known .divide => "/"
  | .known .modulo => "%"
  | .known .concat => "||"
  | .known .like => "LIKE"
  | .foreign spelling => spelling

/-- An operator before its operand. -/
inductive Sign where
  | not
  | minus
  | plus
deriving DecidableEq, Repr, Inhabited

/-- The canonical spelling of an operator before its operand, with the space that `NOT` needs. -/
def Sign.written : Sign → String
  | .not => "NOT "
  | .minus => "-"
  | .plus => "+"

/-- What a call consists of besides its arguments. -/
structure CallForm where
  name : List Name
  /-- `ALL` or `DISTINCT`. -/
  quantifier : Option String := none
  /-- Clauses behind the arguments and inside the parentheses, such as an order. -/
  clauses : List String := []
  /-- A list of parameters before that of the arguments. -/
  parameters : Option String := none
  /-- Clauses behind the parentheses, such as a window. -/
  trailing : List String := []
  /-- Whether there are parentheses. -/
  parentheses : Bool := true
  /-- Whether the call stands in braces, after `fn`. -/
  braces : Bool := false
deriving DecidableEq, Repr, Inhabited

mutual

/-- A syntax tree. -/
inductive Tree where
  | name (name : Name)
  /-- A name with at least one qualifier. -/
  | path (parts : List Name)
  | number (digits : String) (long : Bool)
  | text (value : String)
  | bool (value : Bool)
  | null
  | nested (inner : Tree)
  | binary (left : Tree) (op : Operator) (right : Tree)
  | signed (sign : Sign) (operand : Tree)
  | isNull (operand : Tree) (negated : Bool)
  | inList (operand : Tree) (values : List Tree) (negated : Bool)
  | between (operand low high : Tree) (negated : Bool)
  | like (operand pattern : Tree) (negated anyOf : Bool) (escape : Option String)
  | call (form : CallForm) (args : List Argument)
  /-- A query in parentheses, by the canonical spelling of the query. -/
  | subquery (spelling : String)
  /-- A form that cannot be compiled, by its canonical spelling. -/
  | foreign (spelling : String)

/-- An argument of a call. -/
inductive Argument where
  | positional (value : Tree)
  /-- A named argument or a wildcard, by its canonical spelling. -/
  | special (spelling : String)

end

instance : Inhabited Tree := ⟨.null⟩
instance : Inhabited Argument := ⟨.positional .null⟩

/-- Joins spellings by commas. -/
def commaList (spellings : List String) : String := ", ".intercalate spellings

/-- A word that stands only in negated forms. -/
def negationWord (negated : Bool) : String := if negated then "NOT " else ""

/-- The canonical spelling of a call, from those of its arguments. -/
def CallForm.written (form : CallForm) (args : List String) : String :=
  let inside := (match form.quantifier with
      | some quantifier => quantifier ++ " "
      | none => "") ++ commaList args ++
    (if form.clauses.isEmpty then ""
      else (if args.isEmpty then "" else " ") ++ " ".intercalate form.clauses)
  (if form.braces then "\x7bfn " else "") ++ Name.writtenPath form.name ++
    form.parameters.getD "" ++ (if form.parentheses then "(" ++ inside ++ ")" else "") ++
    String.join (form.trailing.map (" " ++ ·)) ++ (if form.braces then "\x7d" else "")

namespace Tree

mutual

/-- The canonical spelling of a tree. -/
def written : Tree → String
  | .name ident => ident.written
  | .path parts => Name.writtenPath parts
  | .number digits long => Lexeme.writeNumber digits long
  | .text value => Lexeme.quoteText value
  | .bool value => if value then "true" else "false"
  | .null => "NULL"
  | .nested inner => "(" ++ inner.written ++ ")"
  | .binary left op right => left.written ++ " " ++ op.written ++ " " ++ right.written
  | .signed sign operand => sign.written ++ operand.written
  | .isNull operand negated => operand.written ++ " IS " ++ negationWord negated ++ "NULL"
  | .inList operand values negated =>
    operand.written ++ " " ++ negationWord negated ++ "IN (" ++
      commaList (writtenList values) ++ ")"
  | .between operand low high negated =>
    operand.written ++ " " ++ negationWord negated ++ "BETWEEN " ++ low.written ++ " AND " ++
      high.written
  | .like operand pattern negated anyOf escape =>
    operand.written ++ " " ++ negationWord negated ++ "LIKE " ++ (if anyOf then "ANY " else "") ++
      pattern.written ++ (match escape with
        | some c => " ESCAPE '" ++ c ++ "'"
        | none => "")
  | .call form args => form.written (writtenArguments args)
  | .subquery spelling => "(" ++ spelling ++ ")"
  | .foreign spelling => spelling

/-- The canonical spellings of a list of trees. -/
def writtenList : List Tree → List String
  | [] => []
  | tree :: rest => tree.written :: writtenList rest

/-- The canonical spellings of arguments. -/
def writtenArguments : List Argument → List String
  | [] => []
  | .positional value :: rest => value.written :: writtenArguments rest
  | .special spelling :: rest => spelling :: writtenArguments rest

end

end Tree

end LocalizedQuery
