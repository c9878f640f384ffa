import LocalizedQuery.Decimal.Shortest
import LocalizedQuery.Sql.Dialect

/-!
# Tokens of a query

A query is first a list of tokens. Names, literals and a few operators get their spelling only when
a token is written in a dialect (`Token.write`).

Everything can be written except a number that is none: SQL has no literal for it. `Unwritable` says
which one was met.
-/

namespace LocalizedQuery

/-- Reserved words, spelled the same in every dialect. -/
inductive Keyword where
  | select | source | filter
  | and | or | not
  | as | on | join | inner | left | outer
  | caseOf | when | result | otherwise | done
  | inList | between | like
  | isNull | isNotNull
  | true | false
deriving DecidableEq, Repr, Inhabited

/-- The spelling of a reserved word. -/
def Keyword.text : Keyword → String
  | .select => "SELECT"
  | .source => "FROM"
  | .filter => "WHERE"
  | .and => "AND"
  | .or => "OR"
  | .not => "NOT"
  | .as => "AS"
  | .on => "ON"
  | .join => "JOIN"
  | .inner => "INNER"
  | .left => "LEFT"
  | .outer => "OUTER"
  | .caseOf => "CASE"
  | .when => "WHEN"
  | .result => "THEN"
  | .otherwise => "ELSE"
  | .done => "END"
  | .inList => "IN"
  | .between => "BETWEEN"
  | .like => "LIKE"
  | .isNull => "IS NULL"
  | .isNotNull => "IS NOT NULL"
  | .true => "TRUE"
  | .false => "FALSE"

/-- A token of a query. -/
inductive Token where
  | keyword (word : Keyword)
  | comma | dot | star | lparen | rparen
  | eq | ne | lt | gt | le | ge
  | plus | minus | times | divide | modulo
  | concat
  | space | newline
  /-- Two blanks for every level. -/
  | indent (levels : Nat)
  /-- The name of a table, a column or a join. -/
  | name (text : String)
  | int (value : Int)
  | float (value : Double)
  | string (value : String)
  | bool (value : Bool)
  | null
  /-- The name of a function, which a dialect may replace. -/
  | function (text : String)
deriving DecidableEq, Repr, Inhabited

/-- A number that no SQL literal denotes. -/
inductive Unwritable where
  | nan
  | infinity
deriving DecidableEq, Repr

/-- Says which number cannot be written. -/
def Unwritable.message : Unwritable → String
  | .nan => "Cannot serialize NaN to SQL"
  | .infinity => "Cannot serialize Infinity to SQL"

namespace Token

/-- A double as an SQL literal. -/
def writeDouble (value : Double) : Except Unwritable String :=
  match value with
  | .nan => .error .nan
  | .infinity _ => .error .infinity
  | .finite .. => .ok value.toText

/-- The text of a token in a dialect. -/
def write (d : Dialect) : Token → Except Unwritable String
  | .keyword word => .ok word.text
  | .comma => .ok ","
  | .dot => .ok "."
  | .star | .times => .ok "*"
  | .lparen => .ok "("
  | .rparen => .ok ")"
  | .eq => .ok "="
  | .ne => .ok "<>"
  | .lt => .ok "<"
  | .gt => .ok ">"
  | .le => .ok "<="
  | .ge => .ok ">="
  | .plus => .ok "+"
  | .minus => .ok "-"
  | .divide => .ok "/"
  | .modulo => .ok "%"
  | .concat => .ok d.concatText
  | .space => .ok " "
  | .newline => .ok "\n"
  | .indent levels => .ok (String.ofList (List.replicate (2 * levels) ' '))
  | .name text => .ok (d.quoteName text)
  | .int value => .ok (toString value)
  | .float value => writeDouble value
  | .string value => .ok (d.quoteString value)
  | .bool value => .ok (d.boolText value)
  | .null => .ok "NULL"
  | .function text => .ok (toUpperCase ((d.functionName? text).getD text))

/-- The text of a list of tokens; the first one that cannot be written decides. -/
def writeAll (d : Dialect) (tokens : List Token) : Except Unwritable String :=
  (tokens.mapM (write d)).map String.join

end Token

end LocalizedQuery
