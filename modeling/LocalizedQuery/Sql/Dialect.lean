import LocalizedQuery.Text.Case
import LocalizedQuery.Text.Quoted

/-!
# SQL dialects

The dialects differ in how names and strings are quoted, how truth values and concatenation are
written, and what some functions are called.
-/

namespace LocalizedQuery

/-- A supported SQL dialect. -/
inductive Dialect where
  | duckdb
  | postgres
  | mysql
  | tsql
deriving DecidableEq, Repr, Inhabited

namespace Dialect

/-- All dialects. -/
def all : List Dialect := [.duckdb, .postgres, .mysql, .tsql]

/-- The name by which a dialect is chosen. -/
def name : Dialect → String
  | .duckdb => "duckdb"
  | .postgres => "postgres"
  | .mysql => "mysql"
  | .tsql => "tsql"

/-- The dialect with the given name. -/
def ofName? (name : String) : Option Dialect := all.find? (fun d => d.name == name)

/-- The characters around a quoted name. -/
def nameQuotes : Dialect → Char × Char
  | .duckdb | .postgres => ('"', '"')
  | .mysql => ('\u0060', '\u0060')
  | .tsql => ('[', ']')

/-- The name of a table, column or join, quoted. -/
def quoteName (d : Dialect) (name : String) : String :=
  String.ofList (Quoted.enclose d.nameQuotes.1 d.nameQuotes.2 name.toList)

/-- Whether a string literal is marked as national text: in T-SQL, when it leaves ASCII. -/
def isNational (d : Dialect) (text : String) : Bool :=
  match d with
  | .tsql => text.toList.any (fun c => decide (0x80 ≤ c.toNat))
  | _ => false

/-- A string literal. -/
def quoteString (d : Dialect) (text : String) : String :=
  let quoted := Quoted.enclose '\'' '\'' text.toList
  String.ofList (if d.isNational text then 'N' :: quoted else quoted)

/-- A truth value. -/
def boolText : Dialect → Bool → String
  | .duckdb, value | .postgres, value => if value then "true" else "false"
  | .mysql, value | .tsql, value => if value then "1" else "0"

/-- The concatenation operator. -/
def concatText : Dialect → String
  | .tsql => "+"
  | _ => "||"

/-- Whether strings are concatenated by an operator rather than by the function `CONCAT`. -/
def hasConcatOperator : Dialect → Bool
  | .mysql => false
  | _ => true

/-- What a function is called in the dialect, where that is not the name it was given. The name is
compared without regard to the case of its Latin letters. -/
def functionName? (d : Dialect) (name : String) : Option String :=
  match d, toPlainUpperCase name with
  | .duckdb, "NVL" | .duckdb, "IFNULL" | .duckdb, "ISNULL" => some "COALESCE"
  | .postgres, "NVL" | .postgres, "IFNULL" | .postgres, "ISNULL" => some "COALESCE"
  | .mysql, "NVL" | .mysql, "ISNULL" => some "IFNULL"
  | .mysql, "SUBSTR" => some "SUBSTRING"
  | .mysql, "LENGTH" => some "CHAR_LENGTH"
  | .tsql, "LENGTH" => some "LEN"
  | .tsql, "SUBSTR" => some "SUBSTRING"
  | .tsql, "NVL" | .tsql, "IFNULL" => some "ISNULL"
  | _, _ => none

end Dialect

end LocalizedQuery
