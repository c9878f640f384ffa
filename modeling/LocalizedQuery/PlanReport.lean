import LocalizedQuery.Compile

/-!
# Reports of plans

The joins that a predicate needs are reported as a JSON array of objects, indented by two spaces a
level.
-/

namespace LocalizedQuery

namespace PlanReport

/-- The hexadecimal digit of a number below 16. -/
def hexDigit (n : Nat) : Char := "0123456789abcdef".toList.getD n '0'

/-- How a character is written inside a JSON text. -/
def escaped (c : Char) : List Char :=
  match c with
  | '"' => ['\\', '"']
  | '\\' => ['\\', '\\']
  | '\x08' => ['\\', 'b']
  | '\x0c' => ['\\', 'f']
  | '\n' => ['\\', 'n']
  | '\r' => ['\\', 'r']
  | '\t' => ['\\', 't']
  | c =>
    if c.toNat < 0x20 then
      ['\\', 'u', '0', '0', hexDigit (c.toNat / 16), hexDigit (c.toNat % 16)]
    else [c]

/-- A JSON text. -/
def quoted (text : String) : String :=
  String.ofList ('"' :: (text.toList.flatMap escaped ++ ['"']))

/-- A line with a member of an object. -/
def member (name : String) (value : Option String) : String :=
  "    " ++ quoted name ++ ": " ++ ((value.map quoted).getD "null")

/-- The lines of a join. -/
def join (j : PlannedJoin) : String :=
  let members := [
    member "backend" (some j.backend),
    member "attribute" j.attributeName,
    member "table" (some j.table),
    member "alias" (some j.aliasName),
    member "kind" (some j.kind.name)]
  "  \x7b\n" ++ String.intercalate ",\n" members ++ "\n  \x7d"

end PlanReport

/-- The report of a plan. -/
def planReport (joins : List PlannedJoin) : String :=
  if joins.isEmpty then "[]"
  else "[\n" ++ String.intercalate ",\n" (joins.map PlanReport.join) ++ "\n]"

end LocalizedQuery
