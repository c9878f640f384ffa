import LocalizedQuery.Predicate.Grammar.ColumnOption

/-!
# Data types and units of time

The names of data types occur in casts and before text literals, units of time in intervals. Neither
can be compiled, so both are read as their canonical spellings.
-/

namespace LocalizedQuery

namespace Rules

open Reader

/-! ## Units of time -/

/-- The units that can follow the number of an interval. -/
def intervalUnits : List String :=
  ["YEAR", "MONTH", "WEEK", "DAY", "HOUR", "MINUTE", "SECOND", "CENTURY", "DECADE", "DOW", "DOY",
   "EPOCH", "ISODOW", "ISOYEAR", "JULIAN", "MICROSECOND", "MICROSECONDS", "MILLENIUM", "MILLENNIUM",
   "MILLISECOND", "MILLISECONDS", "NANOSECOND", "NANOSECONDS", "QUARTER", "TIMEZONE",
   "TIMEZONE_HOUR", "TIMEZONE_MINUTE"]

/-- The units that can be extracted besides those of intervals. -/
def extraUnits : List String :=
  ["DATE", "DATETIME", "DAYOFWEEK", "DAYOFYEAR", "ISOWEEK", "TIME", "TIMEZONE_ABBR",
   "TIMEZONE_REGION"]

/-- A unit of time; any other name is taken as a unit, too. -/
def timeUnit : Reader String := do
  if ← word? "WEEK" then
    if ← symbol? "(" then
      let day ← name
      symbol ")"
      return s!"WEEK({day.written})"
    return "WEEK"
  match ← oneOf? (intervalUnits ++ extraUnits) with
  | some unit => return unit
  | none => return (← name).written

/-! ## Data types -/

/-- What can follow the name of a data type. -/
inductive TypeShape where
  | plain
  /-- A length. -/
  | length
  /-- A length, and `UNSIGNED`. -/
  | integer
  /-- A length in characters or bytes, or none at all. -/
  | characters
  /-- A precision and a scale. -/
  | exact
  /-- A precision, and whether there is a time zone. -/
  | zoned
  /-- A precision, and the name of a time zone. -/
  | located
  /-- A length that cannot be missing. -/
  | fixed
  /-- Texts. -/
  | texts
  /-- Texts that can stand for numbers. -/
  | members

/-- The data types whose names are one word, apart from those that contain others: the word, the
canonical name and what can follow. -/
def namedTypes : List (String × String × TypeShape) :=
  ["BOOLEAN", "BOOL", "REAL", "FLOAT4", "FLOAT8", "FLOAT64", "INT64", "UUID", "DATE", "JSON",
   "JSONB", "REGCLASS", "TEXT", "TINYTEXT", "MEDIUMTEXT", "LONGTEXT", "TINYBLOB", "MEDIUMBLOB",
   "LONGBLOB", "BYTEA", "TRIGGER"].map (fun n => (n, n, .plain)) ++
  [("FLOAT32", "Float32"), ("INT16", "Int16"), ("INT32", "Int32"), ("INT128", "Int128"),
   ("INT256", "Int256"), ("UINT8", "UInt8"), ("UINT16", "UInt16"), ("UINT32", "UInt32"),
   ("UINT64", "UInt64"), ("UINT128", "UInt128"), ("UINT256", "UInt256"),
   ("DATE32", "Date32")].map (fun (n, written) => (n, written, .plain)) ++
  ["FLOAT", "DATETIME", "CLOB", "BINARY", "VARBINARY", "BLOB", "BYTES", "STRING"].map
    (fun n => (n, n, .length)) ++
  ["TINYINT", "INT2", "SMALLINT", "MEDIUMINT", "INT", "INT4", "INT8", "INTEGER", "BIGINT"].map
    (fun n => (n, n, .integer)) ++
  ["VARCHAR", "NVARCHAR"].map (fun n => (n, n, .characters)) ++
  ["NUMERIC", "DECIMAL", "DEC", "BIGNUMERIC", "BIGDECIMAL"].map (fun n => (n, n, .exact)) ++
  ["TIMESTAMP", "TIME"].map (fun n => (n, n, .zoned)) ++
  ["TIMESTAMPTZ", "TIMETZ"].map (fun n => (n, n, .length)) ++
  [("DATETIME64", "DateTime64", .located), ("FIXEDSTRING", "FixedString", .fixed),
   ("SET", "SET", .texts)] ++
  ["ENUM", "ENUM8", "ENUM16"].map (fun n => (n, n, .members))

/-- A number in parentheses, if there is one. -/
def length? : Reader String := do
  if ← symbol? "(" then
    let n ← digits
    symbol ")"
    return s!"({n})"
  return ""

/-- A text that an enumeration lists, and the number it stands for. -/
def member : Reader String := do
  let text ← textValue
  let number ← if ← symbol? "=" then do pure (" = " ++ (← signedNumber)) else pure ""
  return Lexeme.quoteText text ++ number

/-- What can follow the name of a data type, by its canonical spelling. -/
def shape : TypeShape → Reader String
  | .plain => return ""
  | .length => length?
  | .integer => do
    let n ← length?
    return if ← word? "UNSIGNED" then n ++ " UNSIGNED" else n
  | .characters => do
    if ← symbol? "(" then
      if ← word? "MAX" then
        symbol ")"
        return "(MAX)"
      let n ← digits
      let unit := match ← oneOf? ["CHARACTERS", "OCTETS"] with
        | some unit => " " ++ unit
        | none => ""
      symbol ")"
      return s!"({n}{unit})"
    return ""
  | .exact => do
    if ← symbol? "(" then
      let precision ← digits
      let scale ← if ← symbol? "," then do pure ("," ++ (← digits)) else pure ""
      symbol ")"
      return s!"({precision}{scale})"
    return ""
  | .zoned => do
    let n ← length?
    if ← word? "WITH" then
      words ["TIME", "ZONE"]
      return n ++ " WITH TIME ZONE"
    if ← word? "WITHOUT" then
      words ["TIME", "ZONE"]
      return n ++ " WITHOUT TIME ZONE"
    return n
  | .located => do
    symbol "("
    let precision ← digits
    let zone ← if ← symbol? "," then do pure s!", '{← textValue}'" else pure ""
    symbol ")"
    return s!"({precision}{zone})"
  | .fixed => do return s!"({← parenthesized digits})"
  | .texts => do
    let texts ← parenthesized (commaSeparated do
      match ← next with
      | .quoted value => return Lexeme.quoteText value
      | _ => unexpected)
    return s!"({commaList texts})"
  | .members => do return s!"({commaList (← parenthesized (commaSeparated member))})"

/-- A modifier of a data type that the grammar does not know. -/
def modifier? : Reader (Option String) := do
  let _ ← repeated do
    if ← symbol? "," then pure (some ()) else pure none
  if ← symbol? ")" then return none
  match ← next with
  | .word n => return some n.verbatim
  | .number n _ => return some n
  | .quoted value => return some value
  | _ => unexpected

/-- A data type. -/
inductive TypeName where
  | interval
  | builtin (spelling : String)
  /-- A type that the grammar does not know. -/
  | custom (spelling : String)

/-- The canonical spelling of a data type. -/
def TypeName.written : TypeName → String
  | .interval => "INTERVAL"
  | .builtin spelling | .custom spelling => spelling

/-- A data type that can stand between angle brackets. Its own closing bracket can be the first half
of `>>`, which is one symbol. -/
structure OpenType where
  type : TypeName
  /-- Whether the closing bracket of the type around it has been taken along. -/
  closing : Bool := false

/-- Closes an angle bracket, unless a type inside has taken it along. Says whether the closing
bracket of the type around has been taken along, too. -/
def closeAngle (taken : Bool) : Reader Bool := do
  if taken then return false
  if ← symbol? ">" then return false
  if ← symbol? ">>" then return true
  unexpected

/-- A data type that stands by itself. -/
def alone (type : Reader OpenType) : Reader TypeName := do
  let t ← type
  if t.closing then unexpected
  return t.type

/-- A field of a record: two words in a row are its name and the start of its type; otherwise it has
no name. -/
def field (type : Reader OpenType) : Reader (String × Bool) := do
  let isWord : Option Lexeme → Bool
    | some (.word _) => true
    | _ => false
  let label ← if isWord (← peek?) && isWord (← peekAfter? 1) then do
      pure ((← name).written ++ " ")
    else pure ""
  let t ← type
  return (label ++ t.type.written, t.closing)

/-- Fields up to the closing angle bracket, at most `fuel` of them, and whether the bracket around
has been taken along. -/
def fieldsFrom (type : Reader OpenType) : (fuel : Nat) → Reader (List String × Bool)
  | 0 => unexpected
  | fuel + 1 => do
    let (first, taken) ← field type
    if ← symbol? "," then
      if taken then unexpected
      let (more, closing) ← fieldsFrom type fuel
      return (first :: more, closing)
    return ([first], ← closeAngle taken)

/-- The fields of a record type behind its word, by their canonical spelling with the brackets, and
whether the bracket around has been taken along. -/
def recordFields (type : Reader OpenType) : Reader (String × Bool) := do
  unless ← symbol? "<" do return ("", false)
  let (fields, closing) ← fieldsFrom type (← get).length
  return (s!"<{commaList fields}>", closing)

/-- The words that start a data type that contains others. -/
def containerWords : List String :=
  ["ARRAY", "STRUCT", "UNION", "NULLABLE", "LOWCARDINALITY", "MAP", "NESTED", "TUPLE"]

/-- A data type that contains others, behind its word. -/
def containerType (rules : Rules) (type : Reader OpenType) (w : String) : Reader OpenType := do
  let inner : Reader String := do return (← alone type).written
  let listed (label : String) (p : Reader String) : Reader OpenType := do
    return { type := .builtin s!"{label}({commaList (← parenthesized (commaSeparated p))})" }
  match w with
  | "ARRAY" =>
    symbol "<"
    let t ← type
    return { type := .builtin s!"ARRAY<{t.type.written}>", closing := ← closeAngle t.closing }
  | "STRUCT" =>
    let (fields, closing) ← recordFields type
    return { type := .builtin ("STRUCT" ++ fields), closing := closing }
  | "UNION" => listed "UNION" do return (← name).written ++ " " ++ (← inner)
  | "NULLABLE" => return { type := .builtin s!"Nullable({← parenthesized inner})" }
  | "LOWCARDINALITY" => return { type := .builtin s!"LowCardinality({← parenthesized inner})" }
  | "MAP" =>
    let entry ← parenthesized do
      let key ← inner
      symbol ","
      return key ++ ", " ++ (← inner)
    return { type := .builtin s!"Map({entry})" }
  | "NESTED" => listed "Nested" do
    return (← name).written ++ " " ++ (← inner) ++ (← rules.columnOptions)
  | _ => listed "Tuple" do return (← field type).1

/-- A data type that contains no other, behind its word. -/
def simpleType (w : String) : Reader TypeName := do
  match w with
  | "INTERVAL" => return .interval
  | "DOUBLE" => return .builtin (if ← word? "PRECISION" then "DOUBLE PRECISION" else "DOUBLE")
  | "BIT" =>
    let n := if ← word? "VARYING" then "BIT VARYING" else "BIT"
    return .builtin (n ++ (← length?))
  | "CHARACTER" | "CHAR" =>
    if ← word? "VARYING" then return .builtin (w ++ " VARYING" ++ (← shape .characters))
    if ← words? ["LARGE", "OBJECT"] then return .builtin (w ++ " LARGE OBJECT" ++ (← length?))
    return .builtin (w ++ (← shape .characters))
  | _ =>
    match namedTypes.lookup w with
    | some (written, kind) => return .builtin (written ++ (← shape kind))
    | none => unexpected

/-- A data type that the grammar does not know. Its name starts with a word. -/
def customType : Reader TypeName := do
  match ← peek? with
  | some (.word _) =>
    let n ← pathText
    if ← symbol? "(" then
      let modifiers ← repeated modifier?
      return .custom (if modifiers.isEmpty then n else n ++ "(" ++ commaList modifiers ++ ")")
    return .custom n
  | _ => unexpected

/-- The dimensions behind a data type. -/
def dimensions : Reader (List String) :=
  repeated do
    unless ← symbol? "[" do return none
    if ← symbol? "]" then return some "[]"
    let n ← digits
    symbol "]"
    return some s!"[{n}]"

/-- A data type with its dimensions, in which types are nested at most `fuel` levels deep. -/
def openType (rules : Rules) : (fuel : Nat) → Reader OpenType
  | 0 => unexpected
  | fuel + 1 => do
    let simpleWords := ["INTERVAL", "DOUBLE", "BIT", "CHARACTER", "CHAR"] ++ namedTypes.map Prod.fst
    let t ← match ← oneOf? containerWords with
      | some w => rules.containerType (openType rules fuel) w
      | none =>
        match ← oneOf? simpleWords with
        | some w => do pure { type := ← simpleType w }
        | none => do pure { type := ← customType }
    return match ← dimensions with
      | [] => t
      | sizes => { t with type := .builtin (t.type.written ++ String.join sizes) }

/-- A data type, with its dimensions. -/
def dataType (rules : Rules) : Reader TypeName := do
  alone (rules.openType (← get).length)

/-- The canonical spelling of a data type. -/
def dataTypeText (rules : Rules) : Reader String := do return (← rules.dataType).written

end Rules

end LocalizedQuery
