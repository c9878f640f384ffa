import LocalizedQuery.Toml.Document
import LocalizedQuery.Toml.Scalar
import LocalizedQuery.Toml.Text

/-!
# Reading TOML

`Toml.ofText?` reads a document line by line: headers say which table the keys after them belong to.
Arrays and inline tables may run over several lines, with comments and a comma behind the last
element, and may be nested to a certain depth. In an inline table a line may also end beside the
sign between a key and its value.
-/

namespace LocalizedQuery.Toml

/-- Takes characters from the front of a text. -/
abbrev Reader (α : Type) := StateT (List Char) Option α

/-! ## Blanks -/

/-- What follows blanks, line ends and comments. -/
def afterSpace? (inComment : Bool) : List Char → Option (List Char)
  | [] => some []
  | '\n' :: rest => afterSpace? false rest
  | '\r' :: '\n' :: rest => afterSpace? false rest
  | c :: rest =>
    if inComment then if isControl c then none else afterSpace? true rest
    else if c = '#' then afterSpace? true rest
    else if c = ' ' ∨ c = '\t' then afterSpace? false rest
    else some (c :: rest)

/-- Skips blanks, line ends and comments. -/
def space : Reader Unit := do set (← afterSpace? false (← get))

/-- Skips blanks on a line. -/
def blanks : Reader Unit := do
  set ((← get).dropWhile fun c => c == ' ' || c == '\t')

/-- Takes a character if it comes next. -/
def char? (c : Char) : Reader Bool := do
  match ← get with
  | d :: rest =>
    if c = d then
      set rest
      return true
    else return false
  | [] => return false

/-- Takes a character. -/
def char (c : Char) : Reader Unit := do
  unless ← char? c do failure

/-- Takes the end of a line, with blanks and a comment before it. The end of the text is one,
too. -/
def lineEnd : Reader Unit := do
  blanks
  match ← get with
  | [] => return
  | '#' :: rest =>
    let comment := rest.takeWhile fun c => c ≠ '\n'
    let comment := if comment.getLast? = some '\r' ∧ comment.length < rest.length
      then comment.dropLast else comment
    if comment.any isControl then failure
    set ((rest.dropWhile fun c => c ≠ '\n').drop 1)
  | rest => set (← afterLineEnd? rest)

/-! ## Keys -/

/-- A key without dots. -/
def simpleKey : Reader String := do
  let (key, rest) ← simpleKey? (← get)
  set rest
  return String.ofList key

/-- The further parts of a dotted key, at most `fuel`. -/
def furtherKeys : (fuel : Nat) → Reader (List String)
  | 0 => return []
  | fuel + 1 => do
    blanks
    if ← char? '.' then
      blanks
      let key ← simpleKey
      return key :: (← furtherKeys fuel)
    else return []

/-- How deeply arrays and inline tables may be nested, and how many parts a key may have. -/
def greatestDepth : Nat := 80

/-- A key: the path to its table, and its last part. -/
def key : Reader (List String × String) := do
  blanks
  let first ← simpleKey
  let more ← furtherKeys (← get).length
  if more.length < greatestDepth then
    let keys := first :: more
    return (keys.dropLast, keys.getLast?.getD first)
  else failure

/-! ## Values -/

/-- A value that is not quoted and not composed. A date may be separated from its time by a
space. -/
def scalar : Reader Toml := do
  let text ← get
  let isPart (c : Char) : Bool := c.isAlphanum || "+-_.:".toList.contains c
  let word := text.takeWhile isPart
  let rest := text.drop word.length
  let word :=
    match rest with
    | ' ' :: d :: _ =>
      if afterDate? word = some [] ∧ d.isDigit then word ++ ' ' :: (rest.drop 1).takeWhile isPart
      else word
    | _ => word
  if isScalar word then
    set (text.drop word.length)
    return .plain (String.ofList word)
  else failure

/-- The elements up to a closing bracket, separated by commas; at most `fuel` of them. -/
def elements {α : Type} (closing : Char) (element : Reader α) : (fuel : Nat) → Reader (List α)
  | 0 => failure
  | fuel + 1 => do
    space
    if ← char? closing then return []
    let first ← element
    space
    if ← char? ',' then return first :: (← elements closing element fuel)
    char closing
    return [first]

/-- A key with its value; `gap` reads what may stand before and behind the sign between them. -/
def assignment (gap : Reader Unit) (value : Reader Toml) :
    Reader ((List String × String) × Toml) := do
  let k ← key
  gap
  char '='
  gap
  return (k, ← value)

/-- A value, in which arrays and inline tables are nested at most `depth` levels deep. -/
def value : (depth : Nat) → Reader Toml
  | 0 => do
    match ← get with
    | '[' :: _ | '\x7b' :: _ => failure
    | '"' :: _ | '\'' :: _ => quoted
    | _ => scalar
  | depth + 1 => do
    match ← get with
    | '[' :: rest =>
      set rest
      return .array (← elements ']' (value depth) (rest.length + 1))
    | '\x7b' :: rest =>
      set rest
      let entries ← elements '\x7d' (assignment space (value depth)) (rest.length + 1)
      entries.foldlM (fun table entry => insert entry.1.1 entry.1.2 entry.2 table)
        (.table .inline [])
    | '"' :: _ | '\'' :: _ => quoted
    | _ => scalar
where
  /-- A text in quotes. -/
  quoted : Reader Toml := do
    let (chars, rest) ← quotedText? (← get)
    set rest
    return .string (String.ofList chars)

/-! ## Documents -/

/-- A document as far as it has been read, and the path of the table that keys belong to. -/
structure State where
  document : Toml := .table .opened []
  current : List String := []

/-- Reads a line that is not blank. -/
def line (state : State) : Reader State := do
  let state ← if ← char? '[' then do
      let array ← char? '['
      let (path, last) ← key
      blanks
      char ']'
      if array then char ']'
      let opened := if array then addTable path last else openTable path last
      pure { document := ← opened state.document, current := path ++ [last] }
    else do
      let ((path, last), v) ← assignment blanks (value greatestDepth)
      let document ← within false (insert path last v) state.current state.document
      pure { state with document := document }
  lineEnd
  return state

/-- Reads at most `fuel` lines. -/
def lines : (fuel : Nat) → State → Reader State
  | 0, _ => failure
  | fuel + 1, state => do
    space
    if (← get).isEmpty then return state
    lines fuel (← line state)

/-- The document that a text denotes. A byte order mark before it is skipped. -/
def ofText? (text : String) : Option Toml :=
  let chars := match text.toList with
    | '\ufeff' :: rest => rest
    | chars => chars
  ((lines (chars.length + 1) {}).run chars).map fun (state, _) => state.document

end LocalizedQuery.Toml
