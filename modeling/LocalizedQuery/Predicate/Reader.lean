import LocalizedQuery.Predicate.Lexer
import LocalizedQuery.Predicate.ReservedWord
import LocalizedQuery.Predicate.Tree

/-!
# Reading lexemes

A `Reader` takes lexemes from the front of a list. The grammar is written with the few readers of
this module: words, symbols and names, with a question mark where their absence is no error,
repetition, and `attempt`, which puts the lexemes back if a reader fails.

Repetition ends at the latest when there are as many results as there were lexemes.
-/

namespace LocalizedQuery

/-- Takes lexemes from the front of a list. -/
abbrev Reader (α : Type) := StateT (List Lexeme) (Except SyntaxError) α

namespace Reader

variable {α : Type}

/-- Refuses what comes next. -/
def unexpected : Reader α := throw .unexpected

/-- The next lexeme, which stays. -/
def peek? : Reader (Option Lexeme) := do return (← get).head?

/-- The lexeme after the next `n`, which stays. -/
def peekAfter? (n : Nat) : Reader (Option Lexeme) := do return (← get)[n]?

/-- Takes the next lexeme. -/
def next : Reader Lexeme := do
  match ← get with
  | lexeme :: rest =>
    set rest
    return lexeme
  | [] => unexpected

/-- Runs a reader; if it fails, its lexemes are put back and there is no result. Depth is not
forgiven. -/
def attempt (p : Reader α) : Reader (Option α) := fun s =>
  match p.run s with
  | .ok (a, rest) => .ok (some a, rest)
  | .error .tooDeep => .error .tooDeep
  | .error _ => .ok (none, s)

/-- Runs a reader; if it fails, its lexemes are put back and the error is the result. -/
def outcome (p : Reader α) : Reader (Except SyntaxError α) := fun s =>
  match p.run s with
  | .ok (a, rest) => .ok (.ok a, rest)
  | .error e => .ok (.error e, s)

/-- Whether the next lexeme satisfies `test`; then it is taken. -/
def takeIf (test : Lexeme → Bool) : Reader Bool := do
  match ← get with
  | lexeme :: rest =>
    if test lexeme then
      set rest
      return true
    else return false
  | [] => return false

/-- Takes a symbol if it comes next. -/
def symbol? (spelling : String) : Reader Bool := takeIf (· == .symbol spelling)

/-- Takes a symbol. -/
def symbol (spelling : String) : Reader Unit := do
  unless ← symbol? spelling do unexpected

/-- Whether a symbol comes next. -/
def atSymbol (spelling : String) : Reader Bool := do return (← peek?) == some (.symbol spelling)

/-- Takes a word if it comes next. -/
def word? (word : String) : Reader Bool := takeIf (Lexeme.isWord word)

/-- Takes a word. -/
def word (w : String) : Reader Unit := do
  unless ← word? w do unexpected

/-- Takes words if all of them come next. -/
def words? (words : List String) : Reader Bool := do
  let rest ← get
  if words.length ≤ rest.length ∧ (words.zip rest).all (fun (w, lexeme) => lexeme.isWord w) then
    set (rest.drop words.length)
    return true
  else return false

/-- Takes words. -/
def words (ws : List String) : Reader Unit := do
  unless ← words? ws do unexpected

/-- Takes the word that comes next if it is one of the list. -/
def oneOf? (words : List String) : Reader (Option String) := do
  match ← get with
  | lexeme :: rest =>
    match lexeme.upper? with
    | some w =>
      if words.contains w then
        set rest
        return some w
      else return none
    | none => return none
  | [] => return none

/-- Whether one of the words comes next. -/
def atWord (words : List String) : Reader Bool := do
  return ((← peek?).bind Lexeme.upper?).any words.contains

/-- Reads as long as there are results, at most `fuel` times. -/
def repeatAtMost (p : Reader (Option α)) : (fuel : Nat) → Reader (List α)
  | 0 => return []
  | fuel + 1 => do
    match ← p with
    | some a => return a :: (← repeatAtMost p fuel)
    | none => return []

/-- Reads as long as there are results. -/
def repeated (p : Reader (Option α)) : Reader (List α) := do
  repeatAtMost p (← get).length

/-- At least one, separated by commas. -/
def commaSeparated (p : Reader α) : Reader (List α) := do
  let first ← p
  let more ← repeated do
    if ← symbol? "," then some <$> p else pure none
  return first :: more

/-- Any number, separated by commas, up to a closing symbol that is taken. -/
def commaSeparatedTo (closing : String) (p : Reader α) : Reader (List α) := do
  if ← symbol? closing then return []
  let all ← commaSeparated p
  symbol closing
  return all

/-- Reads in parentheses. -/
def parenthesized (p : Reader α) : Reader α := do
  symbol "("
  let a ← p
  symbol ")"
  return a

/-! ## Names -/

/-- A name, or a text that serves as one. -/
def name : Reader Name := do
  match ← next with
  | .word n => return n
  | .quoted value => return { text := value, quote? := some '\'' }
  | _ => unexpected

/-- A name with its qualifiers. -/
def path : Reader (List Name) := do
  let first ← name
  let more ← repeated do
    if ← symbol? "." then some <$> name else pure none
  return first :: more

/-- The canonical spelling of a name with its qualifiers. -/
def pathText : Reader String := do return Name.writtenPath (← path)

/-- The value of a text literal; a word that is not reserved can stand for its own text. -/
def textValue : Reader String := do
  match ← next with
  | .word n => if n.isReserved then unexpected else return n.text
  | .quoted value | .marked .escaped value | .marked .unicode value => return value
  | _ => unexpected

/-- An alias: a name behind `AS`, or a name or text without it; `reserved` are the words that need
`AS`. -/
def aliasName? (reserved : List String) : Reader (Option Name) := do
  if ← word? "AS" then return some (← name)
  match ← peek? with
  | some (.word n) => if n.upper?.any reserved.contains then return none else some <$> name
  | some (.quoted _) => some <$> name
  | _ => return none

/-- The canonical spelling of names in parentheses. -/
def nameList : Reader String := do
  symbol "("
  let names ← commaSeparated name
  symbol ")"
  return "(" ++ ", ".intercalate (names.map Name.written) ++ ")"

/-! ## Numbers -/

/-- A natural number below `bound` in decimal digits. -/
def natural (bound : Nat) : Reader Nat := do
  match ← next with
  | .number spelling _ =>
    match if spelling.all Char.isDigit then spelling.toNat? else none with
    | some n => if n < bound then return n else unexpected
    | none => unexpected
  | _ => unexpected

/-- A natural number of 64 bits, without leading zeros. -/
def digits : Reader String := do return toString (← natural (Nat.pow 2 64))

end Reader

end LocalizedQuery
