import LocalizedQuery.Text.Case
import LocalizedQuery.Text.CharSet
import LocalizedQuery.Text.Quoted

/-!
# Lexemes of a predicate

The words, literals and symbols that the text of a predicate consists of, each with its canonical
spelling. `LocalizedQuery.Predicate.Lexer` finds them in a text.
-/

namespace LocalizedQuery

/-- A name, with the character that quotes it if it is quoted. -/
structure Name where
  text : String
  quote? : Option Char := none
deriving DecidableEq, Repr, Inhabited

namespace Name

/-- The canonical spelling of a name. -/
def written (name : Name) : String :=
  match name.quote? with
  | none => name.text
  | some quote => String.ofList (quote :: (Quoted.redouble quote false name.text.toList ++ [quote]))

/-- The word that a name is, if it is not quoted, in upper case: reserved words are compared so. -/
def upper? (name : Name) : Option String :=
  match name.quote? with
  | none => some (toUpperCase name.text)
  | some _ => none

/-- A name between its quotes, with nothing doubled. -/
def verbatim (name : Name) : String :=
  match name.quote? with
  | none => name.text
  | some quote => String.ofList (quote :: (name.text.toList ++ [quote]))

/-- The canonical spelling of a qualified name. -/
def writtenPath (path : List Name) : String := ".".intercalate (path.map written)

end Name

/-- The ways to write a text literal other than plain quotes. -/
inductive Mark where
  /-- `N'…'` -/
  | national
  /-- `E'…'`, with escapes -/
  | escaped
  /-- `U&'…'`, with code points -/
  | unicode
  /-- `X'…'`, also written `0x…` -/
  | hexadecimal
  /-- `B'…'`, with the given quotes -/
  | bytes (quotes : String)
  /-- `R'…'`, with the given quotes -/
  | raw (quotes : String)
  /-- `$tag$…$tag$` -/
  | dollar (tag : String)
deriving DecidableEq, Repr, Inhabited

namespace Mark

/-- A character of an escaped text. -/
def escapedChar : Char → List Char
  | '\'' => ['\\', '\'']
  | '\\' => ['\\', '\\']
  | '\n' => ['\\', 'n']
  | '\t' => ['\\', 't']
  | '\r' => ['\\', 'r']
  | c => [c]

/-- A number in hexadecimal with at least `width` digits, in capitals. -/
def hexText (width n : Nat) : List Char :=
  let digits := (Nat.toDigits 16 n).map Char.toUpper
  List.replicate (width - digits.length) '0' ++ digits

/-- A character of a text with code points. -/
def unicodeChar (c : Char) : List Char :=
  if c = '\'' then ['\'', '\'']
  else if c = '\\' then ['\\', '\\']
  else if c.toNat < 0x80 then [c]
  else if c.toNat ≤ 0xFFFF then '\\' :: hexText 4 c.toNat
  else '\\' :: '+' :: hexText 6 c.toNat

/-- A text between the marks of its literal. -/
def enclose (mark : Mark) (text : String) : String :=
  match mark with
  | .national => s!"N'{text}'"
  | .escaped => s!"E'{text}'"
  | .unicode => s!"U&'{text}'"
  | .hexadecimal => s!"X'{text}'"
  | .bytes quotes => "B" ++ quotes ++ text ++ quotes
  | .raw quotes => "R" ++ quotes ++ text ++ quotes
  | .dollar tag => s!"${tag}${text}${tag}$"

/-- The canonical spelling of a marked literal. -/
def write (mark : Mark) (value : String) : String :=
  mark.enclose <| match mark with
    | .escaped => String.ofList (value.toList.flatMap escapedChar)
    | .unicode => String.ofList (value.toList.flatMap unicodeChar)
    | _ => value

end Mark

/-- A lexeme of a predicate. -/
inductive Lexeme where
  /-- A name or a reserved word. -/
  | word (name : Name)
  /-- A number as it is spelled; `long` tells whether it ends in `L`. -/
  | number (digits : String) (long : Bool)
  /-- A text in plain quotes. -/
  | quoted (value : String)
  | marked (mark : Mark) (value : String)
  /-- A place for a value that is supplied later, such as `?` or `$1`. -/
  | placeholder (spelling : String)
  /-- An operator, a bracket, or a character without meaning. -/
  | symbol (spelling : String)
deriving DecidableEq, Repr, Inhabited

namespace Lexeme

/-- The canonical spelling of a text in plain quotes. -/
def quoteText (value : String) : String := (Name.mk value (some '\'')).written

/-- The canonical spelling of a number. -/
def writeNumber (digits : String) (long : Bool) : String := if long then digits ++ "L" else digits

/-- A lexeme with its value as it is, nothing doubled and nothing escaped. -/
def verbatim : Lexeme → String
  | .word name => name.verbatim
  | .number digits long => writeNumber digits long
  | .quoted value => s!"'{value}'"
  | .marked mark value => mark.enclose value
  | .placeholder spelling | .symbol spelling => spelling

/-- The reserved word that a lexeme may be, in upper case. -/
def upper? : Lexeme → Option String
  | .word name => name.upper?
  | _ => none

/-- Whether a lexeme is the given word. -/
def isWord (word : String) (lexeme : Lexeme) : Bool := lexeme.upper? == some word

end Lexeme

end LocalizedQuery
