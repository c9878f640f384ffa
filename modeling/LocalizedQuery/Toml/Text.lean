import LocalizedQuery.Text.CharSet

/-!
# Texts and keys of TOML

A text is quoted by `"`, with escapes, or by `'`, without; three quotes instead of one let it run
over several lines. A key is a text on one line or a word of Latin letters, digits, `_` and `-`.

All readers take what follows the opening quotes and give the text and what follows its end.
-/

namespace LocalizedQuery.Toml

/-- A text and what follows it. -/
abbrev Rest := List Char × List Char

/-- Whether a character may not stand in a text or a comment. -/
def isControl (c : Char) : Bool := (c.toNat < 0x20 && c != '\t') || c.toNat == 0x7F

/-- The character with a code point that is written in exactly `width` digits, and what follows. -/
def codePoint? (width : Nat) (text : List Char) : Option (Char × List Char) :=
  let digits := text.take width
  let code := hexValue digits
  if digits.length = width ∧ digits.all (fun c => (hexDigit? c).isSome) ∧ code.isValidChar then
    some (Char.ofNat code, text.drop width)
  else none

/-- What an escape stands for, behind its backslash. -/
def escape? : List Char → Option (Char × List Char)
  | 'b' :: rest => some ('\x08', rest)
  | 't' :: rest => some ('\t', rest)
  | 'n' :: rest => some ('\n', rest)
  | 'f' :: rest => some ('\x0c', rest)
  | 'r' :: rest => some ('\r', rest)
  | 'e' :: rest => some ('\x1b', rest)
  | '"' :: rest => some ('"', rest)
  | '\\' :: rest => some ('\\', rest)
  | 'x' :: rest => codePoint? 2 rest
  | 'u' :: rest => codePoint? 4 rest
  | 'U' :: rest => codePoint? 8 rest
  | _ => none

/-- A text on one line, of at most `fuel` characters and escapes. -/
def lineText? : (fuel : Nat) → List Char → Option Rest
  | 0, _ | _, [] => none
  | fuel + 1, c :: rest =>
    if c = '"' then some ([], rest)
    else if c = '\\' then do
      let (value, rest) ← escape? rest
      let (text, rest) ← lineText? fuel rest
      return (value :: text, rest)
    else if isControl c then none
    else do
      let (text, rest) ← lineText? fuel rest
      return (c :: text, rest)

/-- A text on one line without escapes. -/
def literalText? : List Char → Option Rest
  | [] => none
  | c :: rest =>
    if c = '\'' then some ([], rest)
    else if isControl c then none
    else do
      let (text, rest) ← literalText? rest
      return (c :: text, rest)

/-- What follows a line end. -/
def afterLineEnd? : List Char → Option (List Char)
  | '\n' :: rest => some rest
  | '\r' :: '\n' :: rest => some rest
  | _ => none

/-- What follows a backslash that hides the end of its line: blanks and line ends are skipped. -/
def hiddenLineEnd? (text : List Char) : Option (List Char) :=
  (afterLineEnd? (text.dropWhile fun c => c == ' ' || c == '\t')).map fun rest =>
    rest.dropWhile fun c => c == ' ' || c == '\t' || c == '\n' || c == '\r'

/-- The end of a text in three quotes each: of up to five quotes, those before the last three belong
to the text. -/
def closing? (quote : Char) (text : List Char) : Option Rest :=
  let quotes := (text.take 5).takeWhile (· = quote)
  if quotes.length < 3 then none else some (quotes.drop 3, text.drop quotes.length)

/-- A text on several lines, of at most `fuel` characters and escapes. -/
def linesText? (quote : Char) : (fuel : Nat) → List Char → Option Rest
  | 0, _ | _, [] => none
  | fuel + 1, c :: rest =>
    match closing? quote (c :: rest) with
    | some closing => some closing
    | none =>
      if c = '\\' ∧ quote = '"' then
        match hiddenLineEnd? rest with
        | some rest => linesText? quote fuel rest
        | none => do
          let (value, rest) ← escape? rest
          let (text, rest) ← linesText? quote fuel rest
          return (value :: text, rest)
      else if isControl c ∧ (afterLineEnd? (c :: rest)).isNone then none
      else do
        let (text, rest) ← linesText? quote fuel rest
        return (c :: text, rest)

/-- Whether a character may stand in a key without quotes. -/
def isKeyChar (c : Char) : Bool := c.isAlphanum || c == '_' || c == '-'

/-- A key without dots, from its start on. -/
def simpleKey? (text : List Char) : Option Rest :=
  match text with
  | '"' :: rest => lineText? (rest.length + 1) rest
  | '\'' :: rest => literalText? rest
  | _ =>
    let key := text.takeWhile isKeyChar
    if key.isEmpty then none else some (key, text.dropWhile isKeyChar)

/-- A text in quotes, from its start on. A line end right behind three quotes is dropped. -/
def quotedText? (text : List Char) : Option Rest :=
  let several (quote : Char) (rest : List Char) : Option Rest :=
    linesText? quote (rest.length + 1) ((afterLineEnd? rest).getD rest)
  match text with
  | '"' :: '"' :: '"' :: rest => several '"' rest
  | '\'' :: '\'' :: '\'' :: rest => several '\'' rest
  | '"' :: rest => lineText? (rest.length + 1) rest
  | '\'' :: rest => literalText? rest
  | _ => none

end LocalizedQuery.Toml
