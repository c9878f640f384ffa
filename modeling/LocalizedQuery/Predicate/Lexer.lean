import LocalizedQuery.Predicate.Lexeme
import LocalizedQuery.Text.Letter

/-!
# Splitting a predicate into lexemes

`Lexeme.ofText` splits a text from left to right. Blanks and comments separate lexemes and are
dropped; comments run from `--` to the end of the line, or from `/*` to the matching `*/`. A name
starts with a letter, `_`, `#` or `@`, unless it is quoted. A few letters mark a text literal if its
quote follows at once. Symbols are as long as they can be.

The only errors are a quote or comment without an end and an escape that denotes no character.
-/

namespace LocalizedQuery

/-- Why a predicate cannot be read. -/
inductive SyntaxError where
  /-- A quoted text or a comment has no end. -/
  | unclosed
  /-- An escape denotes no character. -/
  | invalidEscape
  /-- A lexeme stands where the grammar has no place for it, or one is missing. -/
  | unexpected
  /-- Expressions are nested too deeply. -/
  | tooDeep
deriving DecidableEq, Repr

/-- The wording of an error. -/
def SyntaxError.message : SyntaxError → String
  | .unclosed => "a quoted text or a comment is not closed"
  | .invalidEscape => "an escape denotes no character"
  | .unexpected => "a word or symbol is unexpected or missing"
  | .tooDeep => "expressions are nested too deeply"

namespace Lexeme

/-! ## Names and numbers -/

/-- The characters that a name starts with. -/
def isNameStart (c : Char) : Bool := isLetter c || c == '_' || c == '#' || c == '@'

/-- The characters that a name continues with. -/
def isNamePart (c : Char) : Bool := isNameStart c || c.isDigit || c == '$'

/-- What a step reads: a lexeme and what follows it. -/
abbrev Step := Lexeme × List Char

/-- The name that starts with the characters `start`. -/
def nameFrom (start cs : List Char) : Step :=
  (.word { text := String.ofList (start ++ cs.takeWhile isNamePart) }, cs.dropWhile isNamePart)

/-- The exponent that a text starts with, if it has digits. -/
def exponentOf (cs : List Char) : List Char :=
  match cs with
  | e :: rest =>
    if e = 'e' ∨ e = 'E' then
      let sign := match rest with
        | c :: _ => if c = '+' ∨ c = '-' then [c] else []
        | [] => []
      let digits := (rest.drop sign.length).takeWhile Char.isDigit
      if digits.isEmpty then [] else e :: (sign ++ digits)
    else []
  | [] => []

/-- The number that a text starts with, or the period if it starts with that and no digit
follows. -/
def numberFrom (cs : List Char) : Step :=
  let whole := cs.takeWhile Char.isDigit
  let rest := cs.dropWhile Char.isDigit
  if whole = ['0'] ∧ rest.head? = some 'x' then
    let rest := rest.drop 1
    let isHex (c : Char) : Bool := (hexDigit? c).isSome
    (.marked .hexadecimal (String.ofList (rest.takeWhile isHex)), rest.dropWhile isHex)
  else
    let point := rest.take 1 |>.filter (· = '.')
    let rest := rest.drop point.length
    let fraction := if point.isEmpty then [] else rest.takeWhile Char.isDigit
    let rest := rest.drop fraction.length
    let digits := whole ++ point ++ fraction
    if digits = ['.'] then (.symbol ".", rest)
    else
      let exponent := exponentOf rest
      let rest := rest.drop exponent.length
      let long := rest.head? = some 'L'
      (.number (String.ofList (digits ++ exponent)) long, if long then rest.drop 1 else rest)

/-! ## Text literals -/

/-- The character that a backslash and `c` stand for in national and hexadecimal texts. -/
def plainEscape : Char → Char
  | '0' => '\x00'
  | 'a' => '\x07'
  | 'b' => '\x08'
  | 'f' => '\x0c'
  | 'n' => '\n'
  | 'r' => '\r'
  | 't' => '\t'
  | 'Z' => '\x1a'
  | c => c

/-- The character with the given code point. -/
def charOfCode? (code : Nat) : Option Char :=
  if code.isValidChar then some (Char.ofNat code) else none

/-- The number of a code point that is written as exactly `cs`, which may start with a plus sign. -/
def codeOf? (cs : List Char) : Option Nat :=
  let digits := match cs with
    | '+' :: rest => rest
    | _ => cs
  if digits.isEmpty then none
  else digits.foldlM (fun code c => (hexDigit? c).map (16 * code + ·)) 0

/-- What an escape of an escaped text gives: the character and what follows it. -/
def longEscape (c : Char) (rest : List Char) : Option (Char × List Char) :=
  let ofCode (width : Nat) : Option (Char × List Char) :=
    if rest.length < width then none
    else do
      let code ← codeOf? (rest.take width)
      return (← charOfCode? code, rest.drop width)
  let ofByte (base : Nat) (digits rest : List Char) : Option (Char × List Char) :=
    let byte := (digits.foldl (fun n d => base * n + (hexDigit? d).getD 0) 0) % 256
    if byte < 128 then some (Char.ofNat byte, rest) else none
  let isOctal (c : Char) : Bool := '0' ≤ c && c ≤ '7'
  match c with
  | 'b' => some ('\x08', rest)
  | 'f' => some ('\x0c', rest)
  | 'n' => some ('\n', rest)
  | 'r' => some ('\r', rest)
  | 't' => some ('\t', rest)
  | 'u' => ofCode 4
  | 'U' => ofCode 8
  | 'x' =>
    let digits := (rest.take 2).takeWhile fun d => (hexDigit? d).isSome
    if digits.isEmpty then some ('x', rest) else ofByte 16 digits (rest.drop digits.length)
  | c =>
    if isOctal c then
      let digits := (rest.take 2).takeWhile isOctal
      ofByte 8 (c :: digits) (rest.drop digits.length)
    else some (c, rest)

/-- The text up to the quote that ends an escaped text, and what follows. At most `fuel` characters
and escapes are read. -/
def readLongEscaped : (fuel : Nat) → List Char → Except SyntaxError Quoted.Rest
  | 0, _ | _, [] => .error .unclosed
  | fuel + 1, '\'' :: rest =>
    match rest with
    | '\'' :: rest => (readLongEscaped fuel rest).map (Quoted.Rest.cons '\'')
    | _ => .ok ([], rest)
  | fuel + 1, '\\' :: rest =>
    match rest with
    | [] => .error .unclosed
    | c :: rest =>
      match longEscape c rest with
      | none => .error .invalidEscape
      | some (value, rest) =>
        if value = '\x00' then .error .invalidEscape
        else (readLongEscaped fuel rest).map (Quoted.Rest.cons value)
  | fuel + 1, c :: rest => (readLongEscaped fuel rest).map (Quoted.Rest.cons c)

/-- The character whose code point is written in exactly `width` digits, and what follows. -/
def readCode (width : Nat) (cs : List Char) : Except SyntaxError (Char × List Char) :=
  let digits := cs.take width
  if digits.length < width ∨ digits.any (fun d => (hexDigit? d).isNone) then .error .invalidEscape
  else match charOfCode? (hexValue digits) with
    | some c => .ok (c, cs.drop width)
    | none => .error .invalidEscape

/-- The text up to the quote that ends a text with code points, and what follows. At most `fuel`
characters and code points are read. -/
def readUnicode : (fuel : Nat) → List Char → Except SyntaxError Quoted.Rest
  | 0, _ | _, [] => .error .unclosed
  | fuel + 1, '\'' :: rest =>
    match rest with
    | '\'' :: rest => (readUnicode fuel rest).map (Quoted.Rest.cons '\'')
    | _ => .ok ([], rest)
  | fuel + 1, '\\' :: rest =>
    match rest with
    | '\\' :: rest => (readUnicode fuel rest).map (Quoted.Rest.cons '\\')
    | _ => do
      let (c, rest) ← match rest with
        | '+' :: rest => readCode 6 rest
        | _ => readCode 4 rest
      return (← readUnicode fuel rest).cons c
  | fuel + 1, c :: rest => (readUnicode fuel rest).map (Quoted.Rest.cons c)

/-- A literal from its text and what follows. -/
def closed (mark : Mark) (text : Option Quoted.Rest) : Except SyntaxError Step :=
  match text with
  | some (value, rest) => .ok (.marked mark (String.ofList value), rest)
  | none => .error .unclosed

/-- A literal of bytes, after its first quote. -/
def bytesFrom (quote : Char) (cs : List Char) : Except SyntaxError Step :=
  closed (.bytes (String.singleton quote)) (Quoted.read quote cs)

/-- A raw literal, after its first quote. Two quotes are the empty text; three of them start a text
that three quotes end. -/
def rawFrom (quote : Char) (cs : List Char) : Except SyntaxError Step :=
  let mark (n : Nat) : Mark := .raw (String.ofList (List.replicate n quote))
  match cs with
  | a :: b :: rest =>
    if a = quote ∧ b = quote then closed (mark 3) (Quoted.readTriple quote rest)
    else if a = quote then .ok (.marked (mark 1) "", b :: rest)
    else closed (mark 1) (Quoted.read quote cs)
  | [a] => if a = quote then .ok (.marked (mark 1) "", []) else .error .unclosed
  | [] => .error .unclosed

/-- Takes the characters of a tag away, up to the first that differs, which is taken away too. Says
whether all were there. -/
def takeTag : List Char → List Char → Bool × List Char × List Char
  | [], cs => (true, [], cs)
  | _ :: _, [] => (false, [], [])
  | t :: tag, c :: cs =>
    if t = c then
      let (whole, taken, rest) := takeTag tag cs
      (whole, c :: taken, rest)
    else (false, [c], cs)

/-- The text up to `$tag$`, and what follows that. At most `fuel` dollar signs are tried. -/
def readTagged (tag : List Char) : (fuel : Nat) → List Char → Option Quoted.Rest
  | 0, _ => none
  | fuel + 1, cs =>
    let before := cs.takeWhile (· ≠ '$')
    match cs.dropWhile (· ≠ '$') with
    | [] => none
    | _ :: rest =>
      let (whole, taken, rest) := takeTag tag rest
      if whole ∧ rest.head? = some '$' then some (before, rest.drop 1)
      else (readTagged tag fuel rest).map fun (text, rest) =>
        (before ++ '$' :: (taken ++ text), rest)

/-- What a dollar sign starts: a text between tags, or a placeholder. -/
def dollarFrom (cs : List Char) : Except SyntaxError Step :=
  let isTagPart (c : Char) : Bool := isLetterOrNumber c || c == '_'
  let tag := cs.takeWhile isTagPart
  match cs.dropWhile isTagPart with
  | '$' :: rest => closed (.dollar (String.ofList tag)) (readTagged tag (rest.length + 1) rest)
  | rest => .ok (.placeholder (String.ofList ('$' :: tag)), rest)

/-- What a letter that can mark a text literal starts, if a quote follows. -/
def markedFrom? (c : Char) (rest : List Char) : Option (Except SyntaxError Step) :=
  match c, rest with
  | 'b', '\'' :: rest | 'B', '\'' :: rest => some (bytesFrom '\'' rest)
  | 'b', '"' :: rest | 'B', '"' :: rest => some (bytesFrom '"' rest)
  | 'r', '\'' :: rest | 'R', '\'' :: rest => some (rawFrom '\'' rest)
  | 'r', '"' :: rest | 'R', '"' :: rest => some (rawFrom '"' rest)
  | 'n', '\'' :: rest | 'N', '\'' :: rest =>
    some (closed .national (Quoted.readEscaped plainEscape '\'' rest))
  | 'x', '\'' :: rest | 'X', '\'' :: rest =>
    some (closed .hexadecimal (Quoted.readEscaped plainEscape '\'' rest))
  | 'e', '\'' :: rest | 'E', '\'' :: rest =>
    some (readLongEscaped (rest.length + 1) rest >>= fun text => closed .escaped (some text))
  | 'u', '&' :: '\'' :: rest | 'U', '&' :: '\'' :: rest =>
    some (readUnicode (rest.length + 1) rest >>= fun text => closed .unicode (some text))
  | _, _ => none

/-! ## Symbols -/

/-- The symbols, with a longer one before each of its beginnings. -/
def symbols : List String :=
  ["->>", "->", "-", "//", "/", "+", "*", "%", "||/", "||", "|/", "|", "=>", "==", "=",
   "!~~*", "!~~", "!~*", "!~", "!=", "!!", "!", "<=>", "<=", "<>", "<<", "<@", "<", ">=", ">>", ">",
   "::", ":=", ":", "~~*", "~~", "~*", "~", "&&", "&", "^@", "^",
   "(", ")", ",", ";", "\\", "[", "]", "\x7b", "\x7d"]

/-- The symbol that a text starts with. Of the two for "is not", `<>` stands for both. -/
def symbolFrom? (cs : List Char) : Option Step :=
  (symbols.find? fun s => s.toList.isPrefixOf cs).map fun s =>
    (.symbol (if s = "!=" then "<>" else s), cs.drop s.length)

/-- What a number sign starts: an operator or a name. -/
def numberSignFrom (rest : List Char) : Step :=
  match rest with
  | '-' :: rest => (.symbol "#-", rest)
  | '>' :: '>' :: rest => (.symbol "#>>", rest)
  | '>' :: rest => (.symbol "#>", rest)
  | ' ' :: _ | [] => (.symbol "#", rest)
  | c :: rest => nameFrom ['#', c] rest

/-- What an at sign starts: an operator or a name. -/
def atSignFrom (rest : List Char) : Step :=
  match rest with
  | '>' :: rest => (.symbol "@>", rest)
  | '?' :: rest => (.symbol "@?", rest)
  | '@' :: rest =>
    match rest with
    | ' ' :: _ | [] => (.symbol "@@", rest)
    | c :: rest => nameFrom ['@', '@', c] rest
  | ' ' :: _ | [] => (.symbol "@", rest)
  | c :: rest => nameFrom ['@', c] rest

/-! ## Whole texts -/

/-- What follows a comment of which `depth + 1` levels are open, where `last` is the character just
read. The marks of two levels may share a character: `*/*` closes a level and opens another. -/
def afterComment : (depth : Nat) → (last : Char) → List Char → Option (List Char)
  | _, _, [] => none
  | depth, last, c :: rest =>
    if last = '/' ∧ c = '*' then afterComment (depth + 1) c rest
    else if last = '*' ∧ c = '/' then
      match depth with
      | 0 => some rest
      | depth + 1 => afterComment depth c rest
    else afterComment depth c rest

/-- The lexeme that the text `c :: rest` starts with, which is no blank and no comment. -/
def firstOf (c : Char) (rest : List Char) : Except SyntaxError Step :=
  match markedFrom? c rest with
  | some step => step
  | none =>
    if c = '\'' then
      match Quoted.read '\'' rest with
      | some (value, rest) => .ok (.quoted (String.ofList value), rest)
      | none => .error .unclosed
    else if c = '"' ∨ c = '\u0060' then
      match Quoted.read c rest with
      | some (value, rest) => .ok (.word { text := String.ofList value, quote? := some c }, rest)
      | none => .error .unclosed
    else if c.isDigit ∨ c = '.' then .ok (numberFrom (c :: rest))
    else if c = '#' then .ok (numberSignFrom rest)
    else if c = '@' then .ok (atSignFrom rest)
    else if c = '?' then
      .ok (.placeholder (String.ofList ('?' :: rest.takeWhile isNumber)), rest.dropWhile isNumber)
    else if c = '$' then dollarFrom rest
    else if isNameStart c then .ok (nameFrom [c] rest)
    else .ok ((symbolFrom? (c :: rest)).getD (.symbol (String.singleton c), rest))

/-- The lexemes of a text of at most `fuel` characters. -/
def scan : (fuel : Nat) → List Char → Except SyntaxError (List Lexeme)
  | _, [] => .ok []
  | 0, _ :: _ => .error .unexpected
  | fuel + 1, c :: rest =>
    match c, rest with
    | '-', '-' :: rest => scan fuel (rest.dropWhile (· ≠ '\n'))
    | '/', '*' :: rest =>
      match afterComment 0 ' ' rest with
      | some rest => scan fuel rest
      | none => .error .unclosed
    | c, rest =>
      if isBlank c then scan fuel rest
      else do
        let (lexeme, rest) ← firstOf c rest
        return lexeme :: (← scan fuel rest)

/-- The lexemes of a text. -/
def ofText (text : String) : Except SyntaxError (List Lexeme) :=
  scan text.length text.toList

end Lexeme

end LocalizedQuery
