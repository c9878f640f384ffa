/-!
# Quoted text

A quoted text stands between an opening and a closing character; inside, the closing character is
written twice. `Quoted.enclose` writes such a text and `Quoted.read` reads what follows the opening
character.

Some texts allow escapes as well: `Quoted.readEscaped` reads them.
-/

namespace LocalizedQuery.Quoted

/-- Writes every occurrence of `close` twice. -/
def double (close : Char) : List Char → List Char
  | [] => []
  | c :: rest => if c = close then c :: c :: double close rest else c :: double close rest

/-- The text between `opening` and `close`, with `close` doubled inside. -/
def enclose (opening close : Char) (text : List Char) : List Char :=
  opening :: (double close text ++ [close])

/-- A text and what follows it. -/
abbrev Rest := List Char × List Char

/-- Puts a character before the text. -/
def Rest.cons (c : Char) (rest : Rest) : Rest := (c :: rest.1, rest.2)

/-- The text up to the first `close` that stands alone, and what follows that. -/
def read (close : Char) : List Char → Option Rest
  | [] => none
  | [c] => if c = close then some ([], []) else none
  | c :: d :: rest =>
    if c = close then
      if d = close then (read close rest).map (Rest.cons close) else some ([], d :: rest)
    else (read close (d :: rest)).map (Rest.cons c)

/-- As `read`, where a backslash and the character after it stand for the character that `escape`
gives. -/
def readEscaped (escape : Char → Char) (close : Char) : List Char → Option Rest
  | [] => none
  | [c] => if c = close then some ([], []) else none
  | c :: d :: rest =>
    if c = close then
      if d = close then (readEscaped escape close rest).map (Rest.cons close)
      else some ([], d :: rest)
    else if c = '\\' then (readEscaped escape close rest).map (Rest.cons (escape d))
    else (readEscaped escape close (d :: rest)).map (Rest.cons c)

/-- The text up to the first three `close` in a row, and what follows them. -/
def readTriple (close : Char) : List Char → Option Rest
  | a :: b :: c :: rest =>
    if a = close ∧ b = close ∧ c = close then some ([], rest)
    else (readTriple close (b :: c :: rest)).map (Rest.cons a)
  | _ => none

/-- Doubles each `close` that is neither doubled already nor after a backslash. A `close` after a
backslash leaves the ones that follow it after the backslash, too. -/
def redouble (close : Char) (afterBackslash : Bool) : List Char → List Char
  | [] => []
  | [c] => if c = close ∧ !afterBackslash then [c, c] else [c]
  | c :: d :: rest =>
    if c = close then
      if afterBackslash then c :: redouble close true (d :: rest)
      else if d = close then c :: d :: redouble close false rest
      else c :: c :: redouble close false (d :: rest)
    else c :: redouble close (c = '\\') (d :: rest)

end LocalizedQuery.Quoted
