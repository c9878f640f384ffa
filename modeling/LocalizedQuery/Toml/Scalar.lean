import LocalizedQuery.Decimal.Double
import LocalizedQuery.Text.CharSet

/-!
# Plain scalars of TOML

Truth values, numbers and dates are written without quotes. `Toml.isScalar` tells whether a spelling
is one of them. Digits may be grouped by single underscores; an integer has at most 128 bits, and a
fraction is not too large for a double.
-/

namespace LocalizedQuery.Toml

/-- Takes the underscores out of a run of digits; each has to stand between two digits. -/
def ungrouped? (isDigit : Char → Bool) : List Char → Option (List Char)
  | [] => none
  | [c] => if isDigit c then some [c] else none
  | c :: '_' :: rest => if isDigit c then (ungrouped? isDigit rest).map (c :: ·) else none
  | c :: rest => if isDigit c then (ungrouped? isDigit rest).map (c :: ·) else none

/-- A text without the sign that it may start with, and whether that is a minus. -/
def unsigned (text : List Char) : Bool × List Char :=
  match text with
  | '-' :: rest => (true, rest)
  | '+' :: rest => (false, rest)
  | _ => (false, text)

/-- Decimal digits without needless zeros in front. -/
def wholeDigits? (text : List Char) : Option (List Char) :=
  (ungrouped? Char.isDigit text).filter fun digits => digits.length = 1 || digits.head? != some '0'

/-- The value of digits in a base. -/
def valueIn (base : Nat) (digits : List Char) : Nat :=
  digits.foldl (fun value c => base * value + (hexDigit? c).getD 0) 0

/-- Whether a text is an integer. -/
def isInteger (text : List Char) : Bool :=
  let based (base : Nat) (isDigit : Char → Bool) (digits : List Char) : Bool :=
    (ungrouped? isDigit digits).any fun digits => valueIn base digits < Nat.pow 2 128
  match text with
  | '0' :: 'x' :: digits => based 16 (fun c => (hexDigit? c).isSome) digits
  | '0' :: 'o' :: digits => based 8 (fun c => '0' ≤ c && c ≤ '7') digits
  | '0' :: 'b' :: digits => based 2 (fun c => c == '0' || c == '1') digits
  | _ =>
    let (negative, digits) := unsigned text
    (wholeDigits? digits).any fun digits =>
      valueIn 10 digits ≤ (if negative then Nat.pow 2 127 else Nat.pow 2 128 - 1)

/-- Whether a text is a fraction, an infinity or the value that is no number. -/
def isFraction (text : List Char) : Bool :=
  let (_, magnitude) := unsigned text
  let isExponentMark (c : Char) : Bool := c == 'e' || c == 'E'
  let mantissa := magnitude.takeWhile (fun c => !isExponentMark c)
  let exponent := magnitude.dropWhile (fun c => !isExponentMark c)
  let whole := mantissa.takeWhile (· ≠ '.')
  let fraction := mantissa.dropWhile (· ≠ '.')
  let partOf (text : List Char) : Bool :=
    text.isEmpty || (ungrouped? Char.isDigit text.tail).isSome
  let exponentDigits := (unsigned exponent.tail).2
  if String.ofList magnitude = "inf" ∨ String.ofList magnitude = "nan" then true
  else
    (wholeDigits? whole).isSome && partOf fraction &&
    (exponent.isEmpty || (ungrouped? Char.isDigit exponentDigits).isSome) &&
    !(fraction.isEmpty && exponent.isEmpty) &&
    (Double.ofText? (String.ofList (text.filter (· ≠ '_')))).any Double.isFinite

/-- Exactly `width` digits, as a number, and what follows. -/
def fixedDigits? (width : Nat) (text : List Char) : Option (Nat × List Char) :=
  let digits := text.take width
  if digits.length = width ∧ digits.all Char.isDigit then
    some (Double.digitsValue digits, text.drop width)
  else none

/-- What follows a character that has to come next. -/
def after? (c : Char) (text : List Char) : Option (List Char) :=
  match text with
  | d :: rest => if c = d then some rest else none
  | [] => none

/-- How many days a month has. -/
def daysIn (year month : Nat) : Nat :=
  if month = 2 then
    if year % 4 = 0 ∧ (year % 100 ≠ 0 ∨ year % 400 = 0) then 29 else 28
  else if [4, 6, 9, 11].contains month then 30
  else 31

/-- What follows a date. -/
def afterDate? (text : List Char) : Option (List Char) := do
  let (year, rest) ← fixedDigits? 4 text
  let rest ← after? '-' rest
  let (month, rest) ← fixedDigits? 2 rest
  let rest ← after? '-' rest
  let (day, rest) ← fixedDigits? 2 rest
  if 1 ≤ month ∧ month ≤ 12 ∧ 1 ≤ day ∧ day ≤ daysIn year month then some rest else none

/-- What follows a time of day; seconds may be left out. -/
def afterTime? (text : List Char) : Option (List Char) := do
  let (hour, rest) ← fixedDigits? 2 text
  let rest ← after? ':' rest
  let (minute, rest) ← fixedDigits? 2 rest
  if 23 < hour ∨ 59 < minute then none
  else match rest with
    | ':' :: rest =>
      let (second, rest) ← fixedDigits? 2 rest
      if 60 < second then none
      else match rest with
        | '.' :: rest =>
          if (rest.takeWhile Char.isDigit).isEmpty then none
          else some (rest.dropWhile Char.isDigit)
        | _ => some rest
    | _ => some rest

/-- Whether a text is the offset of a time zone. -/
def isOffset (text : List Char) : Bool :=
  match text with
  | ['Z'] | ['z'] => true
  | sign :: rest =>
    (sign == '+' || sign == '-') && (do
      let (hour, rest) ← fixedDigits? 2 rest
      let rest ← after? ':' rest
      let (minute, rest) ← fixedDigits? 2 rest
      return rest.isEmpty && decide (hour ≤ 23) && decide (minute ≤ 59)) == some true
  | [] => false

/-- Whether a text is a date, a time of day or both. -/
def isMoment (text : List Char) : Bool :=
  match afterDate? text with
  | some [] => true
  | some (c :: rest) =>
    (c == 'T' || c == 't' || c == ' ') &&
      (afterTime? rest).any fun rest => rest.isEmpty || isOffset rest
  | none => (afterTime? text).any List.isEmpty

/-- Whether a text is a truth value, a number or a date. -/
def isScalar (text : List Char) : Bool :=
  ["true", "false"].contains (String.ofList text) || isInteger text || isFraction text ||
    isMoment text

end LocalizedQuery.Toml
