/-!
# Double precision numbers

A double is kept as what it denotes: a sign, a mantissa and a power of two, next to the two
infinities and the value that is no number. Nothing is computed with doubles here; they are read
from decimal text (`Double.ofText?`) and written back (`LocalizedQuery.Decimal.Shortest`).

Reading rounds exactly: `Double.ofRatio` takes the double nearest to a fraction of natural numbers,
and of two equally near ones the one with an even mantissa.
-/

namespace LocalizedQuery

/-- A double precision number. A finite one is `mantissa * 2 ^ exponent` with its sign; its mantissa
is below `2 ^ 53`, and at least `2 ^ 52` unless the exponent is the least one, `-1074`. -/
inductive Double where
  | nan
  | infinity (negative : Bool)
  | finite (negative : Bool) (mantissa : Nat) (exponent : Int)
deriving Repr, DecidableEq, Inhabited

namespace Double

/-- Whether a double is a real number. -/
def isFinite : Double → Bool
  | .finite .. => true
  | _ => false

/-- The least exponent of a double. -/
def leastExponent : Int := -1074

/-- The greatest exponent of a finite double. -/
def greatestExponent : Int := 971

/-- The quotient rounded to the nearest natural number, a half to the even neighbour. -/
def roundedQuotient (num den : Nat) : Nat :=
  let quotient := num / den
  let twice := 2 * (num % den)
  if twice < den then quotient
  else if den < twice then quotient + 1
  else if quotient % 2 = 0 then quotient else quotient + 1

/-- The fraction `num / den` divided by `2 ^ exponent`. -/
def scaledBy (num den : Nat) (exponent : Int) : Nat × Nat :=
  if 0 ≤ exponent then (num, den * Nat.pow 2 exponent.toNat)
  else (num * Nat.pow 2 (-exponent).toNat, den)

/-- The exponent at which `num / den` has a mantissa of 53 bits, or the least one. -/
def exponentOf (num den : Nat) : Int :=
  let guess : Int := (Nat.log2 num : Int) - (Nat.log2 den : Int) - 52
  let (n, d) := scaledBy num den guess
  max leastExponent (if n / d < Nat.pow 2 52 then guess - 1 else guess)

/-- The double nearest to `num / den`, for a positive denominator. -/
def ofRatio (negative : Bool) (num den : Nat) : Double :=
  if num = 0 then .finite negative 0 leastExponent
  else
    let exponent := exponentOf num den
    let (n, d) := scaledBy num den exponent
    let mantissa := roundedQuotient n d
    let (mantissa, exponent) :=
      if mantissa = Nat.pow 2 53 then (Nat.pow 2 52, exponent + 1) else (mantissa, exponent)
    if greatestExponent < exponent then .infinity negative
    else .finite negative mantissa exponent

/-- How many decimal digits a number has. -/
def digitCount (n : Nat) : Nat := (Nat.toDigits 10 n).length

/-- The double nearest to `digits * 10 ^ scale`. Beyond `10 ^ 310` that is an infinity, and below
`10 ^ (-330)` it is zero, so that no power is computed for a scale that cannot matter. -/
def ofDecimal (negative : Bool) (digits : Nat) (scale : Int) : Double :=
  let point := scale + digitCount digits
  if digits = 0 ∨ point < -330 then .finite negative 0 leastExponent
  else if 310 < point then .infinity negative
  else if 0 ≤ scale then ofRatio negative (digits * Nat.pow 10 scale.toNat) 1
  else ofRatio negative digits (Nat.pow 10 (-scale).toNat)

/-! ## Reading decimal text -/

/-- The number that a run of decimal digits denotes. -/
def digitsValue (digits : List Char) : Nat :=
  digits.foldl (fun value c => 10 * value + (c.toNat - '0'.toNat)) 0

/-- Reads an exponent with an optional sign; it needs a digit. -/
def exponentValue? : List Char → Option Int
  | '-' :: digits =>
    if digits ≠ [] ∧ digits.all Char.isDigit then some (-(digitsValue digits : Int)) else none
  | '+' :: digits =>
    if digits ≠ [] ∧ digits.all Char.isDigit then some (digitsValue digits) else none
  | digits => if digits ≠ [] ∧ digits.all Char.isDigit then some (digitsValue digits) else none

/-- Reads digits with an optional fraction and exponent, such as `1.`, `.5` or `2.5e-3`; one digit
is needed before the exponent. -/
def ofUnsigned? (negative : Bool) (text : List Char) : Option Double :=
  let whole := text.takeWhile Char.isDigit
  let rest := text.dropWhile Char.isDigit
  let (fraction, rest) := match rest with
    | '.' :: rest => (rest.takeWhile Char.isDigit, rest.dropWhile Char.isDigit)
    | _ => ([], rest)
  let exponent := match rest with
    | [] => some 0
    | c :: rest => if c = 'e' ∨ c = 'E' then exponentValue? rest else none
  if whole ++ fraction = [] then none
  else exponent.map fun exponent =>
    ofDecimal negative (digitsValue (whole ++ fraction)) (exponent - fraction.length)

/-- Reads what follows the sign: a number, or the name of a value that is none. -/
def ofMagnitude? (negative : Bool) (text : List Char) : Option Double :=
  match String.ofList (text.map Char.toLower) with
  | "inf" | "infinity" => some (.infinity negative)
  | "nan" => some .nan
  | _ => ofUnsigned? negative text

/-- Reads a double from decimal text with an optional sign. -/
def ofText? (text : String) : Option Double :=
  match text.toList with
  | '-' :: rest => ofMagnitude? true rest
  | '+' :: rest => ofMagnitude? false rest
  | rest => ofMagnitude? false rest

end Double

end LocalizedQuery
