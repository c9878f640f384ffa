import LocalizedQuery.Decimal.Double

/-!
# The shortest decimal of a double

Among the decimals that read back as a given double there are some with the fewest digits; of those
`Double.shortest` takes the nearest, and of two equally near ones the one with an even last digit.

The decimals that read back form an interval whose ends lie half way to the neighbouring doubles,
and belong to it when the mantissa is even. If any decimal with `n` digits lies in it, so does one
of the two that enclose the double itself, so only those two are tried for `n = 1, 2, …, 17`.

`DecimalLayout` is how digits and a power of ten are written down.
-/

namespace LocalizedQuery

/-- The decimal `digits * 10 ^ scale`. -/
structure Decimal where
  digits : Nat
  scale : Int
deriving Repr, DecidableEq, Inhabited

namespace Decimal

/-- Moves final zeros of the digits into the power of ten, at most `count` of them. -/
def withoutFinalZeros : (count : Nat) → Decimal → Decimal
  | 0, d => d
  | count + 1, d =>
    if d.digits % 10 = 0 ∧ d.digits ≠ 0 then
      withoutFinalZeros count ⟨d.digits / 10, d.scale + 1⟩
    else d

end Decimal

/-- The fractions `low / den`, `value / den` and `high / den`: a double and the ends of the interval
of reals that are read as it. -/
structure ReadingInterval where
  low : Nat
  value : Nat
  high : Nat
  den : Nat
  /-- Whether the ends belong to the interval. -/
  closed : Bool
deriving Repr, DecidableEq

namespace ReadingInterval

/-- The interval of the double `mantissa * 2 ^ exponent`. In quarters of the last place the ends lie
two away, except that the lower one lies one away below a power of two, where the doubles get twice
as dense. -/
def ofDouble (mantissa : Nat) (exponent : Int) : ReadingInterval :=
  let below := if mantissa = Nat.pow 2 52 ∧ Double.leastExponent < exponent then 1 else 2
  let up := Nat.pow 2 (exponent - 2).toNat
  { low := (4 * mantissa - below) * up
    value := 4 * mantissa * up
    high := (4 * mantissa + 2) * up
    den := Nat.pow 2 (2 - exponent).toNat
    closed := mantissa % 2 == 0 }

/-- The fraction times `10 ^ (-scale)`, as far as that is a factor of the numerator. -/
def lifted (scale : Int) (num : Nat) : Nat := num * Nat.pow 10 (-scale).toNat

/-- The denominator after division by `10 ^ scale`. -/
def unit (r : ReadingInterval) (scale : Int) : Nat := r.den * Nat.pow 10 scale.toNat

/-- Whether `digits * 10 ^ scale` lies in the interval. -/
def contains (r : ReadingInterval) (scale : Int) (digits : Nat) : Bool :=
  let point := digits * r.unit scale
  if r.closed then decide (lifted scale r.low ≤ point) && decide (point ≤ lifted scale r.high)
  else decide (lifted scale r.low < point) && decide (point < lifted scale r.high)

/-- The decimal on the grid `10 ^ scale` that reads back and is nearest, if there is one. -/
def nearest? (r : ReadingInterval) (scale : Int) : Option Nat :=
  let value := lifted scale r.value
  let down := value / r.unit scale
  match r.contains scale down, r.contains scale (down + 1) with
  | true, true =>
    let middle := (2 * down + 1) * r.unit scale
    if 2 * value < middle then some down
    else if middle < 2 * value then some (down + 1)
    else if down % 2 = 0 then some down else some (down + 1)
  | true, false => some down
  | false, true => some (down + 1)
  | false, false => none

/-- The power of ten just above the value. -/
def point (r : ReadingInterval) : Int :=
  let guess : Int := (Double.digitCount r.value : Int) - (Double.digitCount r.den : Int)
  if lifted guess r.value < r.unit guess then guess else guess + 1

/-- Tries grids of falling size, at most `count` of them. -/
def search (r : ReadingInterval) (scale : Int) : (count : Nat) → Decimal
  | 0 => ⟨lifted scale r.value / r.unit scale, scale⟩
  | count + 1 =>
    match r.nearest? scale with
    | some digits => ⟨digits, scale⟩
    | none => search r (scale - 1) count

end ReadingInterval

/-- The shortest decimal that reads back as `mantissa * 2 ^ exponent`. -/
def Double.shortest (mantissa : Nat) (exponent : Int) : Decimal :=
  if mantissa = 0 then ⟨0, 0⟩
  else
    let r := ReadingInterval.ofDouble mantissa exponent
    (r.search (r.point - 1) 17).withoutFinalZeros 17

/-- How a decimal is laid out. With its point after `p` digits, it is written without an exponent
when `least < p` and `p ≤ most`. -/
structure DecimalLayout where
  least : Int
  most : Int

/-- The layout of numbers in queries: `0.00001` and `1000000000000000.0` are the extremes written
without an exponent, `1e-6` and `1e16` follow. -/
def plainLayout : DecimalLayout := ⟨-5, 16⟩

namespace DecimalLayout

/-- Writes a decimal. Without an exponent there is always a digit on both sides of the point; with
one, the point follows the first digit and is left out after a single digit. -/
def write (layout : DecimalLayout) (d : Decimal) : List Char :=
  let digits := Nat.toDigits 10 d.digits
  let point := d.scale + digits.length
  if layout.least < point ∧ point ≤ layout.most then
    if 0 ≤ d.scale then digits ++ List.replicate d.scale.toNat '0' ++ ['.', '0']
    else if 0 < point then digits.take point.toNat ++ '.' :: digits.drop point.toNat
    else '0' :: '.' :: (List.replicate (-point).toNat '0' ++ digits)
  else
    let exponent := 'e' :: (toString (point - 1)).toList
    match digits with
    | first :: second :: rest => first :: '.' :: second :: (rest ++ exponent)
    | single => single ++ exponent

end DecimalLayout

namespace Double

/-- The shortest text that reads back as the double: `0.1`, `-0.0`, `1e16`, and the names of the
values that are no numbers. -/
def toText : Double → String
  | .nan => "NaN"
  | .infinity false => "inf"
  | .infinity true => "-inf"
  | .finite negative mantissa exponent =>
    let digits := plainLayout.write (shortest mantissa exponent)
    String.ofList (if negative then '-' :: digits else digits)

end Double

end LocalizedQuery
