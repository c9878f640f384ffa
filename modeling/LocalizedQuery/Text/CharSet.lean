/-!
# Sets of characters given by ranges

A property of characters is written down as its ranges of code points, in hexadecimal and in
increasing order: `C0-D6` is a range, `100-136/2` is every second code point of a range, and a lone
number is one code point. `CharSet.ofText` reads that notation and `CharSet.contains` looks a
character up.

The tables themselves stand in the modules named for the property they list.
-/

namespace LocalizedQuery

/-- The words of a table: its maximal runs of characters other than a space or a line end. -/
def tableWords (table : List Char) : List (List Char) :=
  let step (c : Char) (words : List (List Char)) : List (List Char) :=
    if c = ' ' ∨ c = '\n' then [] :: words
    else match words with
      | [] => [[c]]
      | word :: rest => (c :: word) :: rest
  (table.foldr step [[]]).filter (fun word => !word.isEmpty)

/-- The value of a hexadecimal digit, either case. -/
def hexDigit? (c : Char) : Option Nat :=
  if '0' ≤ c ∧ c ≤ '9' then some (c.toNat - '0'.toNat)
  else if 'a' ≤ c ∧ c ≤ 'f' then some (c.toNat - 'a'.toNat + 10)
  else if 'A' ≤ c ∧ c ≤ 'F' then some (c.toNat - 'A'.toNat + 10)
  else none

/-- The number that a word of hexadecimal digits denotes; other characters count as zero. -/
def hexValue (digits : List Char) : Nat :=
  digits.foldl (fun value c => 16 * value + (hexDigit? c).getD 0) 0

/-- Splits a word at the first occurrence of `mark`. -/
def splitAtMark (mark : Char) (word : List Char) : List Char × Option (List Char) :=
  match word.dropWhile (· ≠ mark) with
  | [] => (word, none)
  | _ :: rest => (word.takeWhile (· ≠ mark), some rest)

/-- The code points `first`, `first + step`, … up to `last`. -/
structure CodeRun where
  first : Nat
  last : Nat
  step : Nat
deriving Repr, DecidableEq, Inhabited

namespace CodeRun

/-- Reads `A`, `A-B` or `A-B/2`. -/
def ofWord (word : List Char) : CodeRun :=
  let (range, step) := splitAtMark '/' word
  let (first, last) := splitAtMark '-' range
  { first := hexValue first
    last := (last.map hexValue).getD (hexValue first)
    step := (step.map hexValue).getD 1 }

/-- Whether a run has the code point. -/
def contains (run : CodeRun) (code : Nat) : Bool :=
  decide (run.first ≤ code) && decide (code ≤ run.last) && (code - run.first) % run.step == 0

end CodeRun

/-- The position of the last entry that starts at or before `code`, among `low` and the `more`
positions after it of a table whose entries increase; `low` itself when none does. -/
def lastStarting (start : Nat → Nat) (code low more : Nat) : Nat :=
  if _h : more = 0 then low
  else
    let half := (more + 1) / 2
    if start (low + half) ≤ code then lastStarting start code (low + half) (more - half)
    else lastStarting start code low (half - 1)
termination_by more

/-- A set of characters, as runs in increasing order. -/
structure CharSet where
  runs : Array CodeRun

namespace CharSet

/-- Reads a table of ranges. -/
def ofText (table : String) : CharSet :=
  ⟨((tableWords table.toList).map CodeRun.ofWord).toArray⟩

/-- Whether the set has the character. Only the last run that starts at or before it can. -/
def contains (set : CharSet) (c : Char) : Bool :=
  let position := lastStarting (fun i => (set.runs[i]?.map CodeRun.first).getD 0) c.toNat 0
    (set.runs.size - 1)
  match set.runs[position]? with
  | some run => run.contains c.toNat
  | none => false

end CharSet

end LocalizedQuery
