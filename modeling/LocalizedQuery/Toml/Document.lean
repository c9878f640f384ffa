/-!
# TOML documents

A TOML document is a table: keys with values, some of which are tables again. How a table came about
decides what may still be added to it, so every table remembers that (`Toml.Origin`):

* a header opens a table, once; until then a longer header may have implied it;
* a dotted key makes the tables on its way, and only dotted keys may add to these;
* nothing may be added to an inline table.

A header in double brackets adds a table to a list of tables, and what follows concerns the last
one.
-/

namespace LocalizedQuery

/-- How a table came about. -/
inductive Toml.Origin where
  /-- By its own header; also the document itself. -/
  | opened
  /-- By the header of a table inside it. -/
  | implied
  /-- By a dotted key. -/
  | dotted
  /-- As a value. -/
  | inline
deriving DecidableEq, Repr, Inhabited

/-- A TOML value. -/
inductive Toml where
  | string (value : String)
  /-- A truth value, a number or a date, as it is spelled. -/
  | plain (spelling : String)
  | array (items : List Toml)
  /-- Tables that were added one by one, by headers. -/
  | tables (items : List Toml)
  | table (origin : Toml.Origin) (entries : List (String × Toml))
deriving Inhabited

namespace Toml

/-- Replaces the value of a key, or gives it one, as `f` says; `f` may refuse. -/
def alter (key : String) (f : Option Toml → Option Toml) :
    List (String × Toml) → Option (List (String × Toml))
  | [] => (f none).map fun value => [(key, value)]
  | (other, value) :: rest =>
    if other = key then (f (some value)).map fun value => (other, value) :: rest
    else (alter key f rest).map ((other, value) :: ·)

/-- Replaces the last element of a list as `f` says. -/
def alterLast (f : Toml → Option Toml) : List Toml → Option (List Toml)
  | [] => none
  | [last] => (f last).map ([·])
  | first :: rest => (alterLast f rest).map (first :: ·)

/-- Changes the table at the end of a path, which is made where it is missing. A path of a dotted
key does not lead through tables that a header opened, and no path leads through inline tables. -/
def within (dotted : Bool) (f : Toml → Option Toml) : (path : List String) → Toml → Option Toml
  | [], node => f node
  | key :: path, .table origin entries =>
    (alter key (fun entry =>
      match entry with
      | none => within dotted f path (.table (if dotted then .dotted else .implied) [])
      | some (.tables items) => (alterLast (within dotted f path) items).map .tables
      | some (.table origin entries) =>
        if origin = .inline ∨ (dotted ∧ origin = .opened) then none
        else within dotted f path (.table origin entries)
      | some _ => none) entries).map (.table origin)
  | _ :: _, _ => none

/-- Gives a new key of a table a value. Plain keys do not add to a table that dotted keys made, nor
dotted keys to another one. -/
def define (dotted : Bool) (key : String) (value : Toml) : Toml → Option Toml
  | .table origin entries =>
    if (origin = .dotted) ≠ dotted then none
    else (alter key (fun
      | none => some value
      | some _ => none) entries).map (.table origin)
  | _ => none

/-- Gives a new key a value, where the key may be dotted. -/
def insert (path : List String) (key : String) (value : Toml) (table : Toml) : Option Toml :=
  within true (define (!path.isEmpty) key value) path table

/-- Opens the table of a header. -/
def openTable (path : List String) (key : String) (document : Toml) : Option Toml :=
  within false (fun
    | .table origin entries => (alter key (fun
        | none => some (.table .opened [])
        | some (.table .implied entries) => some (.table .opened entries)
        | some _ => none) entries).map (.table origin)
    | _ => none) path document

/-- Adds a table to the list of tables of a header. -/
def addTable (path : List String) (key : String) (document : Toml) : Option Toml :=
  within false (fun
    | .table origin entries => (alter key (fun
        | none => some (.tables [.table .opened []])
        | some (.tables items) => some (.tables (items ++ [.table .opened []]))
        | some _ => none) entries).map (.table origin)
    | _ => none) path document

end Toml

end LocalizedQuery
