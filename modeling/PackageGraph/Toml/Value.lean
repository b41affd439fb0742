/-!
# TOML values

The values of a TOML document. A table remembers how it came to be, since that decides what may
still be added to it.

## Main definitions

* `Value` and `Entries`: values, and what a table holds.
* `addEntry?`: adds a key with its value to a table.
* `openTable?`, `openElement?`: what the headers of a document do.
-/

namespace PackageGraph.Toml

/-- How a table came to be. -/
inductive Origin where
  /-- It has a header of its own. -/
  | header
  /-- It stands on the way to a table that has a header. -/
  | implied
  /-- It stands on the way to a dotted key. -/
  | dotted
  /-- It is written in braces, and complete. -/
  | braces
deriving DecidableEq, Inhabited

/-- A value. What nothing here looks at, a fraction or a point in time, keeps no more than its
kind. -/
inductive Value where
  | text (s : String)
  | boolean (b : Bool)
  | integer (n : Int)
  | fraction
  | time
  /-- A list in brackets, or the elements that headers in double brackets have added. -/
  | array (byHeaders : Bool) (items : List Value)
  | table (origin : Origin) (entries : List (String × Value))
deriving Inhabited

/-- What a table holds, in the order of its keys' first mention. -/
abbrev Entries := List (String × Value)

namespace Entries

/-- Replace the value of a key that is there. -/
def replace (key : String) (value : Value) (entries : Entries) : Entries :=
  entries.map fun (key', value') => if key' = key then (key', value) else (key', value')

/-- Change the table that a path leads to. Missing tables on the way are made; an array of tables
is entered at its last element. A table in braces is not entered, and a dotted key does not enter a
table that has a header. -/
def changeAt? (isDotted : Bool) (change : Origin → Entries → Option Entries) :
    (path : List String) → Origin → Entries → Option Entries
  | [], origin, entries => change origin entries
  | key :: path, _, entries =>
    match entries.lookup key with
    | none => do
      let origin := if isDotted then Origin.dotted else .implied
      return entries ++ [(key, .table origin (← changeAt? isDotted change path origin []))]
    | some (.table origin inner) => do
      if origin = .braces ∨ (isDotted ∧ origin = .header) then none
      return replace key (.table origin (← changeAt? isDotted change path origin inner)) entries
    | some (.array true items) =>
      match items.getLast? with
      | some (.table origin inner) => do
        let last := Value.table origin (← changeAt? isDotted change path origin inner)
        return replace key (.array true (items.dropLast ++ [last])) entries
      | _ => none
    | some _ => none

/-- Add a key with its value to a table, or to a table that a dotted key leads to. The key must be
new, and tables of dotted keys are not mixed with others. -/
def addEntry? (path : List String) (key : String) (value : Value) (origin : Origin)
    (entries : Entries) : Option Entries :=
  changeAt? (!path.isEmpty) (fun found inner =>
    if !path.isEmpty ∧ found ≠ .dotted then none
    else
      match inner.lookup key with
      | none => some (inner ++ [(key, value)])
      | some _ => none) path origin entries

/-- Begin the table of a header. A table that only stood on the way to others may still get one. -/
def openTable? (path : List String) (key : String) (entries : Entries) : Option Entries :=
  changeAt? false (fun _ inner =>
    match inner.lookup key with
    | none => some (inner ++ [(key, .table .header [])])
    | some (.table .implied known) => some (replace key (.table .header known) inner)
    | some _ => none) path .header entries

/-- Begin the next element of an array of tables. -/
def openElement? (path : List String) (key : String) (entries : Entries) : Option Entries :=
  let element := Value.table .header []
  changeAt? false (fun _ inner =>
    match inner.lookup key with
    | none => some (inner ++ [(key, .array true [element])])
    | some (.array true items) => some (replace key (.array true (items ++ [element])) inner)
    | some _ => none) path .header entries

end Entries

end PackageGraph.Toml
