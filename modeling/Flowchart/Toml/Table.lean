import Flowchart.Toml.Value
/-! Tables while they are written. A table remembers how it came about, which decides what may be
added to it later. -/
namespace Flowchart.Toml

inductive Origin where
  /-- Named by a header, or the whole document. -/
  | header
  /-- On the way to a table that a header names. -/
  | implied
  /-- On the way to the last part of a dotted key. -/
  | dotted
  deriving DecidableEq, Repr

inductive Item where
  | value (value : Value)
  | table (origin : Origin) (entries : List (String × Item))
  /-- Tables that share a header; the last one is still written. -/
  | tables (tables : List (List (String × Item)))

abbrev Entries := List (String × Item)

namespace Item

mutual

def toValue : Item → Value
  | .value v => v
  | .table _ entries => .table (entryValues entries)
  | .tables ts => .array (tableValues ts)

def entryValues : List (String × Item) → List (String × Value)
  | [] => []
  | (key, item) :: entries => (key, item.toValue) :: entryValues entries

def tableValues : List (List (String × Item)) → List Value
  | [] => []
  | entries :: ts => .table (entryValues entries) :: tableValues ts

end

end Item

namespace Entries

def replace (entries : Entries) (key : String) (item : Item) : Entries :=
  entries.map fun (k, old) => if k == key then (k, item) else (k, old)

/-- Change the table at the end of a path. Tables that are missing on the way are made. A dotted key
may not pass through a table that a header names. -/
def change (dotted : Bool) (step : Origin → Entries → Option Entries) :
    (path : List String) → Origin → Entries → Option Entries
  | [], origin, entries => step origin entries
  | key :: path, _, entries =>
    match entries.lookup key with
    | none =>
      let made : Origin := if dotted then .dotted else .implied
      (change dotted step path made []).map fun inner => entries ++ [(key, .table made inner)]
    | some (.value _) => none
    | some (.table origin inner) =>
      if dotted && origin == .header then none
      else (change dotted step path origin inner).map fun inner =>
        replace entries key (.table origin inner)
    | some (.tables ts) =>
      match ts.getLast? with
      | none => none
      | some last => (change dotted step path .header last).map fun last =>
        replace entries key (.tables (ts.dropLast ++ [last]))

/-- Add a pair. A key is never given twice, and a dotted key only adds to tables of dotted keys. -/
def addPair (entries : Entries) (path : List String) (key : String) (value : Value) :
    Option Entries :=
  change (!path.isEmpty) (fun origin entries =>
    if (origin == .dotted) == path.isEmpty || (entries.lookup key).isSome then none
    else some (entries ++ [(key, .value value)])) path .header entries

/-- Name a table by a header. It may be there already only as one on the way to others. -/
def openTable (entries : Entries) (path : List String) (key : String) : Option Entries :=
  change false (fun _ entries =>
    match entries.lookup key with
    | none => some (entries ++ [(key, .table .header [])])
    | some (.table .implied inner) => some (replace entries key (.table .header inner))
    | some _ => none) path .header entries

/-- Start another one of several tables with one header. -/
def openNextTable (entries : Entries) (path : List String) (key : String) : Option Entries :=
  change false (fun _ entries =>
    match entries.lookup key with
    | none => some (entries ++ [(key, .tables [[]])])
    | some (.tables ts) => some (replace entries key (.tables (ts ++ [[]])))
    | some _ => none) path .header entries

end Entries
end Flowchart.Toml
