/-!
Settings documents: values and tables.

The values of a TOML document, and the rules by which its lines build up nested tables. Every
table remembers how it came about, because that decides what may still be added to it.

* `Toml.insertDotted`: adds a value under a dotted key.
* `Toml.openTable`, `Toml.openTables`: open the table, or the next table of a list, that a header
  names.
* `Toml.under`: changes the table at the path of a header.
-/

namespace LintRepair.Toml

/-- How a table came about. -/
inductive Origin where
  /-- A header names the table. -/
  | header
  /-- A header names a table below it. -/
  | implied
  /-- A dotted key goes through it. -/
  | dotted
  /-- It is written between braces. -/
  | inline
deriving DecidableEq

/-- A value of a document. What a fraction or a date is worth plays no role here. -/
inductive Value where
  | string (text : String)
  | integer (value : Int)
  | float
  | bool (value : Bool)
  | date
  | array (items : List Value)
  | table (origin : Origin) (entries : List (String × Value))
  /-- The list of tables that repeated headers make. -/
  | tables (items : List (List (String × Value)))

/-- The keys of a table with their values. -/
abbrev Entries := List (String × Value)

/-- Whether a key is taken. -/
def hasKey (entries : Entries) (key : String) : Bool :=
  entries.any (·.1 == key)

/-- Gives a key that is taken a new value. -/
def replace (entries : Entries) (key : String) (value : Value) : Entries :=
  entries.map fun entry => if entry.1 = key then (key, value) else entry

/-- Adds a value under a new key. -/
def insertNew (key : String) (value : Value) (entries : Entries) : Option Entries :=
  if hasKey entries key then none else some (entries ++ [(key, value)])

/-- Changes the last element of a list, if there is one. -/
def changeLast (change : Entries → Option Entries) : List Entries → Option (List Entries)
  | [] => none
  | [last] => (change last).map fun changed => [changed]
  | first :: rest => (changeLast change rest).map (first :: ·)

/-- Adds a value under a dotted key, whose last part is `key`. The tables in between are made as
needed. Those made by dotted keys may be extended, those that a header implies only be passed
through, and all others are closed. -/
def insertDotted : List String → String → Value → Entries → Option Entries
  | [], key, value, entries => insertNew key value entries
  | part :: parts, key, value, entries =>
      match entries.lookup part with
      | none =>
          (insertDotted parts key value []).map fun inner =>
            entries ++ [(part, .table .dotted inner)]
      | some (.table .dotted inner) =>
          (insertDotted parts key value inner).map fun inner' =>
            replace entries part (.table .dotted inner')
      | some (.table .implied inner) =>
          if parts.isEmpty then none
          else
            (insertDotted parts key value inner).map fun inner' =>
              replace entries part (.table .implied inner')
      | some (.tables items) =>
          if parts.isEmpty then none
          else
            (changeLast (insertDotted parts key value) items).map fun items' =>
              replace entries part (.tables items')
      | some _ => none

/-- Changes the table at the path of a header. Tables on the way are implied as needed, and of a
list of tables the last one counts. -/
def under (change : Entries → Option Entries) : List String → Entries → Option Entries
  | [], entries => change entries
  | part :: parts, entries =>
      match entries.lookup part with
      | none =>
          (under change parts []).map fun inner => entries ++ [(part, .table .implied inner)]
      | some (.table .inline _) => none
      | some (.table origin inner) =>
          (under change parts inner).map fun inner' => replace entries part (.table origin inner')
      | some (.tables items) =>
          (changeLast (under change parts) items).map fun items' =>
            replace entries part (.tables items')
      | some _ => none

/-- Opens the table that a header names, below the given path. Only a table that was merely
implied may have been there. -/
def openTable (path : List String) (key : String) : Entries → Option Entries :=
  under (fun entries =>
    match entries.lookup key with
    | none => some (entries ++ [(key, .table .header [])])
    | some (.table .implied inner) => some (replace entries key (.table .header inner))
    | some _ => none) path

/-- Opens the next table of the list that a header names, below the given path. -/
def openTables (path : List String) (key : String) : Entries → Option Entries :=
  under (fun entries =>
    match entries.lookup key with
    | none => some (entries ++ [(key, .tables [[]])])
    | some (.tables items) => some (replace entries key (.tables (items ++ [[]])))
    | some _ => none) path

end LintRepair.Toml
