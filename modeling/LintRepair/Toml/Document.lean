import LintRepair.Toml.Lexeme

/-!
Settings documents: reading.

`Toml.parse?` reads a TOML document into the entries of its root table. Every reader has a bound on
its steps, the length of the text, which each of them shortens.
-/

namespace LintRepair.Toml

/-- Adds the members of an inline table one after the other. -/
def insertMembers : List ((List String × String) × Value) → Entries → Option Entries
  | [], entries => some entries
  | ((path, key), value) :: rest, entries =>
      match insertDotted path key value entries with
      | none => none
      | some entries' => insertMembers rest entries'

mutual

/-- Reads a value that lies inside `depth` arrays and inline tables. -/
def value (depth : Nat) : Nat → List Char → Option (Value × List Char)
  | 0, _ => none
  | fuel + 1, text =>
      match text with
      | [] => none
      | c :: rest =>
          if c = '\x22' ∨ c = '\x27' then
            (string text).map fun parts => (.string parts.1, parts.2)
          else if c = '[' then
            if nestingLimit ≤ depth + 1 then none
            else (items (depth + 1) fuel rest).map fun parts => (.array parts.1, parts.2)
          else if c = '\x7b' then
            if nestingLimit ≤ depth + 1 then none
            else
              let read := match skipGap rest with
                | '\x7d' :: rest' => some ([], rest')
                | _ => members (depth + 1) fuel rest
              match read with
              | none => none
              | some (found, rest') =>
                  (insertMembers found []).map fun entries => (.table .inline entries, rest')
          else
            match text with
            | 't' :: 'r' :: 'u' :: 'e' :: rest' => some (.bool true, rest')
            | 'f' :: 'a' :: 'l' :: 's' :: 'e' :: rest' => some (.bool false, rest')
            | _ =>
                match dateTime text with
                | some rest' => some (.date, rest')
                | none => number text

/-- Reads the rest of an array, up to its closing bracket. -/
def items (depth : Nat) : Nat → List Char → Option (List Value × List Char)
  | 0, _ => none
  | fuel + 1, text =>
      match skipLines false text with
      | none => none
      | some (']' :: rest) => some ([], rest)
      | some text' =>
          match value depth fuel text' with
          | none => none
          | some (first, rest) =>
              match skipLines false rest with
              | some (']' :: rest') => some ([first], rest')
              | some (',' :: rest') =>
                  (items depth fuel rest').map fun parts => (first :: parts.1, parts.2)
              | _ => none

/-- Reads the rest of an inline table that has members, up to its closing brace. -/
def members (depth : Nat) :
    Nat → List Char → Option (List ((List String × String) × Value) × List Char)
  | 0, _ => none
  | fuel + 1, text =>
      match key text with
      | some (path, '=' :: rest) =>
          match value depth fuel (skipGap rest) with
          | none => none
          | some (first, rest') =>
              match skipGap rest' with
              | '\x7d' :: rest'' => some ([(path, first)], rest'')
              | ',' :: rest'' =>
                  (members depth fuel rest'').map fun parts => ((path, first) :: parts.1, parts.2)
              | _ => none
      | _ => none

end

/-- The state between two lines: the root table, and the path of the table that a header opened. -/
structure Document where
  root : Entries
  current : List String

/-- Reads a header after its opening brackets, which close with the same number of brackets. -/
def header (many : Bool) (doc : Document) (text : List Char) : Option (Document × List Char) :=
  match key text with
  | none => none
  | some ((path, last), rest) =>
      let opened := if many then openTables path last doc.root else openTable path last doc.root
      let after := if many then (past ']' rest).bind (past ']') else past ']' rest
      match opened, after.bind lineEnd with
      | some root, some rest' => some (⟨root, path ++ [last]⟩, rest')
      | _, _ => none

/-- Reads a key with its value. -/
def keyValue (doc : Document) (text : List Char) : Option (Document × List Char) :=
  match key text with
  | some ((path, last), '=' :: rest) =>
      match value 0 (rest.length + 1) (skipGap rest) with
      | none => none
      | some (v, rest') =>
          match under (insertDotted path last v) doc.current doc.root, lineEnd rest' with
          | some root, some rest'' => some (⟨root, doc.current⟩, rest'')
          | _, _ => none
  | _ => none

/-- Reads one line. -/
def line (doc : Document) (text : List Char) : Option (Document × List Char) :=
  match skipGap text with
  | [] => some (doc, [])
  | '#' :: rest => (lineEnd ('#' :: rest)).map fun rest' => (doc, rest')
  | '\n' :: rest => some (doc, rest)
  | '\r' :: '\n' :: rest => some (doc, rest)
  | '[' :: '[' :: rest => header true doc rest
  | '[' :: rest => header false doc rest
  | text' => keyValue doc text'

/-- Reads lines until the text ends, up to `fuel` many. -/
def lines : Nat → Document → List Char → Option Document
  | _, doc, [] => some doc
  | 0, _, _ => none
  | fuel + 1, doc, text =>
      match line doc text with
      | none => none
      | some (doc', rest) => lines fuel doc' rest

/-- The text without a byte order mark at its start. -/
def dropMark : List Char → List Char
  | '\uFEFF' :: rest => rest
  | text => text

/-- The entries of a document's root table. -/
def parse? (text : String) : Option Entries :=
  (lines (text.length + 1) ⟨[], []⟩ (dropMark text.toList)).map Document.root

end LintRepair.Toml
