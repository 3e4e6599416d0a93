import LintRepair.Text.Blank

/-!
Lines.

A line is its list of characters, without a terminator. Columns count characters from zero, while
the encoded text is measured in bytes, so every edit finds the byte offset of its column first and
cuts the encoded line there.

* `byteOffset`: where the character at a column begins in the encoded line.
* `splitAtByte`: the two parts of a line around a byte offset, if it lies between two characters.
* `insertAt`, `removeAt`, `slice`: the edits and the excerpt by column.
-/

namespace LintRepair

/-- A line of text without its terminator. -/
abbrev Line := List Char

namespace Line

/-- The size of the encoded line. -/
def byteSize : Line → Nat
  | [] => 0
  | c :: rest => c.utf8Size + byteSize rest

/-- The byte at which the character at `column` begins. The column just past the last character
has the line's size as its offset, and later columns have none. -/
def byteOffset : Line → Nat → Option Nat
  | _, 0 => some 0
  | [], _ + 1 => none
  | c :: rest, column + 1 => (byteOffset rest column).map (c.utf8Size + ·)

/-- The parts of the line before and after a byte offset. There are none if the offset lies past
the end or inside a character. -/
def splitAtByte : Line → Nat → Option (Line × Line)
  | line, 0 => some ([], line)
  | [], _ + 1 => none
  | c :: rest, offset + 1 =>
      if c.utf8Size ≤ offset + 1 then
        (splitAtByte rest (offset + 1 - c.utf8Size)).map fun parts => (c :: parts.1, parts.2)
      else none

/-- The character at `column`. -/
def charAt (l : Line) (column : Nat) : Option Char :=
  l[column]?

/-- Puts `text` in front of the character at `column`. -/
def insertAt (line : Line) (column : Nat) (text : List Char) : Option Line :=
  match byteOffset line column with
  | none => none
  | some offset => (splitAtByte line offset).map fun parts => parts.1 ++ text ++ parts.2

/-- Takes out the character at `column`. -/
def removeAt (line : Line) (column : Nat) : Option Line :=
  match byteOffset line column with
  | none => none
  | some offset =>
      match splitAtByte line offset with
      | some (before, _ :: after) => some (before ++ after)
      | _ => none

/-- The bytes from `start` up to `stop`, as characters. -/
def byteSlice (line : Line) (start stop : Nat) : Option Line :=
  match splitAtByte line start with
  | none => none
  | some (_, after) => (splitAtByte after (stop - start)).map Prod.fst

/-- The characters from column `start` up to, but not including, column `stop`. Both are moved
into the line, and an excerpt that would end before its start is empty. -/
def slice (line : Line) (start stop : Nat) : Line :=
  let first := (byteOffset line start).getD (byteSize line)
  let last := max ((byteOffset line stop).getD (byteSize line)) first
  (byteSlice line first last).getD []

/-- The characters from column `start` on. -/
def sliceFrom (line : Line) (start : Nat) : Line :=
  slice line start line.length

end Line

end LintRepair
