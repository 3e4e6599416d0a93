import LintRepair.Fix.Basic

/-!
Edits at a column.

The edits that touch one line next to the reported character.

* `Qualifier`, `qualify`: puts a missing qualifier in front of the reported character.
* `Spacing`, `respace`: inserts or removes one space next to the reported character.
* `stripTrailing`: removes the blanks at the end of the line.

Every edit looks at what is there first, so an edit that was made before is not made twice.
-/

namespace LintRepair

/-- A qualifier in front of a name or a parameter. -/
inductive Qualifier where
  | this
  | final
deriving DecidableEq

/-- The text of a qualifier. -/
def Qualifier.text : Qualifier → List Char
  | this => ['t', 'h', 'i', 's', '.']
  | final => ['f', 'i', 'n', 'a', 'l', ' ']

/-- What is wrong with the spaces next to a token. -/
inductive Spacing where
  /-- The space before the token is missing. -/
  | notPreceded
  /-- The space after the token is missing. -/
  | notFollowed
  /-- There is a space before the token. -/
  | preceded
  /-- There is a space after the token. -/
  | followed
deriving DecidableEq

/-- The side on which a spacing is put right. -/
def Spacing.side : Spacing → Side
  | notPreceded => .before
  | notFollowed => .after
  | preceded => .before
  | followed => .after

namespace Line

/-- Whether the character at a column is there and blank. -/
def blankAt (line : Line) (column : Nat) : Bool :=
  (line.charAt column).any isBlank

/-- Whether there is a character before a column and it is blank. -/
def blankBefore (line : Line) (column : Nat) : Bool :=
  match column with
  | 0 => false
  | before + 1 => line.blankAt before

/-- Puts a qualifier in front of a column, unless it stands there already. -/
def qualify (qualifier : Qualifier) (line : Line) (column : Nat) : Option Line :=
  if line.slice column (column + qualifier.text.length) = qualifier.text then some line
  else line.insertAt column qualifier.text

/-- The column of the token that is reported at a column. A space put in front of the token at
the same column has moved it one to the right. -/
def tokenColumn (line : Line) (column : Nat) : Nat :=
  if line.blankAt column then column + 1 else column

/-- Puts the spaces next to the token at a column right. -/
def respace (spacing : Spacing) (line : Line) (column : Nat) : Option Line :=
  match spacing with
  | .notPreceded =>
      if line.blankBefore column || line.blankAt column then some line
      else line.insertAt column [' ']
  | .notFollowed =>
      if line.blankAt (line.tokenColumn column + 1) then some line
      else line.insertAt (line.tokenColumn column + 1) [' ']
  | .preceded =>
      match column with
      | 0 => some line
      | before + 1 => if line.charAt before = some ' ' then line.removeAt before else some line
  | .followed =>
      if line.charAt (column + 1) = some ' ' then line.removeAt (column + 1) else some line

end Line

namespace Fix

/-- Puts a qualifier in front of the reported character. -/
def qualify (qualifier : Qualifier) : Violation → Buffer → Except FixError Buffer :=
  onLine fun v line => orColumnError v line (line.qualify qualifier v.columnIndex)

/-- Puts the spaces next to the reported character right. -/
def respace (spacing : Spacing) : Violation → Buffer → Except FixError Buffer :=
  onLine fun v line =>
    if line.length ≤ v.columnIndex then .error (columnError v line)
    else orColumnError v line (line.respace spacing v.columnIndex)

/-- Removes the blanks at the end of the reported line. -/
def stripTrailing : Violation → Buffer → Except FixError Buffer :=
  onLine fun _ line => .ok (trimEnd line)

end Fix

end LintRepair
