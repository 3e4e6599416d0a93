import LintRepair.Statement.Delimiter

/-!
Statements.

A statement is a stretch of a buffer, from its first visible character to its delimiter or to the
end of a line comment that follows the delimiter on the same line.

* `Statement.isImport`: whether the text, past leading comments, begins with the keyword `import`
  and a blank.
* `Statement.spansLine`, `Statement.covers`: which lines and positions a statement takes up.
* `firstSharedLine`: the first statement that begins on the line on which the one before it ends.
-/

namespace LintRepair

/-- A stretch of a buffer with its text. Both ends are included. -/
structure Statement where
  start : Position
  stop : Position
  text : List Char
deriving DecidableEq

/-- What stands in front of a keyword. -/
inductive Lead where
  | gap
  | blockComment
  | lineComment

/-- The text past its leading blanks and comments. There is none if a comment does not end. -/
def afterLead : Lead → List Char → Option (List Char)
  | .gap, [] => some []
  | .gap, '/' :: '*' :: rest => afterLead .blockComment rest
  | .gap, '/' :: '/' :: rest => afterLead .lineComment rest
  | .gap, c :: rest => if isBlank c then afterLead .gap rest else some (c :: rest)
  | .blockComment, [] => none
  | .blockComment, '*' :: '/' :: rest => afterLead .gap rest
  | .blockComment, _ :: rest => afterLead .blockComment rest
  | .lineComment, [] => none
  | .lineComment, c :: rest =>
      if c = '\n' then afterLead .gap rest else afterLead .lineComment rest

/-- Whether a text begins with the keyword `import` and a blank. -/
def startsWithImport : List Char → Bool
  | 'i' :: 'm' :: 'p' :: 'o' :: 'r' :: 't' :: c :: _ => isBlank c
  | _ => false

namespace Statement

/-- The stretch of a buffer between two positions. -/
def between (buffer : Buffer) (start stop : Position) : Statement :=
  ⟨start, stop, buffer.excerpt start stop⟩

/-- Whether the statement declares an import. -/
def isImport (s : Statement) : Bool :=
  (afterLead .gap s.text).any startsWithImport

/-- Whether the statement has no visible character. -/
def isBlank (s : Statement) : Bool :=
  allBlank s.text

/-- Whether a line is one of the statement's lines. -/
def spansLine (s : Statement) (line : Nat) : Bool :=
  decide (s.start.line ≤ line) && decide (line ≤ s.stop.line)

/-- Whether a position lies between the statement's ends. -/
def covers (s : Statement) (p : Position) : Bool :=
  decide (s.start ≤ p) && decide (p ≤ s.stop)

/-- Whether the next statement begins on the line on which this one ends. -/
def sharesLineWith (s next : Statement) : Bool :=
  s.stop.line == next.start.line

end Statement

/-- The index of the first statement that begins on the line on which the one before it ends. -/
def firstSharedLine (statements : List Statement) : Option Nat :=
  ((statements.zip statements.tail).findIdx? fun pair => pair.1.sharesLineWith pair.2).map (· + 1)

/-- Whether no two consecutive statements share a line. -/
def onSeparateLines (statements : List Statement) : Bool :=
  (firstSharedLine statements).isNone

end LintRepair
