import LintRepair.Statement.Delimiter
import LintRepair.Text.Quoted
import LintRepair.Violation

/-!
Fixes.

A fix turns a buffer into one without a reported defect, or says why the violation does not fit
the buffer.

* `FixError`: the causes of a refused fix, with their texts.
* `reportedLine`: the line that a violation points at.
* `Fix.onLine`: the fix that edits just the reported line.
-/

namespace LintRepair

/-- What is wrong with the message of an indentation violation. -/
inductive MessageFault where
  /-- A number of the message is too large for a level. -/
  | levelTooLarge
  /-- The message has fewer than two numbers. -/
  | tooFewLevels
  /-- No number of the message is the actual level. -/
  | actualMissing
  /-- Every number of the message is the actual level. -/
  | noOtherLevel
deriving DecidableEq

/-- The text of a message fault. -/
def MessageFault.reason : MessageFault → String
  | levelTooLarge => "indentation level out of range"
  | tooFewLevels => "expected two indentation levels"
  | actualMissing => "no level matches the actual indentation"
  | noOtherLevel => "no expected level differs from the actual indentation"

/-- Why a violation cannot be fixed. Lines and columns count from one. -/
inductive FixError where
  /-- The buffer has no such line. -/
  | lineOutOfRange (line lines : Nat)
  /-- The reported line has no such column. -/
  | columnOutOfRange (line column width : Nat)
  /-- The statements of the buffer cannot be told apart. -/
  | malformed (cause : ScanError)
  /-- The message does not have the expected form. -/
  | unexpectedMessage (fault : MessageFault) (text : String)
deriving DecidableEq

/-- The text of a fix error. -/
def FixError.message : FixError → String
  | lineOutOfRange line lines => s!"line {line} is out of range (buffer has {lines} lines)"
  | columnOutOfRange line column width =>
      s!"column {column} is out of range on line {line} ({width} characters)"
  | malformed cause => "malformed source: " ++ cause.message
  | unexpectedMessage fault text =>
      "unexpected message format (" ++ fault.reason ++ "): " ++ quoted text

/-- The line that a violation points at. -/
def reportedLine (buffer : Buffer) (v : Violation) : Except FixError Line :=
  if v.line = 0 then .error (.lineOutOfRange v.line buffer.length)
  else
    match buffer[v.lineIndex]? with
    | some line => .ok line
    | none => .error (.lineOutOfRange v.line buffer.length)

/-- The error of a violation whose column is not on its line. -/
def columnError (v : Violation) (line : Line) : FixError :=
  .columnOutOfRange v.line v.column line.length

/-- A line edited at the reported column, or the column error if the edit does not fit. -/
def orColumnError (v : Violation) (line : Line) (edited : Option Line) : Except FixError Line :=
  match edited with
  | some line' => .ok line'
  | none => .error (columnError v line)

namespace Fix

/-- Replaces the reported line by its edited form. -/
def onLine (edit : Violation → Line → Except FixError Line) (v : Violation) (buffer : Buffer) :
    Except FixError Buffer :=
  match reportedLine buffer v with
  | .error e => .error e
  | .ok line =>
      match edit v line with
      | .error e => .error e
      | .ok line' => .ok (buffer.set v.lineIndex line')

end Fix

end LintRepair
