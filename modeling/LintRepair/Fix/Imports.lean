import LintRepair.Fix.Basic
import LintRepair.Statement.Scan

/-!
Import statements and the blank lines between them.

* `Fix.reorderImport`: one step towards sorted imports. If two statements share a line, the first
  such line is split; otherwise the reported import moves in front of the import before it.
* `Fix.removeImport`: cuts the reported import statement out of the buffer.
* `Fix.joinGroup`: removes a blank line above the reported import, which is part of a group.
* `Fix.separateGroup`: puts an empty line above the reported import, which begins a group.

The last two look at the line above the reported one and leave the first line of a buffer alone.
-/

namespace LintRepair

namespace Buffer

/-- Splits the line on which the second statement begins after the end of the first one. -/
def splitBetween (buffer : Buffer) (first second : Statement) : Buffer :=
  let index := second.start.line
  let shared := (buffer[index]?).getD []
  buffer.take index ++
    [trimEnd (shared.slice 0 (first.stop.column + 1)),
      trim (shared.sliceFrom second.start.column)] ++
    buffer.drop (index + 1)

/-- Moves the lines of a statement in front of the first line of the one before it. -/
def moveBefore (buffer : Buffer) (s previous : Statement) : Buffer :=
  let target := previous.start.line
  buffer.take target ++
    (buffer.drop s.start.line).take (s.stop.line + 1 - s.start.line) ++
    (buffer.drop target).take (s.start.line - target) ++
    buffer.drop (s.stop.line + 1)

/-- Cuts a statement out. The text around it on its first and last line is joined into one line,
which goes too if it is blank. -/
def cutStatement (buffer : Buffer) (s : Statement) : Buffer :=
  let head := ((buffer[s.start.line]?).getD []).slice 0 s.start.column
  let tail := ((buffer[s.stop.line]?).getD []).sliceFrom (s.stop.column + 1)
  let joined := if allBlank head then head ++ trimStart tail else trimEnd head ++ tail
  buffer.take s.start.line ++ (if allBlank joined then [] else [joined]) ++
    buffer.drop (s.stop.line + 1)

end Buffer

/-- The statement that moves when a line is reported, with the one it moves in front of: the first
statement on the line, if it and the one before it are imports. -/
def movable (found : List Statement) (line : Nat) : Option (Statement × Statement) :=
  match found.findIdx? (·.spansLine line) with
  | some (before + 1) =>
      match found[before]?, found[before + 1]? with
      | some previous, some s =>
          if !s.isBlank && s.isImport && previous.isImport then some (s, previous) else none
      | _, _ => none
  | _ => none

/-- The import that is removed when a position is reported: of the imports on its line the one
that covers the position, and otherwise the first one. -/
def removable (found : List Statement) (p : Position) : Option Statement :=
  let onLine := found.filter fun s => s.isImport && s.spansLine p.line
  (onLine.find? (·.covers p)).or onLine.head?

/-- The two statements that share the first shared line. -/
def sharingPair (found : List Statement) : Option (Statement × Statement) :=
  match firstSharedLine found with
  | some (first + 1) =>
      match found[first]?, found[first + 1]? with
      | some s, some next => some (s, next)
      | _, _ => none
  | _ => none

/-- The line above a violation and whether it is blank, if there is one. -/
def blankAbove (buffer : Buffer) (v : Violation) : Option Bool :=
  if v.line < 2 then none else buffer[v.line - 2]?.map allBlank

namespace Fix

/-- Runs a fix on the statements of a buffer, once the reported line is known to exist. -/
def onStatements (fix : List Statement → Violation → Buffer → Buffer) (v : Violation)
    (buffer : Buffer) : Except FixError Buffer :=
  match reportedLine buffer v with
  | .error e => .error e
  | .ok _ =>
      match statements buffer with
      | .error e => .error (.malformed e)
      | .ok found => .ok (fix found v buffer)

/-- Splits the first shared line, or moves the reported import in front of the one before it. -/
def reorderImport : Violation → Buffer → Except FixError Buffer :=
  onStatements fun found v buffer =>
    match sharingPair found with
    | some (first, second) => buffer.splitBetween first second
    | none =>
        match movable found v.lineIndex with
        | some (s, previous) => buffer.moveBefore s previous
        | none => buffer

/-- Cuts the reported import out of the buffer. -/
def removeImport : Violation → Buffer → Except FixError Buffer :=
  onStatements fun found v buffer =>
    match removable found ⟨v.lineIndex, v.columnIndex⟩ with
    | some s => buffer.cutStatement s
    | none => buffer

/-- Removes the line above the reported one if it is blank. -/
def joinGroup (v : Violation) (buffer : Buffer) : Except FixError Buffer :=
  match reportedLine buffer v with
  | .error e => .error e
  | .ok _ =>
      if blankAbove buffer v = some true then .ok (buffer.eraseIdx (v.line - 2)) else .ok buffer

/-- Puts an empty line above the reported one unless the line there is blank. -/
def separateGroup (v : Violation) (buffer : Buffer) : Except FixError Buffer :=
  match reportedLine buffer v with
  | .error e => .error e
  | .ok _ =>
      if blankAbove buffer v = some false then .ok (buffer.insertIdx v.lineIndex [])
      else .ok buffer

end Fix

end LintRepair
