import LintRepair.Fix.Basic

/-!
Indentation.

An indentation violation names its levels only in its message, such as "incorrect indentation
level 6, expected level should be 4". One of the numbers of the message is the actual level, and
the fix moves the line one space towards the expected one.

* `levels`: the numbers of a message, which are its maximal runs of digits.
* `expectedLevel`: the level to move to, given the actual one.
* `Fix.indent`: one step towards the expected level.
-/

namespace LintRepair

/-- Levels are smaller than this bound, the size of a 64-bit word. -/
def levelBound : Nat := UInt64.size

/-- Whether a character is one of the ten digits. -/
def isDigit (c : Char) : Bool :=
  decide ('0' ≤ c) && decide (c ≤ '9')

/-- The number that a digit appended to a number makes. -/
def appendDigit (n : Nat) (c : Char) : Nat :=
  10 * n + (c.toNat - '0'.toNat)

/-- The numbers of a text, given the number of the digits just read. -/
def numbersFrom : Option Nat → List Char → List Nat
  | none, [] => []
  | some n, [] => [n]
  | pending, c :: rest =>
      if isDigit c then numbersFrom (some (appendDigit (pending.getD 0) c)) rest
      else pending.toList ++ numbersFrom none rest

/-- The numbers of a message in order: the values of its maximal runs of digits. -/
def numbers (message : String) : List Nat :=
  numbersFrom none message.toList

/-- The levels of a message in order. -/
def levels (message : String) : Except FixError (List Nat) :=
  if (numbers message).all (· < levelBound) then .ok (numbers message)
  else .error (.unexpectedMessage .levelTooLarge message)

/-- The distance of two levels. -/
def levelDistance (a b : Nat) : Nat := (a - b) + (b - a)

/-- The level nearest to `actual`, the earliest one of those at the same distance. -/
def nearestLevel (actual : Nat) : List Nat → Option Nat
  | [] => none
  | level :: rest =>
      match nearestLevel actual rest with
      | none => some level
      | some other =>
          if levelDistance level actual ≤ levelDistance other actual then some level
          else some other

/-- The level to move to, among levels of which the actual one is one. Of two levels it is the
other one, and of more the nearest one that differs. -/
def chooseLevel (found : List Nat) (actual : Nat) : Except MessageFault Nat :=
  if found.length < 2 then .error .tooFewLevels
  else if actual ∉ found then .error .actualMissing
  else
    match found.erase actual with
    | [other] => .ok other
    | others =>
        match nearestLevel actual (others.filter (· ≠ actual)) with
        | some level => .ok level
        | none => .error .noOtherLevel

/-- The expected level that a message names beside the actual one. -/
def expectedLevel (message : String) (actual : Nat) : Except FixError Nat :=
  match levels message with
  | .error e => .error e
  | .ok found =>
      match chooseLevel found actual with
      | .ok level => .ok level
      | .error fault => .error (.unexpectedMessage fault message)

/-- One space more or less in front of a column, towards the expected level. -/
def Line.stepIndent (line : Line) (actual expected : Nat) : Option Line :=
  if actual < expected then line.insertAt actual [' ']
  else if expected < actual then line.removeAt (actual - 1)
  else some line

/-- Moves the reported line one space towards its expected level. The reported column gives the
actual level. -/
def Fix.indent : Violation → Buffer → Except FixError Buffer :=
  Fix.onLine fun v line =>
    if line.length < v.columnIndex then .error (columnError v line)
    else
      match expectedLevel v.message v.columnIndex with
      | .error e => .error e
      | .ok expected => orColumnError v line (line.stepIndent v.columnIndex expected)

end LintRepair
