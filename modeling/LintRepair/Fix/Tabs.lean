import LintRepair.Fix.Basic

/-!
Tab stops.

A tab reaches up to the next multiple of the tab width. Expanding it writes that many spaces
instead, so the line looks as before. Display columns are words of 64 bits and wrap around behind
the last one.

* `expandTabsFrom`: the expansion, for any way to sum display columns up.
* `expandTabs`: the line with its tabs expanded from a column on. Earlier tabs stay, and still
  count for where the later stops are.
* `Fix.expandTabs`: expands the reported line, or all of the file from the reported position on.
-/

namespace LintRepair

/-- How much of a file a tab violation is about. -/
inductive TabScope where
  /-- The reported line, from the reported column on. -/
  | line
  /-- The file, from the reported position on. -/
  | file
deriving DecidableEq

/-- The sum of two words of 64 bits. -/
def wordAdd (a b : Nat) : Nat :=
  (a + b) % UInt64.size

/-- How far it is from a display column to the next tab stop. -/
def tabPad (width display : Nat) : Nat :=
  width - display % width

/-- Expands the tabs of a line whose first character has this index and this display column. The
display columns behind it are sums by `add`. -/
def expandTabsFrom (add : Nat → Nat → Nat) (start width : Nat) : Nat → Nat → Line → Line
  | _, _, [] => []
  | index, display, c :: rest =>
      if c = '\t' then
        (if start ≤ index then List.replicate (tabPad width display) ' ' else ['\t']) ++
          expandTabsFrom add start width (index + 1) (add display (tabPad width display)) rest
      else c :: expandTabsFrom add start width (index + 1) (add display 1) rest

/-- Expands the tabs of a line from column `start` on, with words as display columns. A width of
zero counts as one. -/
def Line.expandTabs (line : Line) (start width : Nat) : Line :=
  expandTabsFrom wordAdd start (max width 1) 0 0 line

/-- Whether the lines below the reported one are expanded too. -/
def TabScope.reachesBelow : TabScope → Bool
  | line => false
  | file => true

/-- Expands tabs from the reported position on, on its line or to the end of the file. -/
def Fix.expandTabs (scope : TabScope) (width : Nat) (v : Violation) (buffer : Buffer) :
    Except FixError Buffer :=
  match Fix.onLine (fun v line =>
      if line.length < v.columnIndex then .error (columnError v line)
      else .ok (line.expandTabs v.columnIndex width)) v buffer with
  | .error e => .error e
  | .ok expanded =>
      if scope.reachesBelow then
        .ok (expanded.take v.line ++ (expanded.drop v.line).map (·.expandTabs 0 width))
      else .ok expanded

end LintRepair
