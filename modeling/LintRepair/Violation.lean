/-!
Violations.

A violation is one style defect reported by an analyzer: where it is, which rule it breaks, and
what the analyzer says about it. Reported lines and columns count from one, and a zero is read
like a one when an index is taken.

Violations are applied from the bottom of a file to its top and from right to left, so an edit
moves only text that no waiting violation points at. Violations at one position are tiered by the
side on which their edit lands.

* `patchOrder`: line descending, then column descending.
* `sortForPatching`: the stable sort by `patchOrder`.
* `sortForPatchingBy`: the stable sort by `patchOrder` and then by side.
-/

namespace LintRepair

/-- One reported style defect. -/
structure Violation where
  /-- The reported line, counted from one. -/
  line : Nat
  /-- The reported column, counted from one. -/
  column : Nat
  /-- The key of the broken rule. -/
  key : String
  /-- The analyzer's message. -/
  message : String
deriving DecidableEq

/-- The side of the reported character on which an edit lands. -/
inductive Side where
  /-- Right of the reported character. -/
  | after
  /-- At the reported character without moving it, or the line as a whole. -/
  | inPlace
  /-- Directly left of the reported character, which moves. -/
  | before
  /-- The leading blanks of the line. -/
  | leading
deriving DecidableEq

/-- The rank of a side among edits at one position, the first to run being zero. -/
def Side.rank : Side → Nat
  | after => 0
  | inPlace => 1
  | before => 2
  | leading => 3

namespace Violation

/-- The reported line, counted from zero. -/
def lineIndex (v : Violation) : Nat := v.line - 1

/-- The reported column, counted from zero. -/
def columnIndex (v : Violation) : Nat := v.column - 1

/-- The violation as one line of text. -/
def describe (v : Violation) : String :=
  s!"{v.line}:{v.column}: [{v.key}] {v.message}"

/-- The order in which two violations are applied. -/
def patchOrder (a b : Violation) : Ordering :=
  (compare b.line a.line).then (compare b.column a.column)

/-- The order of two violations whose keys edit on the given sides. -/
def patchOrderBy (side : Violation → Side) (a b : Violation) : Ordering :=
  (patchOrder a b).then (compare (side a).rank (side b).rank)

/-- The violations in patch order; those at one position keep their order. -/
def sortForPatching (violations : List Violation) : List Violation :=
  violations.mergeSort fun a b => (patchOrder a b).isLE

/-- The violations in patch order, tiered by side at each position; within one tier they keep
their order. -/
def sortForPatchingBy (side : Violation → Side) (violations : List Violation) :
    List Violation :=
  violations.mergeSort fun a b => (patchOrderBy side a b).isLE

end Violation

end LintRepair
