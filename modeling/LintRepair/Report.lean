import LintRepair.Path
import LintRepair.Violation

/-!
Reports and summaries.

A report lists the violations of files, and a summary tells what became of each of them.

* `Report.violationCount`: how many violations a report has.
* `Summary.sort`: the summary in the order of its paths.
* `Summary.unresolvedKeys`: the keys that no rule was applied for, each once and in order.
-/

namespace LintRepair

/-- The violations reported for one path. -/
structure FileEntry where
  path : Path
  violations : List Violation
deriving DecidableEq

/-- The violations of any number of files. -/
structure Report where
  files : List FileEntry
deriving DecidableEq

/-- How many violations a report has. -/
def Report.violationCount (report : Report) : Nat :=
  (report.files.flatMap (·.violations)).length

/-- What became of a file that was repaired. -/
structure Outcome where
  path : Path
  /-- How many violations were fixed. -/
  applied : Nat
  /-- How many violations were put off to a later run. -/
  gated : Nat
  /-- The keys of the violations that no rule was applied for. -/
  unresolved : List String
  /-- Whether the file's new content was a change. -/
  changed : Bool
deriving DecidableEq

/-- A file that could not be repaired, with the text of the error. -/
structure Failure where
  path : Path
  message : String
deriving DecidableEq

/-- What became of all files of a report. -/
structure Summary where
  outcomes : List Outcome
  failures : List Failure
  /-- How many entries of the report were left alone. -/
  skipped : Nat
deriving DecidableEq

namespace Summary

/-- Whether a file failed. -/
def hasFailures (summary : Summary) : Bool :=
  !summary.failures.isEmpty

/-- How many files were changed. -/
def changedCount (summary : Summary) : Nat :=
  summary.outcomes.countP (·.changed)

/-- How many violations were fixed in all files, counted in a 64-bit word. -/
def appliedCount (summary : Summary) : Nat :=
  summary.outcomes.foldr (·.applied + ·) 0 % UInt64.size

/-- The list without its repeated neighbours. -/
def dropRepeats : List String → List String
  | a :: b :: rest => if a = b then dropRepeats (b :: rest) else a :: dropRepeats (b :: rest)
  | short => short

/-- The keys that no rule was applied for, each once and in order. -/
def unresolvedKeys (summary : Summary) : List String :=
  dropRepeats ((summary.outcomes.flatMap (·.unresolved)).mergeSort fun a b => decide (a ≤ b))

/-- The summary with its outcomes and its failures in the order of their paths. -/
def sort (summary : Summary) : Summary :=
  { summary with
    outcomes := summary.outcomes.mergeSort fun a b => (a.path.order b.path).isLE
    failures := summary.failures.mergeSort fun a b => (a.path.order b.path).isLE }

end Summary

end LintRepair
