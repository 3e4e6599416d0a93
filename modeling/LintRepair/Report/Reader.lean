import LintRepair.Json.Document
import LintRepair.Report

/-!
Reading reports.

Reports and summaries are read from JSON texts. A record is an object, whose unknown members are
ignored and whose known ones may not be repeated, or an array of its fields in order, of which
those with a default may be missing at the end.

* `Report.parse?`: the report of a JSON text.
* `Summary.parse?`: the summary of a JSON text.
-/

namespace LintRepair

/-- Numbers in a report are smaller than this bound, the size of a 64-bit word. -/
def numberBound : Nat := UInt64.size

/-- The value of a member that may stand in an object once. -/
def uniqueMember (members : List (String × Json.Value)) (name : String) :
    Option (Option Json.Value) :=
  match members.filter (·.1 == name) with
  | [] => some none
  | [member] => some (some member.2)
  | _ => none

/-- The fields of a record with the given names, in that order. -/
def record (names : List String) : Json.Value → Option (List (Option Json.Value))
  | .array items =>
      if items.length ≤ names.length then
        some (items.map some ++ List.replicate (names.length - items.length) none)
      else none
  | .object members => do
      let named ← members.mapM fun member => (Json.textOf? member.1).map (·, member.2)
      names.mapM (uniqueMember named)
  | _ => none

/-- A field that must be there. -/
def required {α : Type} (read : Json.Value → Option α) (value : Option Json.Value) : Option α :=
  value.bind read

/-- A field that has a default. -/
def optional {α : Type} (read : Json.Value → Option α) (missing : α) :
    Option Json.Value → Option α
  | none => some missing
  | some value => read value

/-- A number that fits a 64-bit word. -/
def boundedNatural? (value : Json.Value) : Option Nat :=
  value.natural?.filter (· < numberBound)

/-- A list of values of one kind. -/
def listOf? {α : Type} (read : Json.Value → Option α) (value : Json.Value) : Option (List α) :=
  value.items?.bind (·.mapM read)

/-- A path. -/
def path? (value : Json.Value) : Option Path :=
  value.text?.map Path.mk

/-- A violation. -/
def violation? (value : Json.Value) : Option Violation :=
  match record ["line", "column", "key", "message"] value with
  | some [line, column, key, message] => do
      let line ← required boundedNatural? line
      let column ← required boundedNatural? column
      let key ← required Json.Value.text? key
      let message ← optional Json.Value.text? "" message
      return ⟨line, column, key, message⟩
  | _ => none

/-- The entry of one file. -/
def fileEntry? (value : Json.Value) : Option FileEntry :=
  match record ["path", "violations"] value with
  | some [path, violations] => do
      let path ← required path? path
      let violations ← optional (listOf? violation?) [] violations
      return ⟨path, violations⟩
  | _ => none

/-- A report. -/
def report? (value : Json.Value) : Option Report :=
  match record ["files"] value with
  | some [files] => (optional (listOf? fileEntry?) [] files).map Report.mk
  | _ => none

/-- The report of a JSON text. -/
def Report.parse? (text : String) : Option Report :=
  (Json.parse? text).bind report?

/-- What became of a file. -/
def outcome? (value : Json.Value) : Option Outcome :=
  match record ["path", "applied", "gated", "unresolved", "changed"] value with
  | some [path, applied, gated, unresolved, changed] => do
      let path ← required path? path
      let applied ← required boundedNatural? applied
      let gated ← required boundedNatural? gated
      let unresolved ← required (listOf? Json.Value.text?) unresolved
      let changed ← required Json.Value.bool? changed
      return ⟨path, applied, gated, unresolved, changed⟩
  | _ => none

/-- A failure. -/
def failure? (value : Json.Value) : Option Failure :=
  match record ["path", "message"] value with
  | some [path, message] => do
      let path ← required path? path
      let message ← required Json.Value.text? message
      return ⟨path, message⟩
  | _ => none

/-- A summary. -/
def summary? (value : Json.Value) : Option Summary :=
  match record ["outcomes", "failures", "skipped"] value with
  | some [outcomes, failures, skipped] => do
      let outcomes ← required (listOf? outcome?) outcomes
      let failures ← required (listOf? failure?) failures
      let skipped ← required boundedNatural? skipped
      return ⟨outcomes, failures, skipped⟩
  | _ => none

/-- The summary of a JSON text. -/
def Summary.parse? (text : String) : Option Summary :=
  (Json.parse? text).bind summary?

end LintRepair
