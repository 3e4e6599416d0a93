import LintRepair.Patcher
import LintRepair.Script

/-!
Repairing files.

* `Patcher.patchFile`: reads a file, patches its lines, writes it back and notes the new content.
  Nothing is written if a fix fails.
* `Report.pending`: the entries of a report to work on, one for each path, and how many are skipped.
* `Patcher.patchReport`: repairs all files of a report. A file that fails does not stop the others.
* `applyReport`: the same, from settings alone.
-/

namespace LintRepair

/-- Why a file could not be repaired. -/
inductive PatchError where
  /-- The file could not be read or written. -/
  | io (path : Path) (cause : IoError)
  /-- A violation could not be fixed. -/
  | fix (path : Path) (cause : FixError)
deriving DecidableEq

/-- The text of a patch error. -/
def PatchError.message : PatchError → String
  | io path cause => s!"IO error on {path.text}: {cause.message}"
  | fix path cause => s!"Cannot patch {path.text}: {cause.message}"

/-! ### The entries of a report -/

/-- The entries to work on, and how many entries are left alone. -/
structure Pending where
  entries : List FileEntry
  skipped : Nat

/-- Adds an entry: its violations go to the entry with the same path, if there is one. -/
def mergeEntry (entry : FileEntry) : List FileEntry → List FileEntry
  | [] => [entry]
  | first :: rest =>
      if first.path.same entry.path then
        { first with violations := first.violations ++ entry.violations } :: rest
      else first :: mergeEntry entry rest

/-- Whether an entry is left alone: it has no violations, or its path is excluded. -/
def FileEntry.isSkipped (excluded : String → Bool) (entry : FileEntry) : Bool :=
  entry.violations.isEmpty || excluded entry.path.text

/-- The entries of a report to work on. -/
def Report.pending (excluded : String → Bool) (report : Report) : Pending :=
  { entries := (report.files.filter (!·.isSkipped excluded)).foldl (fun l e => mergeEntry e l) []
    skipped := report.files.countP (·.isSkipped excluded) }

namespace Patcher

/-! ### One file -/

/-- A patched content: the bytes to write, and what was done to get there. -/
structure Revision where
  bytes : ByteArray
  patched : Patched

/-- Patches the content of a file. -/
def revise (patcher : Patcher) (path : Path) (violations : List Violation)
    (content : Except IoError ByteArray) : Except PatchError Revision :=
  match content with
  | .error e => .error (.io path e)
  | .ok bytes =>
      match decodeText bytes with
      | .error e => .error (.io path e)
      | .ok text =>
          match patcher.patchLines violations (Buffer.ofContent text.toList) with
          | .error e => .error (.fix path e)
          | .ok patched =>
              .ok ⟨(String.ofList (patcher.serialize patched.lines)).toUTF8, patched⟩

/-- What became of a file that was written. -/
def outcome (path : Path) (patched : Patched) (changed : Bool) : Outcome :=
  ⟨path, patched.applied, patched.gated, patched.unresolved, changed⟩

/-- Reads, patches and writes a file, and notes its new content. -/
def patchFile (patcher : Patcher) (path : Path) (violations : List Violation) :
    Script (Except PatchError Outcome) :=
  .read path fun content =>
    match patcher.revise path violations content with
    | .error e => .done (.error e)
    | .ok revision =>
        .write path revision.bytes fun written =>
          match written with
          | .error e => .done (.error (.io path e))
          | .ok () =>
              .record path (patcher.digest revision.bytes) fun changed =>
                .done (.ok (outcome path revision.patched changed))

/-! ### All files of a report -/

/-- Adds what became of a file to a summary. -/
def addResult (summary : Summary) (path : Path) : Except PatchError Outcome → Summary
  | .ok outcome => { summary with outcomes := summary.outcomes ++ [outcome] }
  | .error e => { summary with failures := summary.failures ++ [⟨path, e.message⟩] }

/-- Repairs files one after the other. -/
def patchEntries (patcher : Patcher) : List FileEntry → Summary → Script Summary
  | [], summary => .done summary
  | entry :: rest, summary =>
      (patcher.patchFile entry.path entry.violations).bind fun result =>
        patcher.patchEntries rest (addResult summary entry.path result)

/-- Repairs all files of a report. -/
def patchReport (patcher : Patcher) (report : Report) : Script Summary :=
  let pending := report.pending patcher.excluded
  (patcher.patchEntries pending.entries ⟨[], [], pending.skipped⟩).bind fun summary =>
    .done summary.sort

end Patcher

/-- Repairs all files of a report as the settings say. -/
def applyReport (settings : Settings) (report : Report) : Except GlobError (Script Summary) :=
  (Patcher.ofSettings settings [] none).map (·.patchReport report)

end LintRepair
