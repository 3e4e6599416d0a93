import LintRepair.Command.Arguments
import LintRepair.Json.Layout
import LintRepair.Report
import LintRepair.Rule

/-!
Command output.

The texts that the command prints: summaries in three forms, the list of known keys, and what comes
with a first settings file. Every text is a list of lines.
-/

namespace LintRepair.Command

/-! ### Summaries -/

/-- A text in a terminal colour. -/
def coloured (colour text : String) : String := "\x1b[" ++ colour ++ "m" ++ text ++ "\x1b[0m"

/-- The terminal colours in use. -/
def red : String := "31"
@[inherit_doc red] def green : String := "32"
@[inherit_doc red] def blue : String := "34"

/-- The lines on a repaired file. -/
def outcomeText (outcome : Outcome) : List String :=
  [(if outcome.changed then coloured green "patched" else coloured blue "unchanged") ++ " " ++
      outcome.path.text,
   s!"  {outcome.applied} fixed, {outcome.gated} deferred, {outcome.unresolved.length} unresolved"]

/-- The lines on a failed file. -/
def failureText (failure : Failure) : List String :=
  [coloured red "failed" ++ " " ++ failure.path.text, "  " ++ failure.message]

/-- The summary for people. -/
def summaryText (summary : Summary) : List String :=
  let colour := if summary.hasFailures then red else green
  summary.outcomes.flatMap outcomeText ++ summary.failures.flatMap failureText ++
    ["", coloured colour (s!"Applied {summary.appliedCount} fix(es), " ++
      s!"changed {summary.changedCount} file(s), {summary.failures.length} failed, " ++
      s!"{summary.skipped} skipped")] ++
    if summary.outcomes.any (0 < ·.gated) then
      ["Some fixes were deferred; run the analyzer and stylepatch again."]
    else []

/-- The summary with one line for each file. -/
def summaryCompact (summary : Summary) : List String :=
  (summary.outcomes.map fun outcome =>
    s!"{outcome.path.text}: applied={outcome.applied} deferred={outcome.gated} " ++
      s!"unresolved={outcome.unresolved.length} changed={outcome.changed}") ++
  summary.failures.map fun failure => s!"{failure.path.text}: error {failure.message}"

/-- A repaired file as JSON. -/
def outcomeJson (outcome : Outcome) : Json.Lines :=
  Json.objectLines
    [("path", [Json.quote outcome.path.text]),
     ("applied", [toString outcome.applied]),
     ("gated", [toString outcome.gated]),
     ("unresolved", Json.arrayLines (outcome.unresolved.map fun key => [Json.quote key])),
     ("changed", [if outcome.changed then "true" else "false"])]

/-- A failed file as JSON. -/
def failureJson (failure : Failure) : Json.Lines :=
  Json.objectLines
    [("path", [Json.quote failure.path.text]), ("message", [Json.quote failure.message])]

/-- The summary as JSON. -/
def summaryJson (summary : Summary) : Json.Lines :=
  Json.objectLines
    [("outcomes", Json.arrayLines (summary.outcomes.map outcomeJson)),
     ("failures", Json.arrayLines (summary.failures.map failureJson)),
     ("skipped", [toString summary.skipped])]

/-- The summary in a form. -/
def summaryLines (summary : Summary) : Format → List String
  | .text => summaryText summary
  | .json => summaryJson summary
  | .compact => summaryCompact summary

/-! ### Other texts -/

/-- A text filled up with spaces. -/
def padded (width : Nat) (text : String) : String :=
  text ++ String.ofList (List.replicate (width - text.length) ' ')

/-- The list of the known keys. -/
def ruleLines : List String :=
  ["Available formatters:", "", padded 40 "Violation key" ++ " Formatter",
    String.ofList (List.replicate 64 '-')] ++
  (Rule.table.map fun entry => padded 40 entry.1 ++ " " ++ entry.2.name) ++
  ["", "Violations with any other key are left as reported.",
   "", "Disable a formatter in stylepatch.toml, e.g.:",
   "  [formatters.\"import.unused\"]",
   "  enabled = false"]

/-- The first settings file. -/
def firstSettings : List String :=
  ["# stylepatch configuration",
   "",
   "[patcher]",
   "# Line terminator for written files: \"system\", \"lf\", \"crlf\" or \"cr\"",
   "# line_ending = \"lf\"",
   "",
   "# Tab stop width used when expanding tab characters",
   "tab_width = 4",
   "",
   "# Patch files in parallel",
   "parallel = false",
   "",
   "# Glob patterns of files that are never patched",
   "exclude = [",
   "    \"**/target/**\",",
   "    \"**/generated/**\",",
   "]",
   "",
   "# Formatters are keyed by the violation key they fix",
   "# (see `stylepatch list-formatters`)",
   "",
   "# [formatters.\"import.unused\"]",
   "# enabled = false"]

/-- What is printed when the first settings file is written. -/
def initLines : List String :=
  ["Created stylepatch.toml",
   "",
   "Next steps:",
   "  1. Edit stylepatch.toml to configure formatters",
   "  2. Run: stylepatch apply --report violations.json"]

/-- The name and the version of the command. -/
def versionLines : List String := ["stylepatch 0.1.0"]

/-- How the command is used. -/
def helpLines : List String :=
  ["Fixes mechanical style violations reported by a style analyzer",
   "",
   "Usage: stylepatch [OPTIONS] <COMMAND>",
   "",
   "Commands:",
   "  apply            Apply a violation report to the files it names",
   "  list-formatters  List violation keys with a built-in formatter",
   "  init             Initialize configuration file"]

/-- The text of some lines, each with its line feed. -/
def unlines (lines : List String) : String :=
  String.join (lines.map (· ++ "\n"))

end LintRepair.Command
