import LintRepair.Digest
import LintRepair.Glob
import LintRepair.Report
import LintRepair.Rule
import LintRepair.Settings

/-!
Patching a buffer.

A patcher applies the violations of one file to its lines: it puts them in patch order, passes over
those without a rule, lets each rule decide whether it applies in this run, and fixes the rest one
after the other. The first fix that fails ends it all.

* `Patcher`: what patching depends on.
* `Patcher.patchLines`: the patched lines with the counts of what was done.
* `Patcher.ofSettings`: the patcher of some settings.
-/

namespace LintRepair

/-- What patching depends on. -/
structure Patcher where
  /-- Whether the rule of a key may be applied. -/
  enabled : String → Bool
  tabWidth : Nat
  terminator : Terminator
  /-- Whether the file with this path text is left alone. -/
  excluded : String → Bool
  /-- The digest by which contents are told apart. -/
  digest : ByteArray → UInt64

/-- A patched buffer with the counts of what was done. -/
structure Patched where
  lines : Buffer
  /-- How many violations were fixed. -/
  applied : Nat
  /-- How many violations their rules put off. -/
  gated : Nat
  /-- The keys of the violations without an enabled rule, in patch order. -/
  unresolved : List String
deriving DecidableEq

namespace Patcher

/-- The rule that a key names, unless it is switched off. -/
def ruleFor (patcher : Patcher) (key : String) : Option Rule :=
  if patcher.enabled key then Rule.ofKey? key else none

/-- Applies one violation, given all of the file and those that come after it. -/
def applyOne (patcher : Patcher) (all : List Violation) (v : Violation) (later : List Violation)
    (state : Patched) : Except FixError Patched :=
  match patcher.ruleFor v.key with
  | none => .ok { state with unresolved := state.unresolved ++ [v.key] }
  | some rule =>
      if rule.permits all v (.followedBy later) then
        match rule.fix patcher.tabWidth v state.lines with
        | .error e => .error e
        | .ok lines => .ok { state with lines, applied := state.applied + 1 }
      else .ok { state with gated := state.gated + 1 }

/-- Applies violations one after the other. -/
def applyAll (patcher : Patcher) (all : List Violation) :
    List Violation → Patched → Except FixError Patched
  | [], state => .ok state
  | v :: later, state =>
      match patcher.applyOne all v later state with
      | .error e => .error e
      | .ok state' => patcher.applyAll all later state'

/-- Applies all violations of a file to its lines. -/
def patchLines (patcher : Patcher) (violations : List Violation) (buffer : Buffer) :
    Except FixError Patched :=
  let sorted := Violation.sortForPatchingBy (fun v => Rule.sideOfKey v.key) violations
  patcher.applyAll sorted sorted ⟨buffer, 0, 0, []⟩

/-- The text of patched lines. -/
def serialize (patcher : Patcher) (buffer : Buffer) : List Char :=
  buffer.serialize patcher.terminator

/-- The patcher of some settings. Further patterns of paths to leave alone come before those of
the settings, and a terminator that is given wins over theirs. -/
def ofSettings (settings : Settings) (exclude : List String) (terminator : Option Terminator) :
    Except GlobError Patcher :=
  match Glob.compileAll (exclude ++ settings.exclude) with
  | .error e => .error e
  | .ok globs => .ok
      { enabled := settings.enabled
        tabWidth := settings.tabWidth
        terminator := terminator.getD settings.terminator
        excluded := fun text => globs.any (·.accepts text)
        digest := Digest.ofBytes }

end Patcher

end LintRepair
