import LintRepair.Terminator
import LintRepair.Toml.Document

/-!
Settings.

The settings of the program, read from a TOML document. Everything has a default, unknown keys are
ignored, and a value of the wrong type makes the whole document unreadable.

* `Settings.parse?`: the settings of a document.
* `Settings.enabled`: whether the rule of a key may be applied.
* `Settings.terminator`: the terminator that the settings name.
-/

namespace LintRepair

/-- The settings of the program. -/
structure Settings where
  /-- The name of the line terminator. -/
  lineEnding : Option String
  /-- The distance of two tab stops. -/
  tabWidth : Nat
  /-- Whether files may be worked on at the same time. -/
  parallel : Bool
  /-- Patterns of the paths that are left alone. -/
  exclude : List String
  /-- The keys whose rules are switched on or off. -/
  rules : List (String × Option Bool)
deriving DecidableEq

namespace Settings

/-- The settings of an empty document. -/
def default : Settings := ⟨none, 4, false, [], []⟩

/-- Whether the rule of a key may be applied. -/
def enabled (settings : Settings) (key : String) : Bool :=
  ((settings.rules.lookup key).bind id).getD true

/-- The terminator that the settings name. -/
def terminator (settings : Settings) : Terminator :=
  Terminator.resolve settings.lineEnding

/-! ### Reading -/

/-- The fields of a record, by name and by index. A table gives them by name and an array by
index; a date has none of them. -/
def fields : Toml.Value → Option (String → Nat → Option Toml.Value)
  | .table _ entries => some fun name _ => entries.lookup name
  | .array items => some fun _ index => items[index]?
  | .tables items => some fun _ index => items[index]?.map (Toml.Value.table .header)
  | .date => some fun _ _ => none
  | _ => none

/-- A text. -/
def text? : Toml.Value → Option String
  | .string text => some text
  | _ => none

/-- A number that is not negative. -/
def natural? : Toml.Value → Option Nat
  | .integer (.ofNat n) => some n
  | _ => none

/-- A truth value. -/
def bool? : Toml.Value → Option Bool
  | .bool b => some b
  | _ => none

/-- A list of texts. -/
def texts? : Toml.Value → Option (List String)
  | .array items => items.mapM text?
  | _ => none

/-- A field with a default for when it is missing. -/
def field {α : Type} (read : Toml.Value → Option α) (missing : α) : Option Toml.Value → Option α
  | none => some missing
  | some value => read value

/-- The switch of one rule. -/
def ruleSwitch? (value : Toml.Value) : Option (Option Bool) :=
  match fields value with
  | none => none
  | some get => field (fun v => (bool? v).map some) none (get "enabled" 0)

/-- The switches of all rules, by key. -/
def rules? : Toml.Value → Option (List (String × Option Bool))
  | .table _ entries =>
      entries.mapM fun entry => (ruleSwitch? entry.2).map fun switch => (entry.1, switch)
  | _ => none

/-- The settings of a record without rules. -/
def patcher? (value : Toml.Value) : Option Settings :=
  match fields value with
  | none => none
  | some get => do
      let lineEnding ← field (fun v => (text? v).map some) none (get "line_ending" 0)
      let tabWidth ← field natural? default.tabWidth (get "tab_width" 1)
      let parallel ← field bool? default.parallel (get "parallel" 2)
      let exclude ← field texts? default.exclude (get "exclude" 3)
      return ⟨lineEnding, tabWidth, parallel, exclude, []⟩

/-- The settings that a document's root table holds. -/
def ofEntries? (entries : Toml.Entries) : Option Settings := do
  let settings ← field patcher? default (entries.lookup "patcher")
  let rules ← field rules? [] (entries.lookup "formatters")
  return { settings with rules }

/-- The settings of a document. -/
def parse? (text : String) : Option Settings :=
  (Toml.parse? text).bind ofEntries?

end Settings

end LintRepair
