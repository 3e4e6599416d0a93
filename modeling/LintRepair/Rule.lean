import LintRepair.Fix.Imports
import LintRepair.Fix.InLine
import LintRepair.Fix.Indent
import LintRepair.Fix.Tabs

/-!
Rules.

A rule is a kind of defect that can be fixed. The key of a violation names its rule, and keys
without a rule are left alone.

* `Rule.keys`, `Rule.ofKey?`: the known keys and their rules.
* `Rule.side`: where the fix of a rule edits.
* `Rule.permits`: whether a rule fixes a violation in this run. Imports are reordered one at a time,
  and the blank lines between them wait until they are in order.
* `Rule.fix`: the fix itself.
-/

namespace LintRepair

/-- Why an import should not be there. -/
inductive Redundancy where
  | unused
  | duplicate
  /-- The import names what is known without one. -/
  | lang
deriving DecidableEq

/-- A kind of defect that can be fixed. -/
inductive Rule where
  /-- A field or method without `this.`. -/
  | requireThis
  /-- A parameter without `final`. -/
  | finalParameter
  /-- A missing or unwanted space. -/
  | whitespace (spacing : Spacing)
  /-- A wrong level of indentation. -/
  | indentation
  /-- An import out of order. -/
  | importOrder
  /-- A blank line inside a group of imports. -/
  | importGroups
  /-- A missing blank line between groups of imports. -/
  | importSeparation
  /-- An import that should not be there. -/
  | removeImport (redundancy : Redundancy)
  /-- Blanks at the end of a line. -/
  | trailingSpaces
  /-- Tab characters. -/
  | tabs (scope : TabScope)
deriving DecidableEq

/-- Where a violation stands in a list that is in patch order. -/
inductive Standing where
  /-- It is an element of the list, and these elements come after it. -/
  | followedBy (later : List Violation)
  /-- It is not an element of the list. -/
  | outside

/-- The key of imports out of order. -/
def orderingKey : String := "import.ordering"

namespace Rule

/-- The known keys with their rules, in the order in which they are listed. -/
def table : List (String × Rule) :=
  [("require.this.variable", requireThis),
   ("require.this.method", requireThis),
   ("final.parameter", finalParameter),
   ("ws.notPreceded", whitespace .notPreceded),
   ("ws.notFollowed", whitespace .notFollowed),
   ("ws.preceded", whitespace .preceded),
   ("ws.followed", whitespace .followed),
   ("indentation.error", indentation),
   ("indentation.child.error", indentation),
   ("indentation.error.multi", indentation),
   ("indentation.child.error.multi", indentation),
   (orderingKey, importOrder),
   ("import.groups.separated.internally", importGroups),
   ("import.separation", importSeparation),
   ("import.unused", removeImport .unused),
   ("import.duplicate", removeImport .duplicate),
   ("import.lang", removeImport .lang),
   ("Line has trailing spaces.", trailingSpaces),
   ("containsTab", tabs .line),
   ("file.containsTab", tabs .file)]

/-- The known keys. -/
def keys : List String := table.map Prod.fst

/-- The rule that a key names. -/
def ofKey? (key : String) : Option Rule := table.lookup key

/-- The name under which a rule's fix is listed. -/
def name : Rule → String
  | requireThis => "require-this"
  | finalParameter => "final-parameter"
  | whitespace .notPreceded => "whitespace-not-preceded"
  | whitespace .notFollowed => "whitespace-not-followed"
  | whitespace .preceded => "whitespace-preceded"
  | whitespace .followed => "whitespace-followed"
  | indentation => "indentation"
  | importOrder => "import-order"
  | importGroups => "import-groups"
  | importSeparation => "import-separation"
  | removeImport .unused => "unused-import"
  | removeImport .duplicate => "duplicate-import"
  | removeImport .lang => "redundant-import"
  | trailingSpaces => "trailing-spaces"
  | tabs .line => "tab-character"
  | tabs .file => "file-tab-character"

/-- The side of the reported character on which a rule's fix edits. -/
def side : Rule → Side
  | requireThis => .before
  | finalParameter => .before
  | whitespace spacing => spacing.side
  | indentation => .leading
  | _ => .inPlace

/-- The side on which a violation with this key is fixed. -/
def sideOfKey (key : String) : Side :=
  ((ofKey? key).map side).getD .inPlace

/-- Whether the rule fixes a violation in this run, given all violations of the file in patch
order. An import moves only if no later violation has its key, and blank lines between imports
are left alone while any import is out of order. -/
def permits (rule : Rule) (all : List Violation) (v : Violation) (standing : Standing) : Bool :=
  match rule with
  | importOrder =>
      match standing with
      | .followedBy later => later.all (·.key ≠ v.key)
      | .outside => false
  | importGroups => all.all (·.key ≠ orderingKey)
  | importSeparation => all.all (·.key ≠ orderingKey)
  | _ => true

/-- The fix of a rule, tabs being as wide as given. -/
def fix (tabWidth : Nat) (rule : Rule) (v : Violation) (buffer : Buffer) :
    Except FixError Buffer :=
  match rule with
  | requireThis => Fix.qualify .this v buffer
  | finalParameter => Fix.qualify .final v buffer
  | whitespace spacing => Fix.respace spacing v buffer
  | indentation => Fix.indent v buffer
  | importOrder => Fix.reorderImport v buffer
  | importGroups => Fix.joinGroup v buffer
  | importSeparation => Fix.separateGroup v buffer
  | removeImport _ => Fix.removeImport v buffer
  | trailingSpaces => Fix.stripTrailing v buffer
  | tabs scope => Fix.expandTabs scope tabWidth v buffer

end Rule

end LintRepair
