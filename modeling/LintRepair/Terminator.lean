import LintRepair.Text.Blank

/-!
Line terminators.

The text written after every line. A setting names a terminator in any letter case and with blank
ends; anything else falls back to the system's own.
-/

namespace LintRepair

/-- The terminator written after every line. -/
inductive Terminator where
  /-- The terminator of the system the program runs on. -/
  | system
  | crlf
  | lf
  | cr
deriving DecidableEq

namespace Terminator

/-- The terminators in the order in which they are listed. -/
def all : List Terminator := [system, crlf, lf, cr]

/-- The name of a terminator in settings and answers. -/
def name : Terminator → String
  | system => "system"
  | crlf => "crlf"
  | lf => "lf"
  | cr => "cr"

/-- The characters of a terminator. The system's own is a line feed. -/
def chars : Terminator → List Char
  | system => ['\n']
  | crlf => ['\r', '\n']
  | lf => ['\n']
  | cr => ['\r']

/-- The terminator with exactly this name. -/
def ofName? (text : String) : Option Terminator :=
  all.find? fun t => t.name == text

/-- The terminator that a setting names, up to letter case and blank ends. -/
def parse? (text : String) : Option Terminator :=
  ofName? (String.ofList ((trim text.toList).map Char.toLower))

/-- The terminator that an optional setting stands for. -/
def resolve (setting : Option String) : Terminator :=
  (setting.bind parse?).getD system

end Terminator

end LintRepair
