/-!
JSON output.

A JSON text laid out over lines: every item and every member has lines of its own, two spaces
further in than what holds it, and an empty list is written as a pair of brackets.
-/

namespace LintRepair.Json

/-- The lines of a JSON text. -/
abbrev Lines := List String

/-- One character of a string. -/
def escapeChar (c : Char) : List Char :=
  if c = '\x22' ∨ c = '\\' then ['\\', c]
  else if c = '\x08' then ['\\', 'b']
  else if c = '\t' then ['\\', 't']
  else if c = '\n' then ['\\', 'n']
  else if c = '\x0c' then ['\\', 'f']
  else if c = '\r' then ['\\', 'r']
  else if c.toNat < 0x20 then
    ['\\', 'u', '0', '0', Nat.digitChar (c.toNat / 16), Nat.digitChar (c.toNat % 16)]
  else [c]

/-- A text between quotes. -/
def quote (text : String) : String :=
  String.ofList (['\x22'] ++ text.toList.flatMap escapeChar ++ ['\x22'])

/-- Adds a text to the last line. -/
def endWith (mark : String) : Lines → Lines
  | [] => []
  | [last] => [last ++ mark]
  | first :: rest => first :: endWith mark rest

/-- Adds a text to the start of the first line. -/
def startWith (mark : String) : Lines → Lines
  | [] => []
  | first :: rest => (mark ++ first) :: rest

/-- The lines of several values, with commas between them. -/
def separate : List Lines → Lines
  | [] => []
  | [last] => last
  | first :: rest => endWith "," first ++ separate rest

/-- The lines of several values between two brackets. -/
def enclose (opening closing : String) (parts : List Lines) : Lines :=
  if parts.isEmpty then [opening ++ closing]
  else [opening] ++ (separate parts).map ("  " ++ ·) ++ [closing]

/-- The lines of an array. -/
def arrayLines (items : List Lines) : Lines := enclose "[" "]" items

/-- The lines of an object. -/
def objectLines (members : List (String × Lines)) : Lines :=
  enclose "\x7b" "\x7d" (members.map fun member => startWith (quote member.1 ++ ": ") member.2)

end LintRepair.Json
