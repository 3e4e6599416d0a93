import LintRepair.Line
import LintRepair.Terminator

/-!
Buffers.

A buffer is the list of a file's lines.

* `Buffer.ofContent`: the lines of a text. A carriage return with a line feed, a line feed or a
  lone carriage return ends a line, and a terminator at the very end starts no further one.
* `Buffer.serialize`: the text with one terminator after every line.
-/

namespace LintRepair

/-- The lines of a file. -/
abbrev Buffer := List Line

namespace Buffer

/-- Puts a character in front of the first line, which is a new one if there is none. -/
def consChar (c : Char) : Buffer → Buffer
  | [] => [[c]]
  | line :: rest => (c :: line) :: rest

/-- The lines of a text. -/
def ofContent : List Char → Buffer
  | [] => []
  | '\r' :: '\n' :: rest => [] :: ofContent rest
  | c :: rest =>
      if c = '\n' ∨ c = '\r' then [] :: ofContent rest else consChar c (ofContent rest)

/-- The text of the lines, each followed by the terminator. -/
def serialize (terminator : Terminator) (buffer : Buffer) : List Char :=
  buffer.flatMap (· ++ terminator.chars)

end Buffer

end LintRepair
