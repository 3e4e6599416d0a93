import LintRepair.Json.Value

/-!
JSON documents.

`Json.parse?` reads a JSON text, strictly: nothing but blanks around the value, no comments, no
trailing commas, no leading zeros, no raw controls in strings. The readers of values have a bound
on their steps, the length of the text, which each of them shortens.
-/

namespace LintRepair.Json

/-- A character that may stand between tokens. -/
def isSpace (c : Char) : Bool := c == ' ' || c == '\n' || c == '\t' || c == '\r'

/-- The text past its leading blanks. -/
def skipSpace (text : List Char) : List Char := text.dropWhile isSpace

/-! ### Strings -/

/-- The value of a hexadecimal digit. -/
def hexDigit? (c : Char) : Option Nat :=
  if '0' ≤ c ∧ c ≤ '9' then some (c.toNat - '0'.toNat)
  else if 'a' ≤ c ∧ c ≤ 'f' then some (c.toNat - 'a'.toNat + 10)
  else if 'A' ≤ c ∧ c ≤ 'F' then some (c.toNat - 'A'.toNat + 10)
  else none

/-- The character that a backslash and a letter stand for. -/
def simpleEscape? (c : Char) : Option Char :=
  if c = '\x22' ∨ c = '\\' ∨ c = '/' then some c
  else if c = 'b' then some '\x08'
  else if c = 'f' then some '\x0c'
  else if c = 'n' then some '\n'
  else if c = 'r' then some '\r'
  else if c = 't' then some '\t'
  else none

/-- Where the reader of a string stands. -/
inductive Escape where
  | plain
  /-- Just past a backslash. -/
  | begun
  /-- Inside a unit of which `left + 1` digits are still to come. -/
  | hex (left value : Nat)

/-- Puts a part in front of what the reader of a string gives. -/
def prepend (part : StringPart) (read : Option (List StringPart × List Char)) :
    Option (List StringPart × List Char) :=
  read.map fun parts => (part :: parts.1, parts.2)

/-- Reads the rest of a string, past its closing quote. -/
def string : Escape → List Char → Option (List StringPart × List Char)
  | _, [] => none
  | .plain, c :: rest =>
      if c = '\x22' then some ([], rest)
      else if c = '\\' then string .begun rest
      else if c.toNat < 0x20 then none
      else prepend (.char c) (string .plain rest)
  | .begun, c :: rest =>
      match simpleEscape? c with
      | some d => prepend (.char d) (string .plain rest)
      | none => if c = 'u' then string (.hex 3 0) rest else none
  | .hex left value, c :: rest =>
      match hexDigit? c, left with
      | none, _ => none
      | some digit, left' + 1 => string (.hex left' (16 * value + digit)) rest
      | some digit, 0 => prepend (.unit (16 * value + digit)) (string .plain rest)

/-! ### Numbers -/

/-- Reads one or more digits. -/
def digits (text : List Char) : Option (List Char × List Char) :=
  match text.takeWhile isDigit with
  | [] => none
  | found => some (found, text.dropWhile isDigit)

/-- Reads the digits of a whole number: a zero alone, or digits that do not begin with one. -/
def wholeDigits : List Char → Option (List Char × List Char)
  | '0' :: rest => some (['0'], rest)
  | text => digits text

/-- Reads the fraction of a number, if there is one. -/
def fraction : List Char → Option (List Char × List Char)
  | '.' :: rest => (digits rest).map fun parts => ('.' :: parts.1, parts.2)
  | text => some ([], text)

/-- Reads a sign, if there is one. -/
def sign : List Char → List Char × List Char
  | c :: rest => if c = '+' ∨ c = '-' then ([c], rest) else ([], c :: rest)
  | [] => ([], [])

/-- Reads the exponent of a number, if there is one. -/
def exponent : List Char → Option (List Char × List Char)
  | c :: rest =>
      if c = 'e' ∨ c = 'E' then
        (digits (sign rest).2).map fun parts => (c :: (sign rest).1 ++ parts.1, parts.2)
      else some ([], c :: rest)
  | [] => some ([], [])

/-- Reads a number without its sign. -/
def unsignedNumber (text : List Char) : Option (List Char × List Char) := do
  let (whole, rest) ← wholeDigits text
  let (part, rest) ← fraction rest
  let (power, rest) ← exponent rest
  return (whole ++ part ++ power, rest)

/-- Reads a number. -/
def number : List Char → Option (List Char × List Char)
  | '-' :: rest => (unsignedNumber rest).map fun parts => ('-' :: parts.1, parts.2)
  | text => unsignedNumber text

/-! ### Values -/

mutual

/-- Reads a value. -/
def value : Nat → List Char → Option (Value × List Char)
  | 0, _ => none
  | fuel + 1, text =>
      match skipSpace text with
      | 'n' :: 'u' :: 'l' :: 'l' :: rest => some (.null, rest)
      | 't' :: 'r' :: 'u' :: 'e' :: rest => some (.bool true, rest)
      | 'f' :: 'a' :: 'l' :: 's' :: 'e' :: rest => some (.bool false, rest)
      | '\x22' :: rest => (string .plain rest).map fun parts => (.string parts.1, parts.2)
      | '[' :: rest =>
          match skipSpace rest with
          | ']' :: rest' => some (.array [], rest')
          | _ => (items fuel rest).map fun parts => (.array parts.1, parts.2)
      | '\x7b' :: rest =>
          match skipSpace rest with
          | '\x7d' :: rest' => some (.object [], rest')
          | _ => (members fuel rest).map fun parts => (.object parts.1, parts.2)
      | text' => (number text').map fun parts => (.number parts.1, parts.2)

/-- Reads the rest of an array that has items, past its closing bracket. -/
def items : Nat → List Char → Option (List Value × List Char)
  | 0, _ => none
  | fuel + 1, text =>
      match value fuel text with
      | none => none
      | some (first, rest) =>
          match skipSpace rest with
          | ']' :: rest' => some ([first], rest')
          | ',' :: rest' => (items fuel rest').map fun parts => (first :: parts.1, parts.2)
          | _ => none

/-- Reads the rest of an object that has members, past its closing brace. -/
def members : Nat → List Char → Option (List (List StringPart × Value) × List Char)
  | 0, _ => none
  | fuel + 1, text =>
      match skipSpace text with
      | '\x22' :: rest =>
          match string .plain rest with
          | none => none
          | some (name, rest') =>
              match skipSpace rest' with
              | ':' :: rest'' =>
                  match value fuel rest'' with
                  | none => none
                  | some (first, after) =>
                      match skipSpace after with
                      | '\x7d' :: after' => some ([(name, first)], after')
                      | ',' :: after' =>
                          (members fuel after').map fun parts =>
                            ((name, first) :: parts.1, parts.2)
                      | _ => none
              | _ => none
      | _ => none

end

/-- The value of a JSON text. -/
def parse? (text : String) : Option Value :=
  match value (2 * text.length + 1) text.toList with
  | none => none
  | some (found, rest) => if (skipSpace rest).isEmpty then some found else none

end LintRepair.Json
