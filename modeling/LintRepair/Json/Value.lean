/-!
JSON values.

A JSON value keeps its strings and numbers as they are written, because what they stand for is only
asked where they are used: a string that is passed over may hold an escape that names no character.

* `Json.textOf?`: the text that the parts of a string stand for.
* `Json.naturalOf?`: the number that a literal without sign, fraction and exponent stands for.
-/

namespace LintRepair.Json

/-- One part of a string. -/
inductive StringPart where
  | char (c : Char)
  /-- A sixteen-bit unit, written as an escape. -/
  | unit (code : Nat)
deriving DecidableEq

/-- A JSON value. -/
inductive Value where
  | null
  | bool (value : Bool)
  | number (literal : List Char)
  | string (parts : List StringPart)
  | array (items : List Value)
  | object (members : List (List StringPart × Value))

/-- Whether a unit is the first half of a pair. -/
def isHighHalf (code : Nat) : Bool := decide (0xD800 ≤ code) && decide (code ≤ 0xDBFF)

/-- Whether a unit is the second half of a pair. -/
def isLowHalf (code : Nat) : Bool := decide (0xDC00 ≤ code) && decide (code ≤ 0xDFFF)

/-- The characters that the parts of a string stand for. Two halves side by side make one
character, and a half on its own makes none. -/
def charsOf? : List StringPart → Option (List Char)
  | [] => some []
  | .char c :: rest => (charsOf? rest).map (c :: ·)
  | .unit high :: .unit low :: rest =>
      if isHighHalf high then
        if isLowHalf low then
          (charsOf? rest).map
            (Char.ofNat (0x10000 + (high - 0xD800) * 0x400 + (low - 0xDC00)) :: ·)
        else none
      else if isLowHalf high then none
      else (charsOf? (.unit low :: rest)).map (Char.ofNat high :: ·)
  | .unit code :: rest =>
      if isHighHalf code || isLowHalf code then none
      else (charsOf? rest).map (Char.ofNat code :: ·)

/-- The text that the parts of a string stand for. -/
def textOf? (parts : List StringPart) : Option String :=
  (charsOf? parts).map String.ofList

/-- Whether a character is a decimal digit. -/
def isDigit (c : Char) : Bool := decide ('0' ≤ c) && decide (c ≤ '9')

/-- The number that a literal stands for, if it is a plain row of digits. -/
def naturalOf? (literal : List Char) : Option Nat :=
  if literal.all isDigit then
    some (literal.foldl (fun n c => 10 * n + (c.toNat - '0'.toNat)) 0)
  else none

namespace Value

/-- The text of a string. -/
def text? : Value → Option String
  | string parts => textOf? parts
  | _ => none

/-- The value of a number that is a plain row of digits. -/
def natural? : Value → Option Nat
  | number literal => naturalOf? literal
  | _ => none

/-- A truth value. -/
def bool? : Value → Option Bool
  | bool value => some value
  | _ => none

/-- The items of an array. -/
def items? : Value → Option (List Value)
  | array items => some items
  | _ => none

end Value

end LintRepair.Json
