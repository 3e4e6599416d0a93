import LintRepair.Toml.Value

/-!
Settings documents: strings, keys and numbers.

The readers of the smallest parts of a TOML document. Each takes the text that is left and gives
what it read with the text after it, or nothing if the text does not begin that way.
-/

namespace LintRepair.Toml

/-! ### Blanks, comments and line ends -/

/-- A space or a tab. -/
def isGap (c : Char) : Bool := c == ' ' || c == '\t'

/-- The text past its leading spaces and tabs. -/
def skipGap (text : List Char) : List Char := text.dropWhile isGap

/-- A character that may stand in a comment: a tab or anything that is no control. -/
def isCommentChar (c : Char) : Bool :=
  c == '\t' || (decide (0x20 ≤ c.toNat) && c.toNat != 0x7F)

/-- The text past a line feed, which a carriage return may precede. -/
def newline : List Char → Option (List Char)
  | '\n' :: rest => some rest
  | '\r' :: '\n' :: rest => some rest
  | _ => none

/-- The text past a comment, if one begins it. -/
def skipComment : List Char → List Char
  | '#' :: rest => rest.dropWhile isCommentChar
  | text => text

/-- The text past the end of a line, which may hold blanks and a comment. -/
def lineEnd (text : List Char) : Option (List Char) :=
  match skipComment (skipGap text) with
  | [] => some []
  | rest => newline rest

/-- The text past blanks, line ends and comments; `inComment` says whether it begins inside a
comment. -/
def skipLines : Bool → List Char → Option (List Char)
  | false, '\r' :: '\n' :: rest => skipLines false rest
  | false, c :: rest =>
      if isGap c || c == '\n' then skipLines false rest
      else if c == '#' then skipLines true rest
      else some (c :: rest)
  | false, [] => some []
  | true, '\r' :: '\n' :: rest => skipLines false rest
  | true, c :: rest =>
      if c == '\n' then skipLines false rest
      else if isCommentChar c then skipLines true rest
      else none
  | true, [] => none

/-! ### Strings -/

/-- The value of a hexadecimal digit. -/
def hexDigit? (c : Char) : Option Nat :=
  if '0' ≤ c ∧ c ≤ '9' then some (c.toNat - '0'.toNat)
  else if 'a' ≤ c ∧ c ≤ 'f' then some (c.toNat - 'a'.toNat + 10)
  else if 'A' ≤ c ∧ c ≤ 'F' then some (c.toNat - 'A'.toNat + 10)
  else none

/-- The character with a code point. -/
def charOfCode? (code : Nat) : Option Char :=
  if code.isValidChar then some (Char.ofNat code) else none

/-- The character that a backslash and a letter stand for. -/
def simpleEscape? (c : Char) : Option Char :=
  if c = 'b' then some '\x08'
  else if c = 't' then some '\t'
  else if c = 'n' then some '\n'
  else if c = 'f' then some '\x0c'
  else if c = 'r' then some '\r'
  else if c = '\x22' then some '\x22'
  else if c = '\\' then some '\\'
  else none

/-- Where the reader of a string with escapes stands. -/
inductive Escape where
  /-- Outside an escape; `skipping` after a line end that a backslash hides. -/
  | plain (skipping : Bool)
  /-- Just past a backslash. -/
  | begun
  /-- Inside a code point of which `left + 1` digits are still to come. -/
  | hex (left value : Nat)
  /-- Past a backslash and blanks, before the line end. -/
  | hiding

/-- Puts characters in front of what a string reader gives. -/
def prepend (chars : List Char) (read : Option (List Char × List Char)) :
    Option (List Char × List Char) :=
  read.map fun parts => (chars ++ parts.1, parts.2)

/-- Reads the rest of a string between double quotes, on one line or, between three of them, on
many. -/
def basicString (many : Bool) : Escape → List Char → Option (List Char × List Char)
  | _, [] => none
  | .begun, c :: rest =>
      match simpleEscape? c with
      | some d => prepend [d] (basicString many (.plain false) rest)
      | none =>
          if c = 'u' then basicString many (.hex 3 0) rest
          else if c = 'U' then basicString many (.hex 7 0) rest
          else if many && isGap c then basicString many .hiding rest
          else if many && c == '\n' then basicString many (.plain true) rest
          else if many && c == '\r' then
            match rest with
            | '\n' :: rest' => basicString many (.plain true) rest'
            | _ => none
          else none
  | .hex left value, c :: rest =>
      match hexDigit? c with
      | none => none
      | some digit =>
          match left with
          | left' + 1 => basicString many (.hex left' (16 * value + digit)) rest
          | 0 =>
              match charOfCode? (16 * value + digit) with
              | some d => prepend [d] (basicString many (.plain false) rest)
              | none => none
  | .hiding, '\r' :: '\n' :: rest => basicString many (.plain true) rest
  | .hiding, c :: rest =>
      if isGap c then basicString many .hiding rest
      else if c = '\n' then basicString many (.plain true) rest
      else none
  | .plain skipping, '\r' :: '\n' :: rest =>
      if !many then none
      else if skipping then basicString many (.plain true) rest
      else prepend ['\n'] (basicString many (.plain false) rest)
  | .plain skipping, c :: rest =>
      if c = '\x22' then
        if !many then some ([], rest)
        else
          match rest with
          | '\x22' :: '\x22' :: '\x22' :: '\x22' :: after => some (['\x22', '\x22'], after)
          | '\x22' :: '\x22' :: '\x22' :: after => some (['\x22'], after)
          | '\x22' :: '\x22' :: after => some ([], after)
          | _ => prepend [c] (basicString many (.plain false) rest)
      else if c = '\\' then basicString many .begun rest
      else if skipping && (isGap c || c == '\n') then basicString many (.plain true) rest
      else if isCommentChar c || (many && c == '\n') then
        prepend [c] (basicString many (.plain false) rest)
      else none

/-- Reads the rest of a string between single quotes, on one line or, between three of them, on
many. Nothing is escaped in it. -/
def literalString (many : Bool) : List Char → Option (List Char × List Char)
  | [] => none
  | '\r' :: '\n' :: rest => if many then prepend ['\n'] (literalString many rest) else none
  | c :: rest =>
      if c = '\x27' then
        if !many then some ([], rest)
        else
          match rest with
          | '\x27' :: '\x27' :: '\x27' :: '\x27' :: after => some (['\x27', '\x27'], after)
          | '\x27' :: '\x27' :: '\x27' :: after => some (['\x27'], after)
          | '\x27' :: '\x27' :: after => some ([], after)
          | _ => prepend [c] (literalString many rest)
      else if isCommentChar c || (many && c == '\n') then prepend [c] (literalString many rest)
      else none

/-- The text without a line end at its start. -/
def dropNewline (text : List Char) : List Char :=
  (newline text).getD text

/-- Reads a string of any form. -/
def string : List Char → Option (String × List Char)
  | '\x22' :: '\x22' :: '\x22' :: rest =>
      (basicString true (.plain false) (dropNewline rest)).map fun parts =>
        (String.ofList parts.1, parts.2)
  | '\x22' :: rest =>
      (basicString false (.plain false) rest).map fun parts => (String.ofList parts.1, parts.2)
  | '\x27' :: '\x27' :: '\x27' :: rest =>
      (literalString true (dropNewline rest)).map fun parts => (String.ofList parts.1, parts.2)
  | '\x27' :: rest =>
      (literalString false rest).map fun parts => (String.ofList parts.1, parts.2)
  | _ => none

/-! ### Keys -/

/-- A character of a key without quotes. -/
def isBareKeyChar (c : Char) : Bool :=
  c.isAlphanum || c == '_' || c == '-'

/-- Reads one part of a key. -/
def keyPart : List Char → Option (String × List Char)
  | '\x22' :: rest =>
      (basicString false (.plain false) rest).map fun parts => (String.ofList parts.1, parts.2)
  | '\x27' :: rest =>
      (literalString false rest).map fun parts => (String.ofList parts.1, parts.2)
  | text =>
      match text.takeWhile isBareKeyChar with
      | [] => none
      | bare => some (String.ofList bare, text.dropWhile isBareKeyChar)

/-- Reads the parts of a dotted key, with the blanks around them, up to `fuel` many. -/
def keyParts : Nat → List Char → Option (List String × List Char)
  | 0, _ => none
  | fuel + 1, text =>
      match keyPart (skipGap text) with
      | none => none
      | some (part, rest) =>
          match skipGap rest with
          | '.' :: rest' =>
              (keyParts fuel rest').map fun parts => (part :: parts.1, parts.2)
          | rest' => some ([part], rest')

/-- A value may lie inside fewer than this many arrays and inline tables, and a key has fewer parts
than this. -/
def nestingLimit : Nat := 80

/-- Reads a dotted key: the parts before the last one, and the last one. -/
def key (text : List Char) : Option ((List String × String) × List Char) :=
  match keyParts (nestingLimit - 1) text with
  | none => none
  | some (parts, rest) => parts.getLast?.map fun last => ((parts.dropLast, last), rest)

/-! ### Numbers -/

/-- Reads more digits after the first one; an underscore may stand between two digits. -/
def moreDigits (digit? : Char → Option Nat) : List Char → List Nat × List Char
  | '_' :: c :: rest =>
      match digit? c with
      | some d => ((d :: (moreDigits digit? rest).1), (moreDigits digit? rest).2)
      | none => ([], '_' :: c :: rest)
  | c :: rest =>
      match digit? c with
      | some d => ((d :: (moreDigits digit? rest).1), (moreDigits digit? rest).2)
      | none => ([], c :: rest)
  | [] => ([], [])

/-- Reads one or more digits. -/
def digits (digit? : Char → Option Nat) : List Char → Option (List Nat × List Char)
  | [] => none
  | c :: rest =>
      match digit? c with
      | some d => some (d :: (moreDigits digit? rest).1, (moreDigits digit? rest).2)
      | none => none

/-- The number that digits make in a base. -/
def numeral (base : Nat) (ds : List Nat) : Nat :=
  ds.foldl (fun n d => base * n + d) 0

/-- The value of a digit in a base of at most ten. -/
def digitBelow? (base : Nat) (c : Char) : Option Nat :=
  if '0' ≤ c ∧ c.toNat < '0'.toNat + base then some (c.toNat - '0'.toNat) else none

/-- Reads the digits of a whole number: a zero alone, or digits that do not begin with one. -/
def wholeDigits : List Char → Option (List Nat × List Char)
  | '0' :: rest => some ([0], rest)
  | text => digits (digitBelow? 10) text

/-- Reads a sign: whether it is a minus, and the text after it. -/
def sign : List Char → Bool × List Char
  | '+' :: rest => (false, rest)
  | '-' :: rest => (true, rest)
  | text => (false, text)

/-- A whole number must fit a signed 64-bit word. -/
def fitWord (value : Int) : Option Int :=
  if Int64.minValue.toInt ≤ value ∧ value ≤ Int64.maxValue.toInt then some value else none

/-- Reads a whole number after the mark of its base. -/
def basedInteger (base : Nat) (digit? : Char → Option Nat) (text : List Char) :
    Option (Int × List Char) :=
  match digits digit? text with
  | none => none
  | some (ds, rest) => (fitWord (numeral base ds)).map fun value => (value, rest)

/-- Reads a whole number. -/
def integer : List Char → Option (Int × List Char)
  | '0' :: 'x' :: rest => basedInteger 16 hexDigit? rest
  | '0' :: 'o' :: rest => basedInteger 8 (digitBelow? 8) rest
  | '0' :: 'b' :: rest => basedInteger 2 (digitBelow? 2) rest
  | text =>
      match wholeDigits (sign text).2 with
      | none => none
      | some (ds, rest) =>
          let size : Int := numeral 10 ds
          (fitWord (if (sign text).1 then -size else size)).map fun value => (value, rest)

/-- A number with a fraction or an exponent: its digits, followed by a power of ten. -/
structure Decimal where
  negative : Bool
  digits : List Nat
  power : Int

/-- The least number that is nearer to infinity than to any double. -/
def doubleBound : Nat := (1 <<< 1024) - (1 <<< 970)

/-- Whether a positive number is too large for a double. -/
def Decimal.tooLarge (d : Decimal) : Bool :=
  let size := numeral 10 d.digits
  if d.negative || size == 0 then false
  else
    match d.power with
    | .ofNat up => decide (309 ≤ up) || decide (doubleBound ≤ size * Nat.pow 10 up)
    | .negSucc down =>
        decide (down < d.digits.length) && decide (doubleBound * Nat.pow 10 (down + 1) ≤ size)

/-- Reads an exponent. -/
def exponent : List Char → Option (Int × List Char)
  | c :: rest =>
      if c = 'e' ∨ c = 'E' then
        (digits (digitBelow? 10) (sign rest).2).map fun parts =>
          (if (sign rest).1 then -numeral 10 parts.1 else numeral 10 parts.1, parts.2)
      else none
  | [] => none

/-- Reads a number with a fraction or an exponent. -/
def decimal (text : List Char) : Option (Decimal × List Char) :=
  match wholeDigits (sign text).2 with
  | none => none
  | some (whole, '.' :: rest) =>
      match digits (digitBelow? 10) rest with
      | none => none
      | some (part, rest') =>
          let (power, rest'') := (exponent rest').getD (0, rest')
          some (⟨(sign text).1, whole ++ part, power - part.length⟩, rest'')
  | some (whole, rest) =>
      (exponent rest).map fun parts => (⟨(sign text).1, whole, parts.1⟩, parts.2)

/-- The text past an infinity or a non-number. -/
def special (text : List Char) : Option (List Char) :=
  match (sign text).2 with
  | 'i' :: 'n' :: 'f' :: rest => some rest
  | 'n' :: 'a' :: 'n' :: rest => some rest
  | _ => none

/-- Reads a number of any form. -/
def number (text : List Char) : Option (Value × List Char) :=
  match special text, decimal text with
  | some rest, _ => some (.float, rest)
  | none, some (d, rest) => if d.tooLarge then none else some (.float, rest)
  | none, none => (integer text).map fun parts => (.integer parts.1, parts.2)

/-! ### Dates and times -/

/-- Reads a number of exactly `count` digits that lies between two bounds. -/
def fixedDigits (count low high : Nat) (text : List Char) : Option (Nat × List Char) :=
  match (text.take count).mapM (digitBelow? 10) with
  | none => none
  | some ds =>
      if ds.length = count ∧ low ≤ numeral 10 ds ∧ numeral 10 ds ≤ high then
        some (numeral 10 ds, text.drop count)
      else none

/-- How many days a month has. -/
def daysInMonth (year month : Nat) : Nat :=
  if month = 2 then
    if year % 4 = 0 ∧ (year % 100 ≠ 0 ∨ year % 400 = 0) then 29 else 28
  else if month = 4 ∨ month = 6 ∨ month = 9 ∨ month = 11 then 30
  else 31

/-- The text past one given character. -/
def past (c : Char) : List Char → Option (List Char)
  | d :: rest => if d = c then some rest else none
  | [] => none

/-- The text past a day, such as 1979-05-27. -/
def fullDate (text : List Char) : Option (List Char) := do
  let (year, rest) ← fixedDigits 4 0 9999 text
  let rest ← past '-' rest
  let (month, rest) ← fixedDigits 2 1 12 rest
  let rest ← past '-' rest
  let (_, rest) ← fixedDigits 2 1 (daysInMonth year month) rest
  return rest

/-- The text past a time of day, such as 07:32:00.5. -/
def partialTime (text : List Char) : Option (List Char) := do
  let (_, rest) ← fixedDigits 2 0 23 text
  let rest ← past ':' rest
  let (_, rest) ← fixedDigits 2 0 59 rest
  let rest ← past ':' rest
  let (_, rest) ← fixedDigits 2 0 60 rest
  match rest with
  | '.' :: c :: more =>
      if (digitBelow? 10 c).isSome then
        return more.dropWhile fun d => (digitBelow? 10 d).isSome
      else return rest
  | _ => return rest

/-- The text past an offset from universal time, if one begins it. -/
def timeOffset (text : List Char) : Option (List Char) :=
  match text with
  | c :: rest =>
      if c = 'Z' ∨ c = 'z' then some rest
      else if c = '+' ∨ c = '-' then do
        let (_, rest) ← fixedDigits 2 0 23 rest
        let rest ← past ':' rest
        let (_, rest) ← fixedDigits 2 0 59 rest
        return rest
      else none
  | [] => none

/-- The text past the time of day that follows a day, if there is one. -/
def dayTime (text : List Char) : Option (List Char) :=
  match text with
  | c :: rest =>
      if c = 'T' ∨ c = 't' ∨ c = ' ' then
        (partialTime rest).map fun after => (timeOffset after).getD after
      else none
  | [] => none

/-- The text past a date, a time or both. -/
def dateTime (text : List Char) : Option (List Char) :=
  match fullDate text with
  | some rest => some ((dayTime rest).getD rest)
  | none => partialTime text

end LintRepair.Toml
