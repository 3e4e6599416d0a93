/-!
Blank characters.

Which characters count as blank space, and the trimming operations that follow from it.

* `isBlank`: the 25 characters with the Unicode property White_Space.
* `trimStart`, `trimEnd`, `trim`: a text without its blank ends.
* `allBlank`: a text made of blank characters only, the empty one included.
-/

namespace LintRepair

/-- The code points of blank characters, as inclusive ranges in increasing order. -/
def blankRanges : List (Nat × Nat) :=
  [(0x0009, 0x000D), (0x0020, 0x0020), (0x0085, 0x0085), (0x00A0, 0x00A0), (0x1680, 0x1680),
   (0x2000, 0x200A), (0x2028, 0x2029), (0x202F, 0x202F), (0x205F, 0x205F), (0x3000, 0x3000)]

/-- A blank character is one whose code point lies in `blankRanges`. -/
def isBlank (c : Char) : Bool :=
  blankRanges.any fun range => decide (range.1 ≤ c.toNat) && decide (c.toNat ≤ range.2)

/-- A text made of blank characters only. -/
def allBlank (text : List Char) : Bool :=
  text.all isBlank

/-- The text from its first visible character on. -/
def trimStart (text : List Char) : List Char :=
  text.dropWhile isBlank

/-- The text up to its last visible character. -/
def trimEnd (text : List Char) : List Char :=
  (text.reverse.dropWhile isBlank).reverse

/-- The text between its first and its last visible character. -/
def trim (text : List Char) : List Char :=
  trimEnd (trimStart text)

end LintRepair
