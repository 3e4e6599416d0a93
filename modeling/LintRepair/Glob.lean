/-!
Glob patterns.

A pattern is compared with a whole path text, character by character. A question mark stands for
any character, a star for any text, both also across slashes; brackets stand for one character of
a set, or outside it after an exclamation mark; two stars that make up a whole component stand for
nothing, for any folders in front, and at the end of the pattern for everything.

* `Glob.compile`: the pieces of a pattern, or where it goes wrong.
* `Glob.accepts`: whether a pattern fits a text.
-/

namespace LintRepair

/-- One member of a bracket set. -/
inductive SetMember where
  | single (c : Char)
  | range (low high : Char)
deriving DecidableEq

/-- One piece of a pattern. -/
inductive GlobPiece where
  /-- Just this character. -/
  | literal (c : Char)
  /-- Any one character. -/
  | anyChar
  /-- One character of a set. -/
  | oneOf (members : List SetMember)
  /-- One character outside a set. -/
  | noneOf (members : List SetMember)
  /-- Any text. -/
  | anyText
  /-- Any folders. -/
  | anyFolders
deriving DecidableEq

/-- What is wrong with a pattern. -/
inductive GlobFault where
  /-- Three or more stars stand in a row. -/
  | wildcards
  /-- Two stars are not a whole component. -/
  | recursion
  /-- A bracket set does not end. -/
  | range
deriving DecidableEq

/-- Where a pattern goes wrong, counted in characters from zero. -/
structure GlobError where
  position : Nat
  fault : GlobFault
deriving DecidableEq

/-- The text of a fault. -/
def GlobFault.message : GlobFault → String
  | wildcards => "wildcards are either regular `*` or recursive `**`"
  | recursion => "recursive wildcards must form a single path component"
  | range => "invalid range pattern"

/-- The text of a glob error. -/
def GlobError.message (e : GlobError) : String :=
  s!"Invalid glob pattern: Pattern syntax error near position {e.position}: {e.fault.message}"

/-- A compiled pattern. -/
abbrev Glob := List GlobPiece

namespace Glob

/-! ### Reading a pattern -/

/-- The members of a set, read from the text between its brackets. -/
def members : List Char → List SetMember
  | low :: '-' :: high :: rest => .range low high :: members rest
  | c :: rest => .single c :: members rest
  | [] => []

/-- The text before the first closing bracket and the text after it. -/
def untilBracket : List Char → Option (List Char × List Char)
  | [] => none
  | c :: rest =>
      if c = ']' then some ([], rest)
      else (untilBracket rest).map fun parts => (c :: parts.1, parts.2)

/-- The piece that a bracket opens, its length past the bracket, and the text after it. The first
member may be a closing bracket itself. -/
def bracket : List Char → Option (GlobPiece × Nat × List Char)
  | '!' :: first :: rest =>
      (untilBracket rest).map fun parts =>
        (.noneOf (members (first :: parts.1)), parts.1.length + 3, parts.2)
  | '!' :: [] => none
  | first :: rest =>
      (untilBracket rest).map fun parts =>
        (.oneOf (members (first :: parts.1)), parts.1.length + 2, parts.2)
  | [] => none

theorem untilBracket_length {text before after : List Char}
    (h : untilBracket text = some (before, after)) : after.length < text.length := by
  induction text generalizing before with
  | nil => simp [untilBracket] at h
  | cons c rest ih =>
      rw [untilBracket] at h
      split at h
      · cases h
        simp
      · obtain ⟨parts, hparts, heq⟩ := Option.map_eq_some_iff.mp h
        cases heq
        have := ih hparts
        simp only [List.length_cons]
        omega

theorem bracket_length {text after : List Char} {piece : GlobPiece} {size : Nat}
    (h : bracket text = some (piece, size, after)) : after.length < text.length := by
  unfold bracket at h
  split at h
  case h_2 | h_4 => simp at h
  all_goals
    obtain ⟨parts, hparts, heq⟩ := Option.map_eq_some_iff.mp h
    cases heq
    have := untilBracket_length hparts
    simp only [List.length_cons]
    omega

/-- The pieces of the pattern from position `index` on. `atStart` says whether a component begins
there. -/
def compileFrom (index : Nat) (atStart : Bool) (pattern : List Char) : Except GlobError Glob :=
  match pattern with
  | [] => .ok []
  | '*' :: '*' :: '*' :: _ => .error ⟨index + 2, .wildcards⟩
  | '*' :: '*' :: rest =>
      if !atStart then .error ⟨index - 1, .recursion⟩
      else
        match rest with
        | [] => .ok [.anyFolders]
        | c :: rest' =>
            if c = '/' then (compileFrom (index + 3) true rest').map (.anyFolders :: ·)
            else .error ⟨index + 2, .recursion⟩
  | '*' :: rest => (compileFrom (index + 1) false rest).map (.anyText :: ·)
  | '?' :: rest => (compileFrom (index + 1) false rest).map (.anyChar :: ·)
  | '[' :: rest =>
      match h : bracket rest with
      | none => .error ⟨index, .range⟩
      | some (piece, size, after) =>
          (compileFrom (index + 1 + size) false after).map (piece :: ·)
  | c :: rest => (compileFrom (index + 1) (c == '/') rest).map (.literal c :: ·)
termination_by pattern.length
decreasing_by
  · simp only [List.length_cons]
    omega
  · simp
  · simp
  · exact Nat.lt_succ_of_lt (bracket_length h)
  · simp

/-- The pieces of a pattern. -/
def compile (pattern : String) : Except GlobError Glob :=
  compileFrom 0 true pattern.toList

/-- The pieces of several patterns, or the error of the first bad one. -/
def compileAll : List String → Except GlobError (List Glob)
  | [] => .ok []
  | pattern :: rest =>
      match compile pattern with
      | .error e => .error e
      | .ok glob => (compileAll rest).map (glob :: ·)

/-! ### Comparing with a text -/

/-- Whether a character belongs to a member of a set. -/
def inMember (c : Char) : SetMember → Bool
  | .single d => c == d
  | .range low high => decide (low ≤ c) && decide (c ≤ high)

/-- Whether a character is one that the piece stands for. -/
def takes (c : Char) : GlobPiece → Bool
  | .literal d => c == d
  | .anyChar => true
  | .oneOf set => set.any (inMember c)
  | .noneOf set => !set.any (inMember c)
  | .anyText | .anyFolders => false

/-- From the ends of a text that are accepted, the ends that are so past one suitable character. -/
def pastOne (suitable : Char → Bool) : List Char → List Bool → List Bool
  | c :: text, _ :: later => (suitable c && later.headD false) :: pastOne suitable text later
  | _, _ => [false]

/-- From the ends of a text that are accepted, the ends that are so past any text. -/
def pastText (accepted : List Bool) : List Bool :=
  accepted.foldr (fun here later => (here || later.headD false) :: later) []

/-- From the ends of a text that are accepted, the ends that are so past the end of a folder, or
past all of the text. -/
def pastFolders : List Char → List Bool → List Bool
  | c :: text, _ :: later =>
      let found := pastFolders text later
      ((c == '/' && later.headD false) || found.headD false) :: found
  | _, accepted => accepted

/-- For every end of a text, from the whole text down to the empty one, whether the pieces fit it.
The last piece is looked at first, so that no end is tried twice. -/
def fitEnds : Glob → List Char → List Bool
  | [], text => text.map (fun _ => false) ++ [true]
  | piece :: pieces, text =>
      let accepted := fitEnds pieces text
      match piece with
      | .anyText => pastText accepted
      | .anyFolders => accepted.zipWith (· || ·) (pastFolders text accepted)
      | one => pastOne (takes · one) text accepted

/-- Whether a pattern fits a text. -/
def accepts (glob : Glob) (text : String) : Bool :=
  (fitEnds glob text.toList).headD false

end Glob

end LintRepair
