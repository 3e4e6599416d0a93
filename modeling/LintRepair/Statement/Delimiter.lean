import LintRepair.Position

/-!
Statement delimiters.

A statement ends at the first semicolon that is code: one inside a comment, a string literal or a
character literal is passed over. Line comments and literals end with their line, block comments
run on over the lines until they are closed.

* `Mode`: what the search stands in.
* `sweepLine`: the search through one line.
* `delimiter`: the search through a buffer from a position on.
* `delimiter_spec`: a delimiter that is found is a character of the buffer, not before the start.
-/

namespace LintRepair

/-- Why the statements of a buffer could not be told apart. Lines count from one. -/
inductive ScanError where
  /-- A block comment opened on this line is never closed. -/
  | unterminatedComment (line : Nat)
  /-- The statement that starts on this line never ends. -/
  | unexpectedEnd (line : Nat)
deriving DecidableEq

/-- The text of a scan error. -/
def ScanError.message : ScanError → String
  | unterminatedComment line => s!"unterminated block comment starting at line {line}"
  | unexpectedEnd line =>
      s!"unexpected end of input while scanning statement starting at line {line}"

/-- What the search for a delimiter stands in. A line comment needs no mode of its own, because
it hides just the rest of its line. -/
inductive Mode where
  | code
  /-- A block comment opened on the given line. -/
  | block (opened : Nat)
  /-- A string or character literal, ended by this quote. -/
  | literal (quote : Char)
deriving DecidableEq

/-- How the search through one line ends. -/
inductive Sweep where
  /-- The delimiter is at this column. -/
  | found (column : Nat)
  /-- The line has no delimiter, and the next one begins in this mode. -/
  | ended (mode : Mode)
deriving DecidableEq

/-- Searches the rest of line `index`, which begins at `column` in the given mode. -/
def sweepLine (index : Nat) : Mode → Nat → Line → Sweep
  | .block opened, _, [] => .ended (.block opened)
  | .code, _, [] => .ended .code
  | .literal _, _, [] => .ended .code
  | .code, column, ';' :: _ => .found column
  | .code, _, '/' :: '/' :: _ => .ended .code
  | .code, column, '/' :: '*' :: rest => sweepLine index (.block index) (column + 2) rest
  | .code, column, c :: rest =>
      if c = '\x22' ∨ c = '\x27' then sweepLine index (.literal c) (column + 1) rest
      else sweepLine index .code (column + 1) rest
  | .block _, column, '*' :: '/' :: rest => sweepLine index .code (column + 2) rest
  | .block opened, column, _ :: rest => sweepLine index (.block opened) (column + 1) rest
  | .literal quote, column, '\\' :: _ :: rest =>
      sweepLine index (.literal quote) (column + 2) rest
  | .literal quote, column, c :: rest =>
      if c = quote then sweepLine index .code (column + 1) rest
      else sweepLine index (.literal quote) (column + 1) rest

/-- Searches the lines from number `index` on for the delimiter of a statement that starts on
line `start`. -/
def searchLines (start : Nat) : Mode → Nat → Buffer → Except ScanError Position
  | .block opened, _, [] => .error (.unterminatedComment (opened + 1))
  | _, _, [] => .error (.unexpectedEnd (start + 1))
  | mode, index, line :: rest =>
      match sweepLine index mode 0 line with
      | .found column => .ok ⟨index, column⟩
      | .ended mode' => searchLines start mode' (index + 1) rest

/-- The first semicolon that is code, at the start position or after it. -/
def delimiter (buffer : Buffer) (start : Position) : Except ScanError Position :=
  match buffer.drop start.line with
  | [] => .error (.unexpectedEnd (start.line + 1))
  | line :: rest =>
      match sweepLine start.line .code start.column (line.drop start.column) with
      | .found column => .ok ⟨start.line, column⟩
      | .ended mode => searchLines start.line mode (start.line + 1) rest

/-! ### Where a delimiter can be -/

/-- A character found in the rest of a line is found one column further in the line. -/
theorem found_cons {column found : Nat} {c d : Char} {rest : Line}
    (h : column + 1 ≤ found ∧ rest[found - (column + 1)]? = some d) :
    column ≤ found ∧ (c :: rest)[found - column]? = some d := by
  obtain ⟨hle, hget⟩ := h
  refine ⟨by omega, ?_⟩
  rw [show found - column = (found - (column + 1)) + 1 by omega, List.getElem?_cons_succ]
  exact hget

theorem sweepLine_found {index : Nat} {mode : Mode} {column found : Nat} {l : Line}
    (h : sweepLine index mode column l = .found found) :
    column ≤ found ∧ l[found - column]? = some ';' := by
  fun_induction sweepLine index mode column l with
  | case1 | case2 | case3 | case5 => simp at h
  | case4 =>
      cases h
      simp
  | case6 column rest ih => exact found_cons (found_cons (ih h))
  | case7 column c rest _ _ _ _ ih => exact found_cons (ih h)
  | case8 column c rest _ _ _ _ ih => exact found_cons (ih h)
  | case9 opened column rest ih => exact found_cons (found_cons (ih h))
  | case10 opened column c rest _ ih => exact found_cons (ih h)
  | case11 quote column c rest ih => exact found_cons (found_cons (ih h))
  | case12 => rename_i ih; exact found_cons (ih h)
  | case13 => rename_i ih; exact found_cons (ih h)

theorem searchLines_ok {start : Nat} {mode : Mode} {index : Nat} {buffer : Buffer} {d : Position}
    (h : searchLines start mode index buffer = .ok d) :
    index ≤ d.line ∧ Buffer.charAt buffer ⟨d.line - index, d.column⟩ = some ';' := by
  induction buffer generalizing mode index with
  | nil => cases mode <;> simp [searchLines] at h
  | cons line rest ih =>
      rw [searchLines] at h
      split at h
      · next column hsweep =>
          cases h
          obtain ⟨-, hget⟩ := sweepLine_found hsweep
          simpa [Buffer.charAt] using hget
      · obtain ⟨hle, hc⟩ := ih h
        refine ⟨by omega, ?_⟩
        rw [show d.line - index = (d.line - (index + 1)) + 1 by omega]
        simpa [Buffer.charAt] using hc

/-- A delimiter that is found is a semicolon of the buffer, not before the start. -/
theorem delimiter_spec {buffer : Buffer} {start d : Position}
    (h : delimiter buffer start = .ok d) : start ≤ d ∧ buffer.charAt d = some ';' := by
  rw [delimiter] at h
  split at h
  · simp at h
  · next line rest heq =>
      split at h
      · next column hsweep =>
          cases h
          obtain ⟨hle, hget⟩ := sweepLine_found hsweep
          have hline : buffer[start.line]? = some line := by
            have := congrArg List.head? heq
            simpa using this
          refine ⟨Position.le_def.mpr (Or.inr ⟨rfl, hle⟩), ?_⟩
          rw [List.getElem?_drop, show start.column + (column - start.column) = column by omega]
            at hget
          simp [Buffer.charAt, hline, hget]
      · obtain ⟨hle, hc⟩ := searchLines_ok h
        have hrest : rest = buffer.drop (start.line + 1) := by
          have := congrArg List.tail heq
          simpa using this.symm
        refine ⟨Position.le_def.mpr (Or.inl (by omega)), ?_⟩
        rw [hrest] at hc
        simp only [Buffer.charAt, List.getElem?_drop] at hc ⊢
        rwa [show start.line + 1 + (d.line - (start.line + 1)) = d.line by omega] at hc

end LintRepair
