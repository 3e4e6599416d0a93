import LintRepair.Statement

/-!
The statements of an import section.

`statements` cuts a buffer into its leading statements. It goes on until the first statement after
an import that is no import itself, and the rest of the buffer from there on is one last statement,
the body.
-/

namespace LintRepair

/-- Where a statement with this delimiter stops. A line comment that follows the delimiter on its
line belongs to the statement. -/
def includeTrailingComment (buffer : Buffer) (d : Position) : Position :=
  match buffer[d.line]? with
  | none => d
  | some line =>
      match trimStart (line.drop (d.column + 1)) with
      | '/' :: '/' :: _ => ⟨d.line, line.length - 1⟩
      | _ => d

theorem le_includeTrailingComment (buffer : Buffer) (d : Position)
    (h : buffer.charAt d = some ';') :
    d ≤ includeTrailingComment buffer d ∧
      ∃ c, buffer.charAt (includeTrailingComment buffer d) = some c := by
  obtain ⟨l, hl, hc⟩ := Buffer.getElem?_of_charAt h
  obtain ⟨hlt, -⟩ := List.getElem?_eq_some_iff.mp hc
  rw [includeTrailingComment, hl]
  simp only
  split
  · refine ⟨Position.le_def.mpr (Or.inr ⟨rfl, by simp only; omega⟩), ?_⟩
    have hlast : l.length - 1 < l.length := by omega
    exact ⟨l[l.length - 1], by simp [Buffer.charAt, hl, List.getElem?_eq_getElem hlast]⟩
  · exact ⟨Position.le_refl d, _, h⟩

/-- The ends of the first statement at a position or after it. -/
def nextSpan (buffer : Buffer) (cursor : Position) : Except ScanError (Position × Position) :=
  match buffer.firstVisible cursor with
  | none => .error (.unexpectedEnd (min cursor.line (buffer.length - 1) + 1))
  | some start =>
      match delimiter buffer start with
      | .error e => .error e
      | .ok d => .ok (start, includeTrailingComment buffer d)

/-- A statement starts at a visible character, not before the position from which it is looked
for, and stops at a character, not before its start. -/
theorem nextSpan_spec {buffer : Buffer} {cursor start stop : Position}
    (h : nextSpan buffer cursor = .ok (start, stop)) :
    cursor ≤ start ∧ start ≤ stop ∧
      (∃ c, buffer.charAt start = some c ∧ isBlank c = false) ∧
      ∃ c, buffer.charAt stop = some c := by
  rw [nextSpan] at h
  split at h
  · simp at h
  · next first hfirst =>
      split at h
      · simp at h
      · next d hd =>
          cases h
          obtain ⟨hcs, hvisible⟩ := Buffer.firstVisible_spec hfirst
          obtain ⟨hsd, hsemi⟩ := delimiter_spec hd
          obtain ⟨hds, hstop⟩ := le_includeTrailingComment buffer d hsemi
          exact ⟨hcs, Position.le_trans hsd hds, hvisible, hstop⟩

/-- The statements from a position on, up to the body. `afterImport` says whether the statement
before the position is an import. -/
def statementsFrom (buffer : Buffer) (afterImport : Bool) (cursor : Position) :
    Except ScanError (List Statement) :=
  match _ : nextSpan buffer cursor with
  | .error e => .error e
  | .ok (start, stop) =>
      let s := Statement.between buffer start stop
      if afterImport && !s.isImport then
        .ok [Statement.between buffer start buffer.lastPosition]
      else
        match statementsFrom buffer s.isImport stop.next with
        | .error e => .error e
        | .ok rest => .ok (s :: rest)
termination_by buffer.remaining cursor
decreasing_by
  obtain ⟨hcs, hss, -, c, hc⟩ := nextSpan_spec ‹nextSpan buffer cursor = _›
  have h1 := Buffer.remaining_le_of_le buffer (Position.le_trans hcs hss)
  have h2 := Buffer.remaining_next_lt hc
  omega

/-- The statements of a buffer's import section, the body being the last one. -/
def statements (buffer : Buffer) : Except ScanError (List Statement) :=
  statementsFrom buffer false ⟨0, 0⟩

end LintRepair
