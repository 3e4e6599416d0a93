import LintRepair.Buffer

/-!
Positions in a buffer.

A position names a character of a buffer by its line and its column, both counted from zero.
Positions are ordered as the text is read: by line, then by column.

* `Buffer.charAt`: the character at a position.
* `Buffer.excerpt`: the text between two positions, both included, lines joined by line feeds.
* `Buffer.lastPosition`: the position of the last character.
* `Buffer.remaining`: how many characters stand at a position or after it.
-/

namespace LintRepair

/-- A place in a buffer, both coordinates counted from zero. -/
structure Position where
  line : Nat
  column : Nat
deriving DecidableEq

namespace Position

/-- Positions are ordered by line, then by column. -/
instance : LE Position where
  le p q := p.line < q.line ∨ p.line = q.line ∧ p.column ≤ q.column

/-- A position is before another one if it is reached earlier when the text is read. -/
instance : LT Position where
  lt p q := p.line < q.line ∨ p.line = q.line ∧ p.column < q.column

instance (p q : Position) : Decidable (p ≤ q) :=
  inferInstanceAs (Decidable (p.line < q.line ∨ p.line = q.line ∧ p.column ≤ q.column))

instance (p q : Position) : Decidable (p < q) :=
  inferInstanceAs (Decidable (p.line < q.line ∨ p.line = q.line ∧ p.column < q.column))

theorem le_def {p q : Position} :
    p ≤ q ↔ p.line < q.line ∨ p.line = q.line ∧ p.column ≤ q.column := Iff.rfl

theorem lt_def {p q : Position} :
    p < q ↔ p.line < q.line ∨ p.line = q.line ∧ p.column < q.column := Iff.rfl

theorem le_refl (p : Position) : p ≤ p :=
  le_def.mpr (Or.inr ⟨rfl, Nat.le_refl _⟩)

theorem le_trans {p q r : Position} (hpq : p ≤ q) (hqr : q ≤ r) : p ≤ r := by
  rw [le_def] at *
  omega

/-- The position one column further on the same line. -/
def next (p : Position) : Position := ⟨p.line, p.column + 1⟩

end Position

namespace Buffer

/-- The character at a position. -/
def charAt (buffer : Buffer) (p : Position) : Option Char :=
  buffer[p.line]?.bind (·[p.column]?)

/-- The part of line `index` that lies between two positions, both included. -/
def excerptLine (start stop : Position) (line : Line) (index : Nat) : Line :=
  (if index = stop.line then line.take (stop.column + 1) else line).drop
    (if index = start.line then start.column else 0)

/-- The text between two positions, both included, its lines joined by line feeds. -/
def excerpt (buffer : Buffer) (start stop : Position) : List Char :=
  List.intercalate ['\n']
    ((((buffer.drop start.line).take (stop.line + 1 - start.line)).zipIdx start.line).map
      fun entry => excerptLine start stop entry.1 entry.2)

/-- The position of the last character of the last line. -/
def lastPosition (buffer : Buffer) : Position :=
  ⟨buffer.length - 1, (buffer.getLastD []).length - 1⟩

/-- How many characters stand at a position or after it. -/
def remaining (buffer : Buffer) (p : Position) : Nat :=
  match buffer.drop p.line with
  | [] => 0
  | line :: rest => (line.length - p.column) + rest.flatten.length

/-- The first visible character of the lines from number `index` on. -/
def firstVisibleBelow (index : Nat) : Buffer → Option Position
  | [] => none
  | line :: rest =>
      match line.findIdx? (!isBlank ·) with
      | some column => some ⟨index, column⟩
      | none => firstVisibleBelow (index + 1) rest

/-- The first visible character at a position or after it. -/
def firstVisible (buffer : Buffer) (p : Position) : Option Position :=
  match buffer.drop p.line with
  | [] => none
  | line :: rest =>
      match (line.drop p.column).findIdx? (!isBlank ·) with
      | some offset => some ⟨p.line, p.column + offset⟩
      | none => firstVisibleBelow (p.line + 1) rest

/-! ### Counting what remains -/

theorem getElem?_of_charAt {buffer : Buffer} {p : Position} {c : Char}
    (h : buffer.charAt p = some c) :
    ∃ l, buffer[p.line]? = some l ∧ l[p.column]? = some c := by
  simpa [charAt, Option.bind_eq_some_iff] using h

theorem line_lt_of_charAt {buffer : Buffer} {p : Position} {c : Char}
    (h : buffer.charAt p = some c) : p.line < buffer.length := by
  obtain ⟨l, hl, -⟩ := getElem?_of_charAt h
  exact (List.getElem?_eq_some_iff.mp hl).1

theorem drop_eq_cons {buffer : Buffer} {index : Nat} {line : Line}
    (h : buffer[index]? = some line) : buffer.drop index = line :: buffer.drop (index + 1) := by
  obtain ⟨hlt, rfl⟩ := List.getElem?_eq_some_iff.mp h
  exact List.drop_eq_getElem_cons hlt

theorem of_drop_eq_cons {buffer rest : Buffer} {index : Nat} {line : Line}
    (h : buffer.drop index = line :: rest) :
    buffer[index]? = some line ∧ rest = buffer.drop (index + 1) := by
  constructor
  · rw [← List.head?_drop, h, List.head?_cons]
  · rw [← List.tail_drop, h, List.tail_cons]

/-- Dropping lines leaves no more characters. -/
theorem flatten_drop_le (n : Nat) (buffer : Buffer) :
    (buffer.drop n).flatten.length ≤ buffer.flatten.length := by
  conv => rhs; rw [← List.take_append_drop n buffer, List.flatten_append, List.length_append]
  exact Nat.le_add_left _ _

/-- What remains at a position is part of the lines from its own on. -/
theorem remaining_le_flatten (buffer : Buffer) (p : Position) :
    buffer.remaining p ≤ (buffer.drop p.line).flatten.length := by
  rw [remaining]
  cases buffer.drop p.line with
  | nil => simp
  | cons line rest =>
      simp only [List.flatten_cons, List.length_append]
      omega

/-- The lines below a position remain there. -/
theorem flatten_le_remaining (buffer : Buffer) (p : Position) :
    (buffer.drop (p.line + 1)).flatten.length ≤ buffer.remaining p := by
  rw [remaining, ← List.tail_drop]
  cases buffer.drop p.line with
  | nil => simp
  | cons line rest => exact Nat.le_add_left _ _

/-- Later positions have no more characters left. -/
theorem remaining_le_of_le (buffer : Buffer) {p q : Position} (h : p ≤ q) :
    buffer.remaining q ≤ buffer.remaining p := by
  rcases Position.le_def.mp h with hl | ⟨hl, hc⟩
  · have hdrop : buffer.drop q.line = (buffer.drop (p.line + 1)).drop (q.line - (p.line + 1)) := by
      rw [List.drop_drop]
      congr 1
      omega
    calc buffer.remaining q ≤ (buffer.drop q.line).flatten.length := remaining_le_flatten buffer q
      _ ≤ (buffer.drop (p.line + 1)).flatten.length := by
          rw [hdrop]
          exact flatten_drop_le _ _
      _ ≤ buffer.remaining p := flatten_le_remaining buffer p
  · rw [remaining, remaining, hl]
    cases buffer.drop q.line with
    | nil => simp
    | cons line rest =>
        simp only
        omega

/-- Going past a character leaves one character less. -/
theorem remaining_next_lt {buffer : Buffer} {p : Position} {c : Char}
    (h : buffer.charAt p = some c) : buffer.remaining p.next < buffer.remaining p := by
  obtain ⟨line, hline, hc⟩ := getElem?_of_charAt h
  obtain ⟨hlt, -⟩ := List.getElem?_eq_some_iff.mp hc
  rw [remaining, remaining, Position.next, drop_eq_cons hline]
  simp only
  omega

/-! ### The first visible character -/

theorem firstVisibleBelow_spec {index : Nat} {buffer : Buffer} {q : Position}
    (h : firstVisibleBelow index buffer = some q) :
    index ≤ q.line ∧
      ∃ c, charAt buffer ⟨q.line - index, q.column⟩ = some c ∧ isBlank c = false := by
  induction buffer generalizing index with
  | nil => simp [firstVisibleBelow] at h
  | cons l rest ih =>
      rw [firstVisibleBelow] at h
      split at h
      · next column hfind =>
          obtain ⟨hlt, hp, -⟩ := List.findIdx?_eq_some_iff_getElem.mp hfind
          cases h
          refine ⟨Nat.le_refl _, l[column], ?_, by simpa using hp⟩
          simp [charAt, List.getElem?_eq_getElem hlt]
      · obtain ⟨hle, c, hc, hb⟩ := ih h
        refine ⟨by omega, c, ?_, hb⟩
        rw [show q.line - index = (q.line - (index + 1)) + 1 by omega]
        simpa [charAt] using hc

/-- The first visible character is not before the start of the search, and it is visible. -/
theorem firstVisible_spec {buffer : Buffer} {p q : Position}
    (h : buffer.firstVisible p = some q) :
    p ≤ q ∧ ∃ c, buffer.charAt q = some c ∧ isBlank c = false := by
  rw [firstVisible] at h
  split at h
  · simp at h
  · next line rest heq =>
      split at h
      · next offset hfind =>
          obtain ⟨hlt, hp, -⟩ := List.findIdx?_eq_some_iff_getElem.mp hfind
          cases h
          refine ⟨Position.le_def.mpr (Or.inr ⟨rfl, Nat.le_add_right _ _⟩), _, ?_,
            by simpa using hp⟩
          have hline : buffer[p.line]? = some line := by
            have := congrArg List.head? heq
            simpa using this
          simp [charAt, hline]
      · obtain ⟨hle, c, hc, hb⟩ := firstVisibleBelow_spec h
        refine ⟨Position.le_def.mpr (Or.inl (by omega)), c, ?_, hb⟩
        have hrest : rest = buffer.drop (p.line + 1) := by
          have := congrArg List.tail heq
          simpa using this.symm
        rw [hrest] at hc
        simp only [charAt, List.getElem?_drop] at hc ⊢
        rwa [show p.line + 1 + (q.line - (p.line + 1)) = q.line by omega] at hc

end Buffer

end LintRepair
