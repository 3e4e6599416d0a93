import Mathlib.Tactic
import LintRepair.Line

/-!
Column edits of a line, read as edits of its list of characters.

An edit looks up the byte at which its column begins and cuts the encoded line there. The cut
always falls between two characters, so the edits are the plain ones on lists.

* `byteOffset_eq`: the offset of a column is the size of the characters before it, and the columns
  past the end of the line have none.
* `insertAt_eq`, `removeAt_eq`: insertion and removal by column.
* `slice_eq`, `sliceFrom_eq`: excerpts by column.
-/

namespace LintRepair

namespace Line

lemma byteSize_append (l₁ l₂ : Line) : byteSize (l₁ ++ l₂) = byteSize l₁ + byteSize l₂ := by
  induction l₁ with
  | nil => simp [byteSize]
  | cons c l₁ ih =>
      simp only [List.cons_append, byteSize, ih]
      omega

/-- The offset of a column is the size of the characters before it. -/
lemma byteOffset_eq (l : Line) (column : Nat) :
    byteOffset l column =
      if column ≤ l.length then some (byteSize (l.take column)) else none := by
  induction l generalizing column with
  | nil => cases column <;> simp [byteOffset, byteSize]
  | cons c l ih =>
      cases column with
      | zero => simp [byteOffset, byteSize]
      | succ column =>
          rw [byteOffset, ih]
          by_cases h : column ≤ l.length
          · simp [h, byteSize]
          · simp [h]

/-- A line is cut between two characters by the size of the first ones. -/
lemma splitAtByte_append (l₁ l₂ : Line) :
    splitAtByte (l₁ ++ l₂) (byteSize l₁) = some (l₁, l₂) := by
  induction l₁ with
  | nil => cases l₂ <;> simp [byteSize, splitAtByte]
  | cons c l₁ ih =>
      have hpos := c.utf8Size_pos
      obtain ⟨offset, hoffset⟩ : ∃ offset, byteSize (c :: l₁) = offset + 1 :=
        ⟨byteSize (c :: l₁) - 1, by rw [byteSize]; omega⟩
      have hrest : offset + 1 - c.utf8Size = byteSize l₁ := by
        rw [byteSize] at hoffset
        omega
      have hle : c.utf8Size ≤ offset + 1 := by
        rw [byteSize] at hoffset
        omega
      rw [hoffset, List.cons_append, splitAtByte, if_pos hle, hrest, ih]
      rfl

lemma splitAtByte_take (l : Line) (column : Nat) :
    splitAtByte l (byteSize (l.take column)) = some (l.take column, l.drop column) := by
  rw [← splitAtByte_append, List.take_append_drop]

/-- Insertion by column, possible up to just past the last character. -/
lemma insertAt_eq (l : Line) (column : Nat) (text : List Char) :
    insertAt l column text =
      if column ≤ l.length then some (l.take column ++ text ++ l.drop column) else none := by
  rw [insertAt, byteOffset_eq]
  by_cases h : column ≤ l.length
  · simp [h, splitAtByte_take]
  · simp [h]

/-- Removal by column, possible at every character. -/
lemma removeAt_eq (l : Line) (column : Nat) :
    removeAt l column = if column < l.length then some (l.eraseIdx column) else none := by
  rw [removeAt, byteOffset_eq]
  by_cases h : column < l.length
  · rw [if_pos h.le, if_pos h]
    simp only [splitAtByte_take, List.drop_eq_getElem_cons h, List.eraseIdx_eq_take_drop_succ]
  · rw [if_neg h]
    by_cases he : column ≤ l.length
    · rw [if_pos he]
      simp only [splitAtByte_take, List.drop_eq_nil_of_le (not_lt.mp h)]
    · rw [if_neg he]

/-- The size of a prefix splits at an earlier column. -/
lemma byteSize_take_add (l : Line) {start stop : Nat} (h : start ≤ stop) :
    byteSize (l.take stop) =
      byteSize (l.take start) + byteSize ((l.drop start).take (stop - start)) := by
  conv_lhs => rw [← Nat.add_sub_cancel' h, List.take_add]
  rw [byteSize_append]

lemma getD_byteOffset (l : Line) (column : Nat) :
    (byteOffset l column).getD (byteSize l) = byteSize (l.take column) := by
  rw [byteOffset_eq]
  by_cases h : column ≤ l.length
  · simp [h]
  · simp [h, List.take_of_length_le (not_le.mp h).le]

/-- An excerpt by columns, both moved into the line. -/
lemma slice_eq (l : Line) (start stop : Nat) : slice l start stop = (l.take stop).drop start := by
  rw [slice]
  simp only [getD_byteOffset, byteSlice, splitAtByte_take]
  rcases le_total start stop with h | h
  · have hlast : max (byteSize (l.take stop)) (byteSize (l.take start)) - byteSize (l.take start) =
        byteSize ((l.drop start).take (stop - start)) := by
      rw [byteSize_take_add l h]
      omega
    rw [hlast, splitAtByte_take, List.drop_take]
    rfl
  · have hlast : max (byteSize (l.take stop)) (byteSize (l.take start)) - byteSize (l.take start) =
        byteSize ((l.drop start).take 0) := by
      rw [byteSize_take_add l h, List.take_zero, byteSize]
      omega
    have hempty : (l.take stop).drop start = [] :=
      List.drop_eq_nil_of_le ((List.length_take_le stop l).trans h)
    rw [hlast, splitAtByte_take, hempty]
    rfl

lemma sliceFrom_eq (l : Line) (start : Nat) : sliceFrom l start = l.drop start := by
  rw [sliceFrom, slice_eq, List.take_length]

end Line

end LintRepair
