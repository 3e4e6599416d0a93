import LintRepair.Fix.Imports
import LintRepair.Fix.Tabs
import LintRepair.Proofs.Buffer.Text
import LintRepair.Proofs.Line.Editing

/-!
Where the characters of a buffer come from.

The fixes about statements take lines apart and put them together again, but they write nothing:
every character of the buffer that they leave was there before.

* `endsLine`: the characters of line terminators.
* `mem_expandTabs`: the characters of a line with its tabs expanded.
* `Unbroken.of_mem`: no line feed comes from a buffer without line feeds in its lines.
* `mem_splitBetween`, `mem_moveBefore`, `mem_cutStatement`: a line split, lines moved and a
  statement cut out.
-/

namespace LintRepair

/-- Whether a character is a part of a line terminator. -/
def endsLine (c : Char) : Bool := decide (c = '\n') || decide (c = '\r')

/-! ### Lines -/

/-- What becomes of the first character of a line: it stays, or it is a tab and becomes spaces. -/
lemma exists_expandTabsFrom_cons (add : Nat → Nat → Nat) (start : Nat) {width : Nat}
    (hwidth : 0 < width) (index display : Nat) (c : Char) (l : Line) :
    ∃ e display', expandTabsFrom add start width index display (c :: l) =
        e ++ expandTabsFrom add start width (index + 1) display' l ∧
      (e = [c] ∨ c = '\t' ∧ ∃ n, e = List.replicate (n + 1) ' ') := by
  rw [expandTabsFrom]
  by_cases hc : c = '\t'
  · rw [if_pos hc]
    refine ⟨_, _, rfl, ?_⟩
    by_cases hstart : start ≤ index
    · have hmod := Nat.mod_lt display hwidth
      refine Or.inr ⟨hc, tabPad width display - 1, ?_⟩
      rw [if_pos hstart, tabPad, Nat.sub_add_cancel (by omega)]
    · exact Or.inl (by rw [if_neg hstart, hc])
  · rw [if_neg hc]
    exact ⟨[c], _, rfl, Or.inl rfl⟩

lemma mem_expandTabsFrom {add : Nat → Nat → Nat} {start width : Nat} (hwidth : 0 < width)
    {index display : Nat} {c : Char} {l : Line}
    (h : c ∈ expandTabsFrom add start width index display l) : c ∈ l ∨ c = ' ' := by
  induction l generalizing index display with
  | nil => exact Or.inl h
  | cons d l ih =>
      obtain ⟨e, display', heq, he⟩ :=
        exists_expandTabsFrom_cons add start hwidth index display d l
      rw [heq, List.mem_append] at h
      rcases h with h | h
      · rcases he with rfl | ⟨-, n, rfl⟩
        · exact Or.inl (List.mem_singleton.mp h ▸ List.mem_cons_self)
        · exact Or.inr (List.eq_of_mem_replicate h)
      · exact (ih h).imp_left (List.mem_cons_of_mem d)

/-- Expanding tabs writes nothing but spaces. -/
lemma mem_expandTabs {start width : Nat} {c : Char} {l : Line}
    (h : c ∈ l.expandTabs start width) : c ∈ l ∨ c = ' ' :=
  mem_expandTabsFrom (by omega) h

lemma Line.mem_slice {c : Char} {l : Line} {start stop : Nat} (h : c ∈ l.slice start stop) :
    c ∈ l := by
  rw [slice_eq] at h
  exact List.mem_of_mem_take (List.mem_of_mem_drop h)

lemma Line.mem_sliceFrom {c : Char} {l : Line} {start : Nat} (h : c ∈ l.sliceFrom start) :
    c ∈ l := by
  rw [sliceFrom_eq] at h
  exact List.mem_of_mem_drop h

/-! ### Buffers -/

namespace Buffer

variable {buffer lines : Buffer} {c : Char}

lemma unbroken_iff : buffer.Unbroken ↔ '\n' ∉ buffer.flatten := by
  simp [Unbroken, List.mem_flatten]

/-- Lines whose characters come from a buffer without line feeds have none. -/
lemma Unbroken.of_mem (hb : buffer.Unbroken)
    (h : '\n' ∈ lines.flatten → '\n' ∈ buffer.flatten) : lines.Unbroken := by
  rw [unbroken_iff] at hb ⊢
  exact mt h hb

/-- The characters of some lines of a buffer. -/
lemma mem_flatten_of_subset (hsubset : lines ⊆ buffer) (h : c ∈ lines.flatten) :
    c ∈ buffer.flatten := by
  obtain ⟨l, hl, hc⟩ := List.mem_flatten.mp h
  exact List.mem_flatten.mpr ⟨l, hsubset hl, hc⟩

lemma mem_flatten_of_getD {index : Nat} (h : c ∈ (buffer[index]?).getD []) :
    c ∈ buffer.flatten := by
  cases hl : buffer[index]? with
  | none => simp [hl] at h
  | some l =>
      rw [hl] at h
      exact List.mem_flatten.mpr ⟨l, List.mem_of_getElem? hl, h⟩

lemma mem_splitBetween {first second : Statement}
    (h : c ∈ (buffer.splitBetween first second).flatten) : c ∈ buffer.flatten := by
  simp only [splitBetween, List.flatten_append, List.mem_append, List.flatten_cons,
    List.flatten_nil, List.append_nil] at h
  rcases h with (h | h | h) | h
  · exact mem_flatten_of_subset (List.take_subset _ _) h
  · exact mem_flatten_of_getD (Line.mem_slice (mem_trimEnd h))
  · exact mem_flatten_of_getD (Line.mem_sliceFrom (mem_trimStart (mem_trimEnd h)))
  · exact mem_flatten_of_subset (List.drop_subset _ _) h

lemma mem_moveBefore {s previous : Statement} (h : c ∈ (buffer.moveBefore s previous).flatten) :
    c ∈ buffer.flatten := by
  simp only [moveBefore, List.flatten_append, List.mem_append] at h
  rcases h with ((h | h) | h) | h
  · exact mem_flatten_of_subset (List.take_subset _ _) h
  · exact mem_flatten_of_subset (List.drop_subset _ _)
      (mem_flatten_of_subset (List.take_subset _ _) h)
  · exact mem_flatten_of_subset (List.drop_subset _ _)
      (mem_flatten_of_subset (List.take_subset _ _) h)
  · exact mem_flatten_of_subset (List.drop_subset _ _) h

lemma mem_cutStatement {s : Statement} (h : c ∈ (buffer.cutStatement s).flatten) :
    c ∈ buffer.flatten := by
  simp only [cutStatement, List.flatten_append, List.mem_append] at h
  rcases h with (h | h) | h
  · exact mem_flatten_of_subset (List.take_subset _ _) h
  · -- the line that is joined from what is left of two lines
    split_ifs at h
    · simp at h
    · rw [List.flatten_singleton, List.mem_append] at h
      rcases h with h | h
      · exact mem_flatten_of_getD (Line.mem_slice h)
      · exact mem_flatten_of_getD (Line.mem_sliceFrom (mem_trimStart h))
    · simp at h
    · rw [List.flatten_singleton, List.mem_append] at h
      rcases h with h | h
      · exact mem_flatten_of_getD (Line.mem_slice (mem_trimEnd h))
      · exact mem_flatten_of_getD (Line.mem_sliceFrom h)
  · exact mem_flatten_of_subset (List.drop_subset _ _) h

end Buffer

end LintRepair
