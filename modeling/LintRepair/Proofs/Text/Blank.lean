import Mathlib.Tactic
import Mathlib.Data.List.TakeWhile
import LintRepair.Text.Blank

/-!
Blanks and visible characters of a text.

* `trimEnd_append_blank`, `trimEnd_concat`: what trimming takes away and where it stops.
* `exists_trimStart`, `exists_trimEnd`: a text is its trimmed text with blanks around it.
* `visible`: the visible characters of a text.
-/

namespace LintRepair

lemma isBlank_newline : isBlank '\n' = true := by decide

lemma isBlank_space : isBlank ' ' = true := by decide

lemma allBlank_append (x y : List Char) : allBlank (x ++ y) = (allBlank x && allBlank y) := by
  simp [allBlank]

lemma allBlank_append_newline (x y : List Char) :
    allBlank (x ++ '\n' :: y) = (allBlank x && allBlank y) := by
  simp [allBlank, isBlank_newline]

lemma not_mem_of_allBlank {x : List Char} (h : allBlank x = true) {c : Char}
    (hc : isBlank c = false) : c ∉ x := by
  intro hm
  rw [List.all_eq_true.mp h c hm] at hc
  simp at hc

/-! ### Trimming -/

/-- A text is its trimmed text with blanks in front of it. -/
lemma exists_trimStart (x : List Char) : ∃ k, x = k ++ trimStart x ∧ allBlank k = true :=
  ⟨x.takeWhile isBlank, List.takeWhile_append_dropWhile.symm, List.all_takeWhile⟩

/-- Behind the leading blanks of a text that is not blank stands a visible character. -/
lemma exists_dropWhile_cons {x : List Char} (h : allBlank x = false) :
    ∃ c t, x.dropWhile isBlank = c :: t ∧ isBlank c = false := by
  have hne : x.dropWhile isBlank ≠ [] := by
    rw [Ne, List.dropWhile_eq_nil_iff]
    intro hall
    rw [allBlank, List.all_eq_true.mpr hall] at h
    simp at h
  obtain ⟨c, t, hct⟩ := List.exists_cons_of_ne_nil hne
  have hc := List.head?_dropWhile_not isBlank x
  rw [hct] at hc
  exact ⟨c, t, hct, by simpa using hc⟩

lemma exists_eq_takeWhile_append {x : List Char} (h : allBlank x = false) :
    ∃ c t, x = x.takeWhile isBlank ++ c :: t ∧ isBlank c = false := by
  obtain ⟨c, t, hct, hc⟩ := exists_dropWhile_cons h
  exact ⟨c, t, by rw [← hct, List.takeWhile_append_dropWhile], hc⟩

lemma allBlank_trimStart (x : List Char) : allBlank (trimStart x) = allBlank x := by
  obtain ⟨k, hk, hblank⟩ := exists_trimStart x
  conv_rhs => rw [hk, allBlank_append, hblank, Bool.true_and]

lemma trimEnd_append_blank {x k : List Char} (hk : allBlank k = true) :
    trimEnd (x ++ k) = trimEnd x := by
  have hk' : ∀ c ∈ k.reverse, isBlank c = true := fun c hc =>
    List.all_eq_true.mp hk c (List.mem_reverse.mp hc)
  rw [trimEnd, trimEnd, List.reverse_append, List.dropWhile_append_of_pos hk']

lemma trimEnd_concat {c : Char} (hc : isBlank c = false) (x : List Char) :
    trimEnd (x ++ [c]) = x ++ [c] := by
  simp [trimEnd, hc]

/-- A text is its trimmed text with blanks behind it. -/
lemma exists_trimEnd (x : List Char) : ∃ k, x = trimEnd x ++ k ∧ allBlank k = true := by
  refine ⟨(x.reverse.takeWhile isBlank).reverse, ?_, ?_⟩
  · rw [trimEnd, ← List.reverse_append, List.takeWhile_append_dropWhile, List.reverse_reverse]
  · rw [allBlank, List.all_reverse]
    exact List.all_takeWhile

/-- The trimmed text of a text that is not blank ends with a visible character. -/
lemma exists_trimEnd_concat {x : List Char} (h : allBlank x = false) :
    ∃ y c, trimEnd x = y ++ [c] ∧ isBlank c = false := by
  have hreverse : allBlank x.reverse = false := by
    rw [allBlank, List.all_reverse]
    exact h
  obtain ⟨c, y, hcy, hc⟩ := exists_dropWhile_cons hreverse
  exact ⟨y.reverse, c, by rw [trimEnd, hcy, List.reverse_cons], hc⟩

lemma mem_trimStart {c : Char} {x : List Char} (h : c ∈ trimStart x) : c ∈ x :=
  (List.dropWhile_sublist _).mem h

lemma mem_trimEnd {c : Char} {x : List Char} (h : c ∈ trimEnd x) : c ∈ x := by
  obtain ⟨k, hk, -⟩ := exists_trimEnd x
  exact hk ▸ List.mem_append_left k h

/-! ### Visible characters -/

/-- The visible characters of a text. -/
def visible (x : List Char) : List Char := x.filter (!isBlank ·)

@[simp] lemma visible_append (x y : List Char) : visible (x ++ y) = visible x ++ visible y :=
  List.filter_append _ _

lemma visible_of_allBlank {x : List Char} (h : allBlank x = true) : visible x = [] := by
  rw [visible, List.filter_eq_nil_iff]
  intro c hc
  simp [List.all_eq_true.mp h c hc]

lemma visible_trimEnd (x : List Char) : visible (trimEnd x) = visible x := by
  obtain ⟨k, hk, hblank⟩ := exists_trimEnd x
  conv_rhs => rw [hk, visible_append, visible_of_allBlank hblank, List.append_nil]

end LintRepair
