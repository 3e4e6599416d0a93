import LintRepair.Proofs.Buffer.Characters
import LintRepair.Proofs.Statement.Scanner

/-!
Blanks that come and go.

Some fixes change nothing but blanks: they trim a line, put an empty line in, take a blank line out
or expand tabs. The statements of a buffer can be told apart afterwards if they could before.

* `Buffer.Readable`: the statements of the buffer can be told apart.
* `readable_set`, `readable_map_drop`: lines exchanged for others that are read alike.
* `alike_trimEnd`, `alike_expandTabs`: trimmed lines and lines with their tabs expanded.
* `readable_insertIdx`, `readable_eraseIdx`: an empty line more, a blank line less.
-/

namespace LintRepair

namespace Buffer

/-- The statements of the buffer can be told apart. -/
def Readable (buffer : Buffer) : Prop := ∃ found, statements buffer = .ok found

lemma above_take_drop (buffer : Buffer) (index : Nat) :
    above buffer = above (buffer.take index) ++ above (buffer.drop index) := by
  rw [← above_append, List.take_append_drop]

lemma Unbroken.set {buffer : Buffer} (hb : buffer.Unbroken) (index : Nat) {l : Line}
    (hl : '\n' ∉ l) : Unbroken (buffer.set index l) := by
  intro x hx
  rcases List.mem_or_eq_of_mem_set hx with hx | rfl
  · exact hb x hx
  · exact hl

/-- One line exchanged for another one that is read alike. -/
lemma readable_set {buffer : Buffer} (hb : buffer.Unbroken) {index : Nat} {l l' : Line}
    (hl : buffer[index]? = some l) (hl' : '\n' ∉ l')
    (halike : Scanner.Alike (l ++ ['\n']) (l' ++ ['\n'])) (h : Readable buffer) :
    Readable (buffer.set index l') := by
  obtain ⟨hlt, rfl⟩ := List.getElem?_eq_some_iff.mp hl
  have hdrop : buffer.drop index = buffer[index] :: buffer.drop (index + 1) :=
    List.drop_eq_getElem_cons hlt
  rw [Readable, statements_ok_iff hb, above_take_drop buffer index, hdrop, above_cons,
    List.append_cons] at h
  rw [Readable, statements_ok_iff (hb.set index hl'), List.set_eq_take_append_cons_drop, if_pos hlt,
    above_append, above_cons, List.append_cons,
    ← ((Scanner.Alike.refl (above (buffer.take index))).append
      (halike.append (Scanner.Alike.refl _))) _ (Scanner.proper_fresh false)]
  exact h

end Buffer

/-! ### Trimmed lines and expanded tabs -/

/-- A trimmed line is read like the line. -/
lemma alike_trimEnd (l : Line) : Scanner.Alike (l ++ ['\n']) (trimEnd l ++ ['\n']) := by
  obtain ⟨k, hk, hblank⟩ := exists_trimEnd l
  have hend : Scanner.Alike (k ++ ['\n']) ['\n'] := by
    refine Scanner.alike_of_blank ?_ (by simp [allBlank, isBlank_newline]) (by simp) (by simp)
      (by simp)
    rw [allBlank_append, hblank]
    simp [allBlank, isBlank_newline]
  conv in (l ++ ['\n']) => rw [hk, List.append_assoc]
  exact (Scanner.Alike.refl (trimEnd l)).append hend

lemma alike_expandTabsFrom (add : Nat → Nat → Nat) (start : Nat) {width : Nat}
    (hwidth : 0 < width) (index display : Nat) (l : Line) :
    Scanner.Alike l (expandTabsFrom add start width index display l) := by
  induction l generalizing index display with
  | nil => exact Scanner.Alike.refl []
  | cons c l ih =>
      obtain ⟨e, display', heq, he⟩ :=
        exists_expandTabsFrom_cons add start hwidth index display c l
      rw [heq]
      refine Scanner.Alike.append (x := [c]) ?_ (ih _ _)
      rcases he with rfl | ⟨rfl, n, rfl⟩
      · exact Scanner.Alike.refl _
      · refine Scanner.alike_of_blank (by decide) ?_ (by simp) (by simp) ?_
        · rw [allBlank, List.all_replicate]
          simp [isBlank_space]
        · simp [List.mem_replicate]

/-- A line with its tabs expanded is read like the line. -/
lemma alike_expandTabs (l : Line) (start width : Nat) :
    Scanner.Alike l (l.expandTabs start width) :=
  alike_expandTabsFrom wordAdd start (by omega) 0 0 l

lemma not_mem_expandTabs {l : Line} (hl : '\n' ∉ l) (start width : Nat) :
    '\n' ∉ l.expandTabs start width := by
  intro hm
  rcases mem_expandTabs hm with hm | hm
  · exact hl hm
  · simp at hm

namespace Buffer

lemma alike_above_map {f : Line → Line} (hf : ∀ l, Scanner.Alike l (f l)) (buffer : Buffer) :
    Scanner.Alike (above buffer) (above (buffer.map f)) := by
  induction buffer with
  | nil => exact Scanner.Alike.refl []
  | cons l rest ih =>
      rw [List.map_cons, above_cons, above_cons]
      exact (hf l).append (Scanner.Alike.append (x := ['\n']) (Scanner.Alike.refl _) ih)

lemma Unbroken.map_drop {buffer : Buffer} (hb : buffer.Unbroken) {f : Line → Line}
    (hf : ∀ l, '\n' ∉ l → '\n' ∉ f l) (n : Nat) :
    Unbroken (buffer.take n ++ (buffer.drop n).map f) := by
  intro l hl
  rcases List.mem_append.mp hl with hl | hl
  · exact hb l (List.mem_of_mem_take hl)
  · obtain ⟨l', hl', rfl⟩ := List.mem_map.mp hl
    exact hf l' (hb l' (List.mem_of_mem_drop hl'))

/-- The lines from some line on exchanged for lines that are read alike. -/
lemma readable_map_drop {buffer : Buffer} (hb : buffer.Unbroken) {f : Line → Line}
    (hnl : ∀ l, '\n' ∉ l → '\n' ∉ f l) (hf : ∀ l, Scanner.Alike l (f l)) (n : Nat)
    (h : Readable buffer) : Readable (buffer.take n ++ (buffer.drop n).map f) := by
  rw [Readable, statements_ok_iff hb, above_take_drop buffer n] at h
  rw [Readable, statements_ok_iff (hb.map_drop hnl n), above_append,
    ← ((Scanner.Alike.refl (above (buffer.take n))).append (alike_above_map hf _)) _
      (Scanner.proper_fresh false)]
  exact h

/-! ### Blank lines -/

/-- A blank line below another line can be taken out or put in. -/
lemma alike_blank_below (upper : Buffer) (hupper : upper ≠ []) {k : Line}
    (hk : allBlank k = true) :
    Scanner.Alike (above (upper ++ [k])) (above upper) := by
  have hend : Scanner.Alike ('\n' :: (k ++ ['\n'])) ['\n'] := by
    refine Scanner.alike_of_blank ?_ (by simp [allBlank, isBlank_newline]) (by simp) (by simp)
      (by simp)
    rw [allBlank, List.all_cons, isBlank_newline, Bool.true_and, ← allBlank, allBlank_append, hk]
    simp [allBlank, isBlank_newline]
  have habove : above (upper ++ [k]) = text upper ++ '\n' :: (k ++ ['\n']) := by
    rw [above_append, above_eq hupper, above_cons, above_nil]
    simp
  rw [habove, above_eq hupper]
  exact (Scanner.Alike.refl (text upper)).append hend

lemma insertIdx_eq_append {buffer : Buffer} {index : Nat} (hle : index ≤ buffer.length)
    (l : Line) : buffer.insertIdx index l = (buffer.take index ++ [l]) ++ buffer.drop index := by
  induction buffer generalizing index with
  | nil =>
      obtain rfl : index = 0 := Nat.le_zero.mp hle
      rfl
  | cons first rest ih =>
      cases index with
      | zero => rfl
      | succ index =>
          rw [List.insertIdx_succ_cons, ih (Nat.le_of_succ_le_succ hle)]
          rfl

lemma Unbroken.insertIdx {buffer : Buffer} (hb : buffer.Unbroken) {index : Nat}
    (hle : index ≤ buffer.length) : Unbroken (buffer.insertIdx index []) := by
  intro l hl
  rw [insertIdx_eq_append hle] at hl
  simp only [List.mem_append, List.mem_singleton] at hl
  rcases hl with (hl | rfl) | hl
  · exact hb l (List.mem_of_mem_take hl)
  · simp
  · exact hb l (List.mem_of_mem_drop hl)

/-- An empty line put in below the first line. -/
lemma readable_insertIdx {buffer : Buffer} (hb : buffer.Unbroken) {index : Nat}
    (hpos : 0 < index) (hle : index ≤ buffer.length) (h : Readable buffer) :
    Readable (buffer.insertIdx index []) := by
  have hupper : buffer.take index ≠ [] := by
    rw [Ne, List.take_eq_nil_iff]
    rintro (rfl | rfl)
    · omega
    · simp at hle
      omega
  rw [Readable, statements_ok_iff hb, above_take_drop buffer index] at h
  rw [Readable, statements_ok_iff (hb.insertIdx hle), insertIdx_eq_append hle, above_append,
    ((alike_blank_below _ hupper (k := []) rfl).append (Scanner.Alike.refl _)) _
      (Scanner.proper_fresh false)]
  exact h

lemma Unbroken.eraseIdx {buffer : Buffer} (hb : buffer.Unbroken) (index : Nat) :
    Unbroken (buffer.eraseIdx index) :=
  fun l hl => hb l (List.mem_of_mem_eraseIdx hl)

/-- A blank line taken out. -/
lemma readable_eraseIdx {buffer : Buffer} (hb : buffer.Unbroken) {index : Nat} {k : Line}
    (hk : buffer[index]? = some k) (hblank : allBlank k = true) (h : Readable buffer) :
    Readable (buffer.eraseIdx index) := by
  obtain ⟨hlt, rfl⟩ := List.getElem?_eq_some_iff.mp hk
  have hdrop : buffer.drop index = [buffer[index]] ++ buffer.drop (index + 1) :=
    List.drop_eq_getElem_cons hlt
  rw [Readable, statements_ok_iff hb, above_take_drop buffer index, hdrop, above_append,
    ← List.append_assoc, ← above_append] at h
  rw [Readable, statements_ok_iff (hb.eraseIdx index), List.eraseIdx_eq_take_drop_succ,
    above_append]
  by_cases hupper : buffer.take index = []
  · -- at the start of the text blanks do not matter
    have hline : allBlank (above [buffer[index]]) = true := by
      rw [above_cons, above_nil, allBlank_append, hblank]
      simp [allBlank, isBlank_newline]
    rw [hupper, List.nil_append, Scanner.run_append, Scanner.run_fresh_of_blank _ hline] at h
    rw [hupper, above_nil, List.nil_append]
    exact h
  · rw [((alike_blank_below _ hupper hblank).append (Scanner.Alike.refl _)) _
      (Scanner.proper_fresh false)] at h
    exact h

end Buffer

end LintRepair
