import LintRepair.Proofs.Buffer.Characters

/-!
Tab stops and what is seen of a line.

On a screen a line is a row of cells. A tab takes up the cells to the next stop, so where it ends
depends on all that stands in front of it. Expanded tabs fill the same cells with spaces, as long as
display columns are counted exactly. In words of 64 bits they are exact up to the last word. Which
tabs are expanded is not a matter of counting: whatever the sums, of two expansions the one that
begins further left counts.

* `nextStop`, `Line.cells`: the tab stop behind a display column, and the cells of a line.
* `wordAdd_of_lt`: small sums are exact.
* `length_le_expandTabs`: an expanded line is at least as long as the line.
* `expandTabs_expandTabs`: of two expansions the one that begins further left counts.
* `Line.expandTabsExactly`: the expansion with exact sums; `expandTabs_eq_exactly` for the lines on
  which words are enough.
* `cells_expandTabsExactly`: a line with its tabs expanded exactly has the cells of the line.
* `expandTabs_keeps_layout`: what becomes of a line.
-/

namespace LintRepair

/-! ### Cells -/

/-- The first tab stop behind a display column. -/
def nextStop (width display : Nat) : Nat := (display / width + 1) * width

/-- The cells that are taken once one more character is shown. -/
def showChar (width : Nat) (shown : List Char) (c : Char) : List Char :=
  shown ++
    if c = '\t' then List.replicate (nextStop width shown.length - shown.length) ' ' else [c]

/-- The cells that a line takes up. A width of zero counts as one. -/
def Line.cells (l : Line) (width : Nat) : List Char := l.foldl (showChar (max width 1)) []

/-- The distance to the next stop. -/
lemma tabPad_eq {width : Nat} (hwidth : 0 < width) (display : Nat) :
    tabPad width display = nextStop width display - display := by
  have hdisplay := Nat.div_add_mod' display width
  have hmod := Nat.mod_lt display hwidth
  rw [tabPad, nextStop, Nat.add_mul, Nat.one_mul]
  omega

/-- A tab takes the cells to the next stop, and any other character one. -/
lemma length_showChar {width : Nat} (hwidth : 0 < width) (shown : List Char) (c : Char) :
    (showChar width shown c).length =
      shown.length + if c = '\t' then tabPad width shown.length else 1 := by
  rw [showChar, List.length_append]
  split_ifs
  · rw [List.length_replicate, tabPad_eq hwidth]
  · rfl

lemma length_le_foldl_showChar (width : Nat) (shown : List Char) (l : Line) :
    shown.length ≤ (l.foldl (showChar width) shown).length := by
  induction l generalizing shown with
  | nil => exact Nat.le_refl _
  | cons c l ih =>
      rw [List.foldl_cons]
      refine Nat.le_trans ?_ (ih _)
      rw [showChar, List.length_append]
      exact Nat.le_add_right _ _

/-- Characters other than tabs take one cell each. -/
lemma foldl_showChar_of_not_mem {x : List Char} (hx : '\t' ∉ x) (width : Nat)
    (shown : List Char) : x.foldl (showChar width) shown = shown ++ x := by
  induction x generalizing shown with
  | nil => simp
  | cons c x ih =>
      rw [List.mem_cons, not_or] at hx
      rw [List.foldl_cons, ih hx.2, showChar, if_neg (Ne.symm hx.1), List.append_assoc,
        List.singleton_append]

/-! ### Expanded tabs -/

section Expansion

variable (add : Nat → Nat → Nat) {start stop index width : Nat}

lemma length_le_expandTabsFrom (start : Nat) (hwidth : 0 < width) (index display : Nat)
    (l : Line) : l.length ≤ (expandTabsFrom add start width index display l).length := by
  induction l generalizing index display with
  | nil => exact Nat.le_refl _
  | cons c l ih =>
      obtain ⟨e, display', heq, he⟩ :=
        exists_expandTabsFrom_cons add start hwidth index display c l
      have hrest := ih (index + 1) display'
      have hlength : 1 ≤ e.length := by
        rcases he with rfl | ⟨-, n, rfl⟩
        · simp
        · simp
      rw [heq, List.length_append, List.length_cons]
      omega

/-- A character in front of the first expanded column stays. -/
lemma expandTabsFrom_cons_of_lt (h : index < start) (width display : Nat) (c : Char) (l : Line) :
    expandTabsFrom add start width index display (c :: l) =
      c :: expandTabsFrom add start width (index + 1)
        (add display (if c = '\t' then tabPad width display else 1)) l := by
  rw [expandTabsFrom, if_neg (Nat.not_le.mpr h)]
  split_ifs with hc
  · rw [hc, List.singleton_append]
  · rfl

/-- From the first expanded column on no tab is left. -/
lemma not_mem_expandTabsFrom (h : start ≤ index) (width display : Nat) (l : Line) :
    '\t' ∉ expandTabsFrom add start width index display l := by
  induction l generalizing index display with
  | nil => simp [expandTabsFrom]
  | cons c l ih =>
      rw [expandTabsFrom]
      split_ifs with hc
      · rw [List.mem_append, not_or]
        exact ⟨by simp [List.mem_replicate], ih (Nat.le_succ_of_le h) _⟩
      · rw [List.mem_cons, not_or]
        exact ⟨Ne.symm hc, ih (Nat.le_succ_of_le h) _⟩

/-- In front of the first expanded column nothing changes. -/
lemma exists_expandTabsFrom (start width index display : Nat) (l : Line) :
    ∃ rest, expandTabsFrom add start width index display l = l.take (start - index) ++ rest ∧
      '\t' ∉ rest := by
  induction l generalizing index display with
  | nil => exact ⟨[], by simp [expandTabsFrom], by simp⟩
  | cons c l ih =>
      rcases Nat.lt_or_ge index start with hstart | hstart
      · obtain ⟨rest, hrest, htab⟩ :=
          ih (index + 1) (add display (if c = '\t' then tabPad width display else 1))
        refine ⟨rest, ?_, htab⟩
        rw [expandTabsFrom_cons_of_lt add hstart, hrest,
          show start - index = (start - (index + 1)) + 1 by omega, List.take_succ_cons,
          List.cons_append]
      · rw [Nat.sub_eq_zero_of_le hstart]
        exact ⟨_, rfl, not_mem_expandTabsFrom add hstart width display (c :: l)⟩

/-- Without tabs from the first expanded column on there is nothing to expand. -/
lemma expandTabsFrom_of_not_mem {l : Line} (h : '\t' ∉ l.drop (start - index))
    (width display : Nat) : expandTabsFrom add start width index display l = l := by
  induction l generalizing index display with
  | nil => rfl
  | cons c l ih =>
      rcases Nat.lt_or_ge index start with hstart | hstart
      · rw [show start - index = (start - (index + 1)) + 1 by omega, List.drop_succ_cons] at h
        rw [expandTabsFrom_cons_of_lt add hstart, ih h]
      · rw [Nat.sub_eq_zero_of_le hstart, List.drop_zero, List.mem_cons, not_or] at h
        have hrest : '\t' ∉ l.drop (start - (index + 1)) := fun hm => h.2 (List.mem_of_mem_drop hm)
        rw [expandTabsFrom, if_neg (Ne.symm h.1), ih hrest]

/-- Behind both columns it does not matter from which one the tabs are expanded. -/
lemma expandTabsFrom_congr (hstart : start ≤ index) (hstop : stop ≤ index) (width display : Nat)
    (l : Line) :
    expandTabsFrom add start width index display l =
      expandTabsFrom add stop width index display l := by
  induction l generalizing index display with
  | nil => rfl
  | cons c l ih =>
      simp only [expandTabsFrom, if_pos hstart, if_pos hstop,
        ih (Nat.le_succ_of_le hstart) (Nat.le_succ_of_le hstop)]

/-- An expansion from a column further left on undoes nothing of an earlier one. Up to the column
of the earlier one both see the same characters, and from there on no tab is left. -/
lemma expandTabsFrom_expandTabsFrom (h : stop ≤ start) (index display : Nat) (l : Line) :
    expandTabsFrom add stop width index display
        (expandTabsFrom add start width index display l) =
      expandTabsFrom add stop width index display l := by
  induction l generalizing index display with
  | nil => rfl
  | cons c l ih =>
      rcases Nat.lt_or_ge index start with hstart | hstart
      · rw [expandTabsFrom_cons_of_lt add hstart]
        simp only [expandTabsFrom]
        split_ifs with hc
        · rw [ih]
        · rw [ih]
        · rw [ih]
      · have htab := not_mem_expandTabsFrom add hstart width display (c :: l)
        rw [expandTabsFrom_of_not_mem add fun hm => htab (List.mem_of_mem_drop hm)]
        exact expandTabsFrom_congr add hstart (h.trans hstart) width display (c :: l)

end Expansion

/-! ### Sums of display columns -/

/-- Small sums are exact. -/
lemma wordAdd_of_lt {a b : Nat} (h : a + b < 2 ^ 64) : wordAdd a b = a + b :=
  Nat.mod_eq_of_lt h

/-- As long as the cells can be counted in words, so can the display columns. -/
lemma expandTabsFrom_wordAdd {width : Nat} (hwidth : 0 < width) (start index : Nat)
    {shown : List Char} {l : Line} (h : (l.foldl (showChar width) shown).length < 2 ^ 64) :
    expandTabsFrom wordAdd start width index shown.length l =
      expandTabsFrom (· + ·) start width index shown.length l := by
  induction l generalizing index shown with
  | nil => rfl
  | cons c l ih =>
      have hrest := ih (index + 1) h
      have hfirst := length_showChar hwidth shown c
      have hsum : shown.length + (if c = '\t' then tabPad width shown.length else 1) < 2 ^ 64 := by
        rw [← hfirst]
        exact Nat.lt_of_le_of_lt (length_le_foldl_showChar width _ l) h
      rw [expandTabsFrom, expandTabsFrom]
      by_cases hc : c = '\t'
      · rw [if_pos hc] at hfirst hsum
        rw [hfirst] at hrest
        rw [if_pos hc, if_pos hc, wordAdd_of_lt hsum, hrest]
      · rw [if_neg hc] at hfirst hsum
        rw [hfirst] at hrest
        rw [if_neg hc, if_neg hc, wordAdd_of_lt hsum, hrest]

/-- Expanded tabs fill the cells that the tabs took. -/
lemma foldl_showChar_expandTabsFrom {width : Nat} (hwidth : 0 < width) (start index : Nat)
    (shown : List Char) (l : Line) :
    (expandTabsFrom (· + ·) start width index shown.length l).foldl (showChar width) shown =
      l.foldl (showChar width) shown := by
  induction l generalizing index shown with
  | nil => rfl
  | cons c l ih =>
      -- the display column is the number of cells that are taken
      have hrest := ih (index + 1) (showChar width shown c)
      rw [length_showChar hwidth] at hrest
      rw [expandTabsFrom, List.foldl_cons]
      by_cases hc : c = '\t'
      · have hfirst : (if start ≤ index then List.replicate (tabPad width shown.length) ' '
            else ['\t']).foldl (showChar width) shown = showChar width shown c := by
          split_ifs
          · rw [foldl_showChar_of_not_mem (by simp [List.mem_replicate]), showChar, if_pos hc,
              tabPad_eq hwidth]
          · rw [hc]
            rfl
        rw [if_pos hc] at hrest
        rw [if_pos hc, List.foldl_append, hfirst, hrest]
      · have hfirst : showChar width shown c = shown ++ [c] := by rw [showChar, if_neg hc]
        rw [if_neg hc] at hrest
        rw [if_neg hc, List.foldl_cons, hrest]

/-! ### Lines -/

namespace Line

/-- Expands the tabs of a line from column `start` on, with exact display columns. -/
def expandTabsExactly (l : Line) (start width : Nat) : Line :=
  expandTabsFrom (· + ·) start (max width 1) 0 0 l

section

variable (l : Line) (start width : Nat)

lemma length_le_expandTabs : l.length ≤ (l.expandTabs start width).length :=
  length_le_expandTabsFrom wordAdd start (by omega) 0 0 l

/-- Of two expansions the one that begins further left counts. -/
lemma expandTabs_expandTabs (stop : Nat) :
    (l.expandTabs start width).expandTabs stop width = l.expandTabs (min start stop) width := by
  rcases Nat.le_total start stop with h | h
  · -- behind the start of the first expansion there are no tabs left
    obtain ⟨rest, heq, htab⟩ := exists_expandTabsFrom wordAdd start (max width 1) 0 0 l
    have hnone : '\t' ∉ (l.expandTabs start width).drop (stop - 0) := by
      have hlength : (l.take start).length ≤ stop := (List.length_take_le start l).trans h
      rw [expandTabs, heq, Nat.sub_zero, Nat.sub_zero, List.drop_append,
        List.drop_eq_nil_of_le hlength, List.nil_append]
      exact fun hm => htab (List.mem_of_mem_drop hm)
    rw [Nat.min_eq_left h]
    exact expandTabsFrom_of_not_mem wordAdd hnone (max width 1) 0
  · rw [Nat.min_eq_right h]
    exact expandTabsFrom_expandTabsFrom wordAdd h 0 0 l

/-- A line whose cells can be counted in words is expanded exactly. -/
lemma expandTabs_eq_exactly (h : (l.cells width).length < 2 ^ 64) :
    l.expandTabs start width = l.expandTabsExactly start width :=
  expandTabsFrom_wordAdd (by omega) start 0 h

/-- A line with its tabs expanded exactly has the cells of the line. -/
lemma cells_expandTabsExactly : (l.expandTabsExactly start width).cells width = l.cells width :=
  foldl_showChar_expandTabsFrom (by omega) start 0 [] l

end

/-- The layout of a line whose tabs are expanded from a column on: the line up to that column stays
and no tab is left behind it, in words as well as with exact display columns. With exact ones the
line is seen as before, and words are exact as long as they can count its cells. -/
theorem expandTabs_keeps_layout (l : Line) (start width : Nat) :
    (∃ rest, l.expandTabs start width = l.take (min start l.length) ++ rest ∧ '\t' ∉ rest) ∧
      (∃ rest, l.expandTabsExactly start width = l.take (min start l.length) ++ rest ∧
        '\t' ∉ rest) ∧
      (l.expandTabsExactly start width).cells width = l.cells width ∧
      ((l.cells width).length < 2 ^ 64 →
        l.expandTabs start width = l.expandTabsExactly start width) := by
  rw [← List.take_eq_take_min]
  exact ⟨exists_expandTabsFrom wordAdd start (max width 1) 0 0 l,
    exists_expandTabsFrom (· + ·) start (max width 1) 0 0 l, cells_expandTabsExactly l start width,
    expandTabs_eq_exactly l start width⟩

example : Line.expandTabs "\ta\tb".toList 2 4 = "\ta   b".toList := by decide

-- three tabs reach the last word, so the fourth one wraps around to a column in front of a stop
example : Line.expandTabs "\t\t\t\t\tx".toList 4 6148914691236517205 = "\t\t\t\t x".toList := by
  decide

end Line

end LintRepair
