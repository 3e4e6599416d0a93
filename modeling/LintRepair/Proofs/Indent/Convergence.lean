import Mathlib.Tactic
import Mathlib.Order.Interval.Set.UnorderedInterval
import LintRepair.Proofs.Indent.Message
import LintRepair.Proofs.Line.Editing
import LintRepair.Proofs.Line.Reported

/-!
Repeated fixes of one indentation.

A fix moves a line by one space. Where several levels are accepted, each run chooses anew among
them, and of two that are as near the one that its message names first. Still no run is lost: after
each of them the line is one step nearer to the accepted levels, and it stops at one that was
nearest at the start.

* `levelsAway`: how far a level is from the accepted ones.
* `Line.indented`: a text behind some spaces; `exists_stepIndent_indented` moves it by one of them.
* `Violation.ReportsLevel`: a violation that names a level and the accepted ones.
* `exists_indent`: one run.
* `indentRuns`: several runs, each with the report for the level that the line has by then.
* `indentRuns_converge`: the runs reach an accepted level.
-/

namespace LintRepair

/-! ### Distances -/

lemma levelDistance_self (level : Nat) : levelDistance level level = 0 := by
  simp [levelDistance]

/-- How far a level is from the nearest accepted one. -/
def levelsAway (accepted : List Nat) (level : Nat) : Option Nat :=
  (accepted.map (levelDistance · level)).min?

lemma levelsAway_eq_some_iff {accepted : List Nat} {level d : Nat} :
    levelsAway accepted level = some d ↔
      (∃ a ∈ accepted, levelDistance a level = d) ∧ ∀ a ∈ accepted, d ≤ levelDistance a level := by
  simp [levelsAway, List.min?_eq_some_iff]

/-- A step towards one of the nearest accepted levels leaves one step less to go. -/
lemma levelsAway_of_step {accepted : List Nat} {level level' target d : Nat}
    (haway : levelsAway accepted level = some (d + 1)) (htarget : target ∈ accepted)
    (hstep : levelDistance level' level = 1) (hnear : levelDistance target level' = d) :
    levelsAway accepted level' = some d := by
  obtain ⟨-, hleast⟩ := levelsAway_eq_some_iff.mp haway
  refine levelsAway_eq_some_iff.mpr ⟨⟨target, htarget, hnear⟩, fun a ha => ?_⟩
  have hle := hleast a ha
  simp only [levelDistance] at hle hstep ⊢
  omega

/-! ### One run -/

/-- A text behind so many spaces. -/
def Line.indented (text : Line) (level : Nat) : Line := List.replicate level ' ' ++ text

/-- A step from one level towards another one changes nothing but the spaces. -/
lemma Line.exists_stepIndent_indented (text : Line) {level target : Nat} (hne : target ≠ level) :
    ∃ level', (text.indented level).stepIndent level target = some (text.indented level') ∧
      levelDistance level' level = 1 ∧
      levelDistance target level' + 1 = levelDistance target level := by
  simp only [levelDistance]
  rw [stepIndent]
  rcases Nat.lt_or_gt_of_ne hne with hlt | hgt
  · refine ⟨level - 1, ?_, by omega, by omega⟩
    have hlength : level - 1 < (List.replicate level ' ').length := by
      rw [List.length_replicate]
      omega
    rw [if_neg (by omega), if_pos hlt, removeAt_eq, indented, if_pos (by simp; omega),
      List.eraseIdx_append_of_lt_length hlength, List.eraseIdx_replicate, if_pos (by omega)]
    rfl
  · refine ⟨level + 1, ?_, by omega, by omega⟩
    have hlength : (List.replicate level ' ').length = level := List.length_replicate
    rw [if_pos hgt, insertAt_eq, indented, if_pos (by simp), List.take_left' hlength,
      List.drop_left' hlength, ← List.replicate_succ']
    rfl

/-- A violation that reports the level of a line, with a message that names it beside the accepted
ones, in any order. -/
structure Violation.ReportsLevel (v : Violation) (index level : Nat) (accepted : List Nat) :
    Prop where
  line : v.line = index + 1
  column : v.column = level + 1
  message : ∃ found, levels v.message = .ok found ∧ found.Perm (level :: accepted)

section Run

variable {accepted : List Nat} {v : Violation} {index level d : Nat}

/-- A report of a level that is not accepted tells a nearest one that is. -/
lemma Violation.ReportsLevel.exists_target (hv : v.ReportsLevel index level accepted)
    (haway : levelsAway accepted level = some (d + 1)) :
    ∃ target ∈ accepted, expectedLevel v.message level = .ok target ∧
      levelDistance target level = d + 1 := by
  obtain ⟨⟨a, ha, hdistance⟩, hleast⟩ := levelsAway_eq_some_iff.mp haway
  obtain ⟨found, hfound, hperm⟩ := hv.message
  obtain ⟨rfl, hsmall⟩ := levels_eq_ok_iff.mp hfound
  have hother : ∀ b ∈ accepted, b ≠ level := by
    rintro b hb rfl
    have hpos := hleast b hb
    simp only [levelDistance] at hpos
    omega
  have hmem : ∀ n, n ∈ numbers v.message ↔ n = level ∨ n ∈ accepted := fun n =>
    hperm.mem_iff.trans List.mem_cons
  have hclear : ¬ Unclear (numbers v.message) level := by
    rintro (⟨n, hn, hlarge⟩ | hshort | hmissing | ⟨-, hall⟩)
    · exact absurd (hsmall n hn) (not_lt.mpr hlarge)
    · have hlength := hperm.length_eq
      have hpos := List.length_pos_of_mem ha
      rw [List.length_cons] at hlength
      omega
    · exact hmissing ((hmem level).mpr (Or.inl rfl))
    · exact hother a ha (hall a ((hmem a).mpr (Or.inr ha)))
  obtain ⟨target, htold, htells⟩ := exists_expectedLevel hclear
  obtain ⟨htarget, hnearest⟩ := htells.nearest
  obtain ⟨hne, hle⟩ := hnearest a ((hmem a).mpr (Or.inr ha)) (hother a ha)
  have haccepted : target ∈ accepted := ((hmem target).mp htarget).resolve_left hne
  refine ⟨target, haccepted, htold, ?_⟩
  have hge := hleast target haccepted
  omega

/-- One run on a line brings it one step nearer to the accepted levels, towards one of the
nearest. -/
lemma exists_indent {buffer : Buffer} {text : Line} (hv : v.ReportsLevel index level accepted)
    (haway : levelsAway accepted level = some (d + 1))
    (hl : buffer[index]? = some (text.indented level)) :
    ∃ level', Fix.indent v buffer = .ok (buffer.set index (text.indented level')) ∧
      levelDistance level' level = 1 ∧ levelsAway accepted level' = some d ∧
      ∃ target ∈ accepted, level' ∈ Set.uIcc level target := by
  obtain ⟨target, htarget, htold, hdistance⟩ := hv.exists_target haway
  have hne : target ≠ level := by
    rintro rfl
    simp [levelDistance] at hdistance
  obtain ⟨level', hstep, hone, hnear⟩ := text.exists_stepIndent_indented hne
  have hindex : v.lineIndex = index := by rw [Violation.lineIndex, hv.line, Nat.add_sub_cancel]
  have hcolumn : v.columnIndex = level := by
    rw [Violation.columnIndex, hv.column, Nat.add_sub_cancel]
  refine ⟨level', ?_, hone, levelsAway_of_step haway htarget hone (by omega), target, htarget, ?_⟩
  · refine onLine_eq_ok_iff.mpr ⟨by rw [hv.line]; omega, _, _, hindex.symm ▸ hl, ?_, by rw [hindex]⟩
    rw [hcolumn, htold, if_neg (by simp [Line.indented])]
    exact orColumnError_eq_ok_iff.mpr hstep
  · rw [Set.mem_uIcc]
    simp only [levelDistance] at hone hnear
    omega

end Run

/-! ### Several runs -/

/-- Runs of the fix on one line, so many of them. The level of the line is how much stands in front
of the text, and each run takes the report for the level that the line has by then. -/
def indentRuns (report : Nat → Violation) (index : Nat) (text : Line) :
    Nat → Buffer → Except FixError Buffer
  | 0, buffer => .ok buffer
  | n + 1, buffer =>
      match Fix.indent (report ((buffer[index]?.getD []).length - text.length)) buffer with
      | .error e => .error e
      | .ok buffer' => indentRuns report index text n buffer'

section Runs

variable {accepted : List Nat} {report : Nat → Violation} {index level d : Nat} {text : Line}
  {buffer : Buffer}

lemma indentRuns_succ (hl : buffer[index]? = some (text.indented level)) {buffer' : Buffer}
    (hfix : Fix.indent (report level) buffer = .ok buffer') (n : Nat) :
    indentRuns report index text (n + 1) buffer = indentRuns report index text n buffer' := by
  have hlevel : (buffer[index]?.getD []).length - text.length = level := by
    rw [hl, Option.getD_some, Line.indented, List.length_append, List.length_replicate,
      Nat.add_sub_cancel]
  rw [indentRuns, hlevel, hfix]

lemma indentRuns_zero (hl : buffer[index]? = some (text.indented level)) :
    indentRuns report index text 0 buffer = .ok (buffer.set index (text.indented level)) := by
  rw [indentRuns, Buffer.set_self hl]

/-- The runs go straight to an accepted level. -/
lemma exists_indentRuns (haway : levelsAway accepted level = some d)
    (hl : buffer[index]? = some (text.indented level))
    (hreport : ∀ a ∈ accepted, ∀ between ∈ Set.uIcc level a, levelDistance between level < d →
      (report between).ReportsLevel index between accepted) :
    ∃ target ∈ accepted, levelDistance target level = d ∧
      ∀ n ≤ d, ∃ reached, levelDistance reached level = n ∧
        levelDistance target reached = d - n ∧ levelsAway accepted reached = some (d - n) ∧
        indentRuns report index text n buffer = .ok (buffer.set index (text.indented reached)) := by
  induction d generalizing level buffer with
  | zero =>
      obtain ⟨⟨target, htarget, hdistance⟩, -⟩ := levelsAway_eq_some_iff.mp haway
      refine ⟨target, htarget, hdistance, fun n hn => ?_⟩
      obtain rfl : n = 0 := Nat.le_zero.mp hn
      exact ⟨level, levelDistance_self level, hdistance, haway, indentRuns_zero hl⟩
  | succ d ih =>
      obtain ⟨⟨a, ha, -⟩, hleast⟩ := levelsAway_eq_some_iff.mp haway
      have hfirst : (report level).ReportsLevel index level accepted :=
        hreport a ha level Set.left_mem_uIcc (by rw [levelDistance_self]; omega)
      obtain ⟨level', hfix, hone, haway', aim, haim, hway⟩ := exists_indent hfirst haway hl
      have hl' : (buffer.set index (text.indented level'))[index]? = some (text.indented level') :=
        List.getElem?_set_self (List.getElem?_eq_some_iff.mp hl).1
      -- behind the first step, all that lies on the way lies on a way from the start
      have hreport' : ∀ a ∈ accepted, ∀ between ∈ Set.uIcc level' a,
          levelDistance between level' < d →
            (report between).ReportsLevel index between accepted := by
        intro a ha between hbetween hlt
        simp only [levelDistance] at hone hlt
        by_cases hstart : between = level'
        · rw [hstart]
          refine hreport aim haim level' hway ?_
          simp only [levelDistance]
          omega
        · refine hreport a ha between ?_ ?_
          · rw [Set.mem_uIcc] at hbetween ⊢
            omega
          · simp only [levelDistance]
            omega
      obtain ⟨target, htarget, hdistance, hruns⟩ := ih haway' hl' hreport'
      have hfar : levelDistance target level = d + 1 := by
        have hge := hleast target htarget
        simp only [levelDistance] at hge hone hdistance ⊢
        omega
      refine ⟨target, htarget, hfar, fun n hn => ?_⟩
      cases n with
      | zero => exact ⟨level, levelDistance_self level, hfar, haway, indentRuns_zero hl⟩
      | succ n =>
          obtain ⟨reached, hreached, hleft, haway'', hrun⟩ := hruns n (by omega)
          refine ⟨reached, ?_, by omega, by rw [haway'', Nat.add_sub_add_right], ?_⟩
          · -- no step is lost, since the target is as far away as all steps together
            simp only [levelDistance] at hone hreached hleft hfar ⊢
            omega
          · rw [indentRuns_succ hl hfix, hrun, List.set_set]

end Runs

/-- Runs on a line of some spaces and any text, each with a report of the level at that time and of
the accepted levels. The runs succeed, change nothing but the spaces, and bring the line one step
nearer to the accepted levels each. So after as many runs as the nearest accepted level was steps
away, the line is at an accepted level that far from where it was. -/
theorem indentRuns_converge {accepted : List Nat} {level d : Nat}
    (haway : levelsAway accepted level = some d) (text : Line) {buffer : Buffer} {index : Nat}
    (hl : buffer[index]? = some (text.indented level)) (report : Nat → Violation)
    (hreport : ∀ a ∈ accepted, ∀ between ∈ Set.uIcc level a, levelDistance between level < d →
      (report between).ReportsLevel index between accepted) :
    ∃ target ∈ accepted, levelDistance target level = d ∧
      indentRuns report index text d buffer = .ok (buffer.set index (text.indented target)) ∧
      ∀ n ≤ d, ∃ reached, levelDistance reached level = n ∧
        levelDistance target reached = d - n ∧ levelsAway accepted reached = some (d - n) ∧
        indentRuns report index text n buffer =
          .ok (buffer.set index (text.indented reached)) := by
  obtain ⟨target, htarget, hdistance, hruns⟩ := exists_indentRuns haway hl hreport
  obtain ⟨reached, -, hleft, -, hrun⟩ := hruns d (Nat.le_refl d)
  obtain rfl : target = reached := by
    simp only [levelDistance] at hleft
    omega
  exact ⟨target, htarget, hdistance, hrun, hruns⟩

/-- A line half-way between two accepted levels, with a text that begins with a space. -/
theorem indentRuns_converge_from_the_middle :
    ∃ target ∈ [4, 8], levelDistance target 6 = 2 ∧
      indentRuns (fun level => ⟨1, level + 1, "indentation.error.multi",
          "'x' is at " ++ toString level ++ ", not at one of 8, 4"⟩) 0 " x();".toList 2
        [Line.indented " x();".toList 6] = .ok [Line.indented " x();".toList target] := by
  have hreport : ∀ a ∈ [4, 8], ∀ between ∈ Set.uIcc 6 a, levelDistance between 6 < 2 →
      (⟨1, between + 1, "indentation.error.multi",
          "'x' is at " ++ toString between ++ ", not at one of 8, 4"⟩ : Violation).ReportsLevel 0
        between [4, 8] := by
    intro a _ between _ hlt
    have hbetween : between = 5 ∨ between = 6 ∨ between = 7 := by
      simp only [levelDistance] at hlt
      omega
    rcases hbetween with rfl | rfl | rfl
    · exact ⟨rfl, rfl, [5, 8, 4], by decide, by decide⟩
    · exact ⟨rfl, rfl, [6, 8, 4], by decide, by decide⟩
    · exact ⟨rfl, rfl, [7, 8, 4], by decide, by decide⟩
  obtain ⟨target, htarget, hdistance, hrun, -⟩ :=
    indentRuns_converge (show levelsAway [4, 8] 6 = some 2 by decide) " x();".toList
      (show ([Line.indented " x();".toList 6] : Buffer)[0]? = some _ from rfl) _ hreport
  exact ⟨target, htarget, hdistance, hrun⟩

end LintRepair
