import Mathlib.Tactic
import LintRepair.Fix.Imports

/-!
Fixes and the reported line.

Every fix first looks up the reported line. What it does then is said here once for each kind of
fix, so that no later proof has to look into the lookup again.

* `reportedLine_eq_ok_iff`: the reported line is there; `reportedLine_set` for one put in its place.
* `onLine_eq_ok_iff`, `onLine_bind`: a fix that edits the reported line, and two of them.
* `joinGroup_eq_ok_iff`, `separateGroup_eq_ok_iff`: a fix of the line above the reported one.
* `onStatements_eq_ok_iff`: a fix on the statements of the buffer.
-/

namespace LintRepair

variable {v : Violation} {buffer buffer' : Buffer}

lemma reportedLine_eq_ok_iff {l : Line} :
    reportedLine buffer v = .ok l ↔ 1 ≤ v.line ∧ buffer[v.lineIndex]? = some l := by
  rw [reportedLine]
  split_ifs with hzero
  · simp [hzero]
  · cases buffer[v.lineIndex]? with
    | none => simp
    | some k => simp [Nat.one_le_iff_ne_zero, hzero]

/-- A line that is put in the place of the reported one is reported. -/
lemma reportedLine_set {l : Line} (h : reportedLine buffer v = .ok l) (l' : Line) :
    reportedLine (buffer.set v.lineIndex l') v = .ok l' := by
  obtain ⟨hline, hl⟩ := reportedLine_eq_ok_iff.mp h
  have hlt : v.lineIndex < buffer.length := (List.getElem?_eq_some_iff.mp hl).1
  exact reportedLine_eq_ok_iff.mpr ⟨hline, List.getElem?_set_self hlt⟩

/-- A line that is put where it stands changes nothing. -/
lemma Buffer.set_self {index : Nat} {l : Line} (h : buffer[index]? = some l) :
    buffer.set index l = buffer := by
  obtain ⟨hlt, rfl⟩ := List.getElem?_eq_some_iff.mp h
  exact List.set_getElem_self hlt

/-- The reported line is there or it is not. -/
lemma reportedLine_cases (buffer : Buffer) (v : Violation) :
    (1 ≤ v.line ∧ v.lineIndex < buffer.length ∧ ∃ l, reportedLine buffer v = .ok l) ∨
      ¬ (1 ≤ v.line ∧ v.lineIndex < buffer.length) ∧ ∃ e, reportedLine buffer v = .error e := by
  cases hreported : reportedLine buffer v with
  | ok l =>
      obtain ⟨hline, hl⟩ := reportedLine_eq_ok_iff.mp hreported
      exact Or.inl ⟨hline, (List.getElem?_eq_some_iff.mp hl).1, l, rfl⟩
  | error e =>
      refine Or.inr ⟨?_, e, rfl⟩
      rintro ⟨hline, hlt⟩
      rw [reportedLine_eq_ok_iff.mpr ⟨hline, List.getElem?_eq_getElem hlt⟩] at hreported
      simp at hreported

lemma orColumnError_eq_ok_iff {l l' : Line} {edited : Option Line} :
    orColumnError v l edited = .ok l' ↔ edited = some l' := by
  cases edited <;> simp [orColumnError]

lemma onLine_eq_ok_iff {edit : Violation → Line → Except FixError Line} :
    Fix.onLine edit v buffer = .ok buffer' ↔
      1 ≤ v.line ∧ ∃ l l', buffer[v.lineIndex]? = some l ∧ edit v l = .ok l' ∧
        buffer' = buffer.set v.lineIndex l' := by
  rw [Fix.onLine]
  cases hreported : reportedLine buffer v with
  | error e =>
      simp only [reduceCtorEq, false_iff]
      rintro ⟨hline, l, -, hl, -⟩
      rw [reportedLine_eq_ok_iff.mpr ⟨hline, hl⟩] at hreported
      simp at hreported
  | ok l =>
      obtain ⟨hline, hl⟩ := reportedLine_eq_ok_iff.mp hreported
      cases hedit : edit v l with
      | error e => simp [hline, hl, hedit]
      | ok l' => simp [hline, hl, hedit, eq_comm]

lemma onLine_of_reportedLine {l : Line} (h : reportedLine buffer v = .ok l)
    (edit : Violation → Line → Except FixError Line) :
    Fix.onLine edit v buffer = (edit v l).map (buffer.set v.lineIndex ·) := by
  rw [Fix.onLine, h]
  dsimp only
  cases edit v l <;> rfl

/-- Two edits of the reported line, one after the other. -/
lemma onLine_bind (first second : Violation → Line → Except FixError Line) (v : Violation)
    (buffer : Buffer) :
    (Fix.onLine first v buffer).bind (Fix.onLine second v) =
      Fix.onLine (fun v l => (first v l).bind (second v)) v buffer := by
  cases hreported : reportedLine buffer v with
  | error e => simp only [Fix.onLine, hreported, Except.bind]
  | ok l =>
      rw [onLine_of_reportedLine hreported, onLine_of_reportedLine hreported]
      cases first v l with
      | error e => rfl
      | ok l' =>
          have hset := reportedLine_set hreported l'
          simp only [Except.map, Except.bind, onLine_of_reportedLine hset, List.set_set]

lemma joinGroup_eq_ok_iff :
    Fix.joinGroup v buffer = .ok buffer' ↔
      (1 ≤ v.line ∧ v.lineIndex < buffer.length) ∧
        buffer' =
          if blankAbove buffer v = some true then buffer.eraseIdx (v.line - 2) else buffer := by
  rw [Fix.joinGroup]
  rcases reportedLine_cases buffer v with ⟨hline, hlt, l, hl⟩ | ⟨hno, e, he⟩
  · simp only [hl, hline, hlt]
    split_ifs <;> simp [eq_comm]
  · simp [he, hno]

lemma separateGroup_eq_ok_iff :
    Fix.separateGroup v buffer = .ok buffer' ↔
      (1 ≤ v.line ∧ v.lineIndex < buffer.length) ∧
        buffer' =
          if blankAbove buffer v = some false then buffer.insertIdx v.lineIndex [] else buffer := by
  rw [Fix.separateGroup]
  rcases reportedLine_cases buffer v with ⟨hline, hlt, l, hl⟩ | ⟨hno, e, he⟩
  · simp only [hl, hline, hlt]
    split_ifs <;> simp [eq_comm]
  · simp [he, hno]

lemma onStatements_eq_ok_iff {fix : List Statement → Violation → Buffer → Buffer} :
    Fix.onStatements fix v buffer = .ok buffer' ↔
      (1 ≤ v.line ∧ v.lineIndex < buffer.length) ∧
        ∃ found, statements buffer = .ok found ∧ buffer' = fix found v buffer := by
  rw [Fix.onStatements]
  rcases reportedLine_cases buffer v with ⟨hline, hlt, l, hl⟩ | ⟨hno, e, he⟩
  · cases statements buffer with
    | error e => simp [hl]
    | ok found => simp [hl, hline, hlt, eq_comm]
  · simp [he, hno]

end LintRepair
