import LintRepair.Proofs.Line.TabStops
import LintRepair.Proofs.Patch.Fits
import LintRepair.Proofs.Patch.Run

/-!
Tabs of a whole buffer.

A tab violation expands the reported line from the reported column on, and the one about the file
also all lines below it. Several violations may expand one line, each starting at another column of
what the others have left. Only the column furthest to the left counts, so a run is the same as one
expansion of every line.

* `Violation.tabColumn`, `Violation.tabStart`: the column from which one violation and all of them
  expand a line.
* `Buffer.expandTabs`: the buffer with each line expanded from a column of its own.
* `fix_tabs`: one fix.
* `Buffer.expandTabs_tabStart`: the expansion for one violation and then that for the others.
* `patchLines_expands_tabs`: a run over tab violations.
-/

namespace LintRepair

namespace Rule

/-- The keys of tab violations. -/
def tabKeys : List String := ["containsTab", "file.containsTab"]

lemma exists_of_mem_tabKeys {key : String} (h : key ∈ tabKeys) :
    ∃ scope, ofKey? key = some (tabs scope) ∧
      scope.reachesBelow = decide (key = "file.containsTab") := by
  simp only [tabKeys, List.mem_cons, List.not_mem_nil, or_false] at h
  rcases h with rfl | rfl
  · exact ⟨.line, by decide⟩
  · exact ⟨.file, by decide⟩

end Rule

namespace Violation

/-- The column from which a tab violation expands the line at an index, if it does. -/
def tabColumn (v : Violation) (index : Nat) : Option Nat :=
  if v.lineIndex = index then some v.columnIndex
  else if v.key = "file.containsTab" ∧ v.lineIndex < index then some 0
  else none

/-- The column from which tab violations expand the line at an index, if they do: the first one if
the file is reported on a line above, and otherwise the least one that is reported on the line. -/
def tabStart (violations : List Violation) (index : Nat) : Option Nat :=
  if violations.any fun v => decide (v.key = "file.containsTab" ∧ v.lineIndex < index) then some 0
  else ((violations.filter fun v => decide (v.lineIndex = index)).map columnIndex).min?

end Violation

/-- The line with its tabs expanded from a column on, if there is one. -/
def Line.expandTabs? (l : Line) (start : Option Nat) (width : Nat) : Line :=
  match start with
  | none => l
  | some start => l.expandTabs start width

/-- The buffer with each line expanded from a column of its own, if there is one for it. -/
def Buffer.expandTabs (start : Nat → Option Nat) (width : Nat) (buffer : Buffer) : Buffer :=
  buffer.mapIdx fun index l => l.expandTabs? (start index) width

/-! ### One fix -/

section Fix

variable {width : Nat} {v : Violation} {buffer : Buffer}

lemma Line.length_le_expandTabs? (l : Line) (start : Option Nat) (width : Nat) :
    l.length ≤ (l.expandTabs? start width).length := by
  cases start with
  | none => exact Nat.le_refl _
  | some start => exact l.length_le_expandTabs start width

lemma Buffer.getElem?_expandTabs (start : Nat → Option Nat) (width : Nat) (buffer : Buffer)
    (index : Nat) :
    (buffer.expandTabs start width)[index]? =
      buffer[index]?.map (·.expandTabs? (start index) width) := by
  rw [Buffer.expandTabs, List.getElem?_mapIdx]

/-- The reported line is there, with room for the reported column. -/
def Violation.OnLine (v : Violation) (buffer : Buffer) : Prop :=
  1 ≤ v.line ∧ ∃ l, buffer[v.lineIndex]? = some l ∧ v.columnIndex ≤ l.length

/-- The lines only get longer. -/
lemma Violation.OnLine.expandTabs (h : v.OnLine buffer) (start : Nat → Option Nat) (width : Nat) :
    v.OnLine (buffer.expandTabs start width) := by
  obtain ⟨hline, l, hl, hcolumn⟩ := h
  refine ⟨hline, _, by rw [Buffer.getElem?_expandTabs, hl, Option.map_some], ?_⟩
  exact hcolumn.trans (l.length_le_expandTabs? _ width)

/-- The lines below the reported one, if they are expanded too. -/
lemma Rule.getElem?_spread_tabs (scope : TabScope) (width : Nat) (v : Violation) (buffer : Buffer)
    (i : Nat) :
    ((Rule.tabs scope).spread width v buffer)[i]? =
      if scope.reachesBelow = true ∧ v.line ≤ i then buffer[i]?.map (·.expandTabs 0 width)
      else buffer[i]? := by
  cases scope with
  | line => simp [Rule.spread, TabScope.reachesBelow]
  | file =>
      have hreach : TabScope.file.reachesBelow = true := rfl
      simp only [Rule.spread, hreach, true_and]
      by_cases hlt : i < (buffer.take v.line).length
      · rw [List.getElem?_append_left hlt]
        rw [List.length_take] at hlt
        rw [List.getElem?_take_of_lt (by omega), if_neg (by omega)]
      · rw [List.getElem?_append_right (not_lt.mp hlt), List.getElem?_map, List.getElem?_drop]
        rw [List.length_take] at hlt ⊢
        by_cases hlength : v.line ≤ buffer.length
        · rw [if_pos (by omega), Nat.min_eq_left hlength, Nat.add_sub_cancel' (by omega)]
        · -- the buffer ends above the lines that would be expanded
          rw [List.getElem?_eq_none (by omega), List.getElem?_eq_none (by omega), Option.map_none,
            ite_self]

/-- A tab violation expands each line from the column that it has for it. -/
lemma fix_tabs {scope : TabScope}
    (hscope : scope.reachesBelow = decide (v.key = "file.containsTab")) (h : v.OnLine buffer) :
    (Rule.tabs scope).fix width v buffer = .ok (buffer.expandTabs v.tabColumn width) := by
  obtain ⟨hline, l, hl, hcolumn⟩ := h
  have hedit : (Rule.tabs scope).editLine width v l = some (l.expandTabs v.columnIndex width) :=
    if_neg (not_lt.mpr hcolumn)
  refine (Rule.fix_eq_ok_iff_editLine rfl).mpr ⟨hline, l, _, hl, hedit, ?_⟩
  have hlt : v.lineIndex < buffer.length := (List.getElem?_eq_some_iff.mp hl).1
  have hindex : v.line = v.lineIndex + 1 := by
    rw [Violation.lineIndex]
    omega
  refine List.ext_getElem? fun i => ?_
  rw [Buffer.getElem?_expandTabs, Violation.tabColumn, Rule.getElem?_spread_tabs]
  by_cases hi : v.lineIndex = i
  · rw [if_pos hi, if_neg (by omega), ← hi, List.getElem?_set_self hlt, hl]
    rfl
  · have hset : (buffer.set v.lineIndex (l.expandTabs v.columnIndex width))[i]? = buffer[i]? :=
      List.getElem?_set_ne hi
    have hbelow : scope.reachesBelow = true ∧ v.line ≤ i ↔
        v.key = "file.containsTab" ∧ v.lineIndex < i := by
      rw [hscope, decide_eq_true_iff, hindex, Nat.succ_le_iff]
    rw [if_neg hi, hset]
    simp only [hbelow]
    split_ifs
    · rfl
    · exact Option.map_id'

end Fix

/-! ### One expansion for all -/

/-- A line that was expanded before is expanded from the column furthest to the left. -/
lemma Line.expandTabs?_tabStart (l : Line) (width index : Nat) (v : Violation)
    (later : List Violation) :
    (l.expandTabs? (v.tabColumn index) width).expandTabs? (Violation.tabStart later index) width =
      l.expandTabs? (Violation.tabStart (v :: later) index) width := by
  have hmin : ∀ start (stop : Option Nat), (l.expandTabs start width).expandTabs? stop width =
      l.expandTabs (stop.elim start (min start)) width := by
    intro start stop
    cases stop with
    | none => rfl
    | some stop => exact l.expandTabs_expandTabs start width stop
  rw [Violation.tabColumn]
  split_ifs with hindex hfile
  · -- a column of the line itself is one more among those that are reported on it
    have hnot : ¬ (v.key = "file.containsTab" ∧ v.lineIndex < index) := by omega
    have hfilter : (v :: later).filter (fun v => decide (v.lineIndex = index)) =
        v :: later.filter fun v => decide (v.lineIndex = index) :=
      List.filter_cons_of_pos (by simpa using hindex)
    rw [Line.expandTabs?, hmin, Violation.tabStart, Violation.tabStart, List.any_cons,
      decide_eq_false hnot, Bool.false_or, hfilter, List.map_cons, List.min?_cons]
    split_ifs
    · simp [Line.expandTabs?]
    · rfl
  · -- the file is reported above the line
    have hall : Violation.tabStart (v :: later) index = some 0 := by
      rw [Violation.tabStart, List.any_cons, decide_eq_true hfile, Bool.true_or, if_pos rfl]
    have hzero : ∀ stop : Option Nat, stop.elim 0 (min 0) = 0 := by
      intro stop
      cases stop <;> simp
    rw [hall, Line.expandTabs?, hmin, hzero]
  · have hsame : Violation.tabStart (v :: later) index = Violation.tabStart later index := by
      rw [Violation.tabStart, Violation.tabStart, List.any_cons, decide_eq_false hfile,
        Bool.false_or, List.filter_cons_of_neg (by simpa using hindex)]
    rw [hsame]
    rfl

/-- The expansion for one violation and then that for the others is the one for all. -/
lemma Buffer.expandTabs_tabStart (buffer : Buffer) (width : Nat) (v : Violation)
    (later : List Violation) :
    (buffer.expandTabs v.tabColumn width).expandTabs (Violation.tabStart later) width =
      buffer.expandTabs (Violation.tabStart (v :: later)) width := by
  refine List.ext_getElem? fun i => ?_
  rw [Buffer.getElem?_expandTabs, Buffer.getElem?_expandTabs, Buffer.getElem?_expandTabs,
    Option.map_map]
  exact congrFun (congrArg Option.map (funext fun l => l.expandTabs?_tabStart width i v later)) _

/-- The columns do not depend on the order of the violations. -/
lemma Violation.tabStart_perm {violations violations' : List Violation}
    (h : violations.Perm violations') :
    Violation.tabStart violations = Violation.tabStart violations' := by
  funext i
  have hcolumns := (h.filter fun v => decide (v.lineIndex = i)).map columnIndex
  rw [tabStart, tabStart, h.any_eq]
  congr 1
  refine Option.ext fun column => ?_
  rw [List.min?_eq_some_iff, List.min?_eq_some_iff]
  simp only [hcolumns.mem_iff]

/-! ### Runs -/

/-- Tab violations, on lines of the buffer and not beyond their ends. A run over them succeeds,
whatever the tab width, whatever their order and however often they are repeated, and it is one
expansion of every line: from the first column on if the file is reported on a line above, and
otherwise from the least column that is reported on the line. Lines for which there is none stay as
they are. -/
theorem patchLines_expands_tabs (patcher : Patcher) (violations : List Violation) (buffer : Buffer)
    (hkeys : ∀ v ∈ violations, v.key ∈ Rule.tabKeys)
    (henabled : ∀ v ∈ violations, patcher.enabled v.key = true)
    (hlines : ∀ v ∈ violations, v.OnLine buffer) :
    patcher.patchLines violations buffer =
      .ok ⟨buffer.expandTabs (Violation.tabStart violations) patcher.tabWidth, violations.length, 0,
        []⟩ := by
  set sorted := Violation.inPatchOrder violations with hsorted
  have hmem : ∀ v ∈ sorted, v ∈ violations := fun v hv => Violation.mem_inPatchOrder.mp hv
  -- what a run hands on: the expansions that are still to come lead from its lines to the result
  let P : List Violation → Buffer → Prop := fun waiting lines =>
    (∀ v ∈ waiting, v ∈ violations ∧ v.OnLine lines) ∧
      lines.expandTabs (Violation.tabStart waiting) patcher.tabWidth =
        buffer.expandTabs (Violation.tabStart violations) patcher.tabWidth
  have hfix : ∀ v later lines, P (v :: later) lines → ∃ rule lines',
      patcher.ruleFor v.key = some rule ∧ rule.permits sorted v (.followedBy later) = true ∧
        rule.fix patcher.tabWidth v lines = .ok lines' ∧ P later lines' := by
    rintro v later lines ⟨hwaiting, hlead⟩
    obtain ⟨hv, honLine⟩ := hwaiting v List.mem_cons_self
    obtain ⟨scope, hrule, hscope⟩ := Rule.exists_of_mem_tabKeys (hkeys v hv)
    refine ⟨.tabs scope, _, ?_, rfl, fix_tabs hscope honLine, fun w hw => ?_, ?_⟩
    · rw [Patcher.ruleFor, if_pos (henabled v hv), hrule]
    · obtain ⟨hw', honLine'⟩ := hwaiting w (List.mem_cons_of_mem v hw)
      exact ⟨hw', honLine'.expandTabs _ _⟩
    · rw [Buffer.expandTabs_tabStart, hlead]
  have hstart : P sorted buffer := by
    refine ⟨fun v hv => ⟨hmem v hv, hlines v (hmem v hv)⟩, ?_⟩
    rw [Violation.tabStart_perm (Violation.inPatchOrder_perm violations)]
  obtain ⟨lines, hrun, -, hend⟩ := Patcher.applyAll_of_fix hfix ⟨buffer, 0, 0, []⟩ hstart
  have hidle : lines.expandTabs (Violation.tabStart []) patcher.tabWidth = lines := by
    refine List.ext_getElem? fun i => ?_
    rw [Buffer.getElem?_expandTabs]
    exact Option.map_id'
  rw [Patcher.patchLines_eq, ← hsorted, hrun, ← hend, hidle]
  simp [hsorted]

/-- Three reports on a line with two tabs, one of them repeated, and one for the lines below. -/
theorem patchLines_expands_tabs_two_scopes :
    (Patcher.complete 4).patchLines
        [⟨1, 4, "containsTab", ""⟩, ⟨2, 1, "file.containsTab", ""⟩, ⟨2, 3, "containsTab", ""⟩,
          ⟨1, 4, "containsTab", ""⟩, ⟨1, 3, "containsTab", ""⟩]
        ["\ta\tb".toList, "c\td".toList, "\te".toList] =
      .ok ⟨["\ta   b".toList, "c   d".toList, "    e".toList], 5, 0, []⟩ := by
  refine (patchLines_expands_tabs (Patcher.complete 4) _ _ (by decide) (by decide)
    (fun v hv => ?_)).trans (by decide)
  simp only [List.mem_cons, List.not_mem_nil, or_false] at hv
  rcases hv with rfl | rfl | rfl | rfl | rfl
  · exact ⟨by decide, "\ta\tb".toList, rfl, by decide⟩
  · exact ⟨by decide, "c\td".toList, rfl, by decide⟩
  · exact ⟨by decide, "c\td".toList, rfl, by decide⟩
  · exact ⟨by decide, "\ta\tb".toList, rfl, by decide⟩
  · exact ⟨by decide, "\ta\tb".toList, rfl, by decide⟩

end LintRepair
