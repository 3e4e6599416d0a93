import LintRepair.Proofs.Line.Spacing
import LintRepair.Proofs.Patch.OneLine

/-!
Spaces on both sides of a token.

A space behind a token and a space in front of it are reported for the same column. The edit in
front moves the token, so a run makes the one behind first. That order does not depend on the
report, and neither edit sees what the other one has done.

* `TokenReports`: two violations about one token, one for each side of it.
* `TokenReports.inPatchOrder_eq`: a run takes the one behind the token first.
* `TokenReports.editAll_eq`: what both edits make of the line.
* `respace_bind_comm`: the edits that put spaces in can change places.
* `patchLines_both_sides`: the run, and the edits by themselves.
-/

namespace LintRepair

/-- Two violations about the visible character `t` of a line: `v` about the text `y` behind it, and
`w` about the text `x` in front of it. -/
structure TokenReports (patcher : Patcher) (buffer : Buffer) (index : Nat) (x : Line) (t : Char)
    (y : Line) (right left : Spacing) (v w : Violation) : Prop where
  line : buffer[index]? = some (x ++ t :: y)
  token : isBlank t = false
  right_rule : Rule.ofKey? v.key = some (.whitespace right)
  right_side : right.side = .after
  left_rule : Rule.ofKey? w.key = some (.whitespace left)
  left_side : left.side = .before
  right_line : v.line = index + 1
  right_column : v.columnIndex = x.length
  left_line : w.line = v.line
  left_column : w.column = v.column
  right_enabled : patcher.enabled v.key = true
  left_enabled : patcher.enabled w.key = true

/-! ### The run -/

lemma Rule.mem_columnKeys_of_whitespace {key : String} {spacing : Spacing}
    (h : Rule.ofKey? key = some (.whitespace spacing)) : key ∈ Rule.columnKeys := by
  have hmem := mem_table_of_ofKey? h
  cases spacing with
  | notPreceded | notFollowed | preceded | followed =>
      simp only [table, List.mem_cons, Prod.mk.injEq, reduceCtorEq, and_false, whitespace.injEq,
        and_true, List.not_mem_nil, or_false, false_or] at hmem
      rw [hmem]
      decide

lemma Spacing.front_of_after {spacing : Spacing} (h : spacing.side = .after) (x : Line) :
    spacing.front x = x := by
  cases spacing with
  | notFollowed | followed => rfl
  | notPreceded | preceded => simp [side] at h

lemma Spacing.behind_of_before {spacing : Spacing} (h : spacing.side = .before) (y : Line) :
    spacing.behind y = y := by
  cases spacing with
  | notPreceded | preceded => rfl
  | notFollowed | followed => simp [side] at h

/-- Around a visible character a violation changes the text on its side. -/
lemma Violation.edit_of_visible {v : Violation} {spacing : Spacing}
    (hrule : Rule.ofKey? v.key = some (.whitespace spacing)) (x : Line) {t : Char}
    (ht : isBlank t = false) (y : Line) :
    v.edit (x ++ t :: y) x.length = some (spacing.front x ++ t :: spacing.behind y) := by
  rw [edit, hrule, Option.bind_some, Rule.editAt, if_neg (by simp), Line.respace_of_visible _ x ht]

section Run

variable {patcher : Patcher} {buffer : Buffer} {index : Nat} {x y : Line} {t : Char}
  {right left : Spacing} {v w : Violation} {violations : List Violation}

/-- The space behind the token comes first, whatever the order of the report. -/
lemma TokenReports.inPatchOrder_eq (h : TokenReports patcher buffer index x t y right left v w)
    (hperm : violations.Perm [v, w]) : Violation.inPatchOrder violations = [v, w] := by
  rcases List.perm_pair.mp ((Violation.inPatchOrder_perm violations).trans hperm) with heq | heq
  · exact heq
  · have hsorted := Violation.inPatchOrder_sorted violations
    have hv : Rule.sideOfKey v.key = .after := by
      rw [Rule.sideOfKey, h.right_rule]
      exact h.right_side
    have hw : Rule.sideOfKey w.key = .before := by
      rw [Rule.sideOfKey, h.left_rule]
      exact h.left_side
    rw [heq, List.pairwise_pair, Violation.patchOrderBy_isLE, hv, hw, h.left_line,
      h.left_column] at hsorted
    simp [Side.rank] at hsorted

/-- Both edits leave the token where it is for the other one. -/
lemma TokenReports.editAll_eq (h : TokenReports patcher buffer index x t y right left v w) :
    editAll [v, w] (x ++ t :: y) = some (left.front x ++ t :: right.behind y) := by
  have hcolumn : w.columnIndex = x.length := by
    rw [Violation.columnIndex, h.left_column]
    exact h.right_column
  rw [editAll, h.right_column, Violation.edit_of_visible h.right_rule x h.token,
    Spacing.front_of_after h.right_side, Option.bind_some, editAll, hcolumn,
    Violation.edit_of_visible h.left_rule x h.token, Spacing.behind_of_before h.left_side]
  rfl

end Run

/-! ### The edits by themselves -/

/-- Spaces that are missing on both sides of a reported character can be put in in either order. -/
lemma respace_bind_comm (v : Violation) (buffer : Buffer) :
    (Fix.respace .notPreceded v buffer).bind (Fix.respace .notFollowed v) =
      (Fix.respace .notFollowed v buffer).bind (Fix.respace .notPreceded v) := by
  rw [Fix.respace, Fix.respace, onLine_bind, onLine_bind]
  congr 1
  funext v l
  by_cases hlength : l.length ≤ v.columnIndex
  · simp only [if_pos hlength, Except.bind]
  · simp only [if_neg hlength]
    rcases l.respace_comm (not_le.mp hlength) with
      ⟨hfront, hbehind⟩ | ⟨first, second, both, hfirst, hsecond, hboth, hboth', hlt, hlt'⟩
    · simp only [hfront, hbehind, orColumnError, Except.bind, if_neg hlength]
    · simp only [hfirst, hsecond, orColumnError, Except.bind, if_neg (not_le.mpr hlt),
        if_neg (not_le.mpr hlt'), hboth, hboth']

/-- Reports about both sides of a token do not disturb each other. A run over the two succeeds in
either order of the report, and the text on each side becomes what its own report makes of it. The
fixes that put missing spaces in can also be applied directly in either order, with the same lines
or the same error, whatever stands at the reported position. -/
theorem patchLines_both_sides :
    (∀ (patcher : Patcher) (buffer : Buffer) (index : Nat) (x : Line) (t : Char) (y : Line)
        (right left : Spacing) (v w : Violation) (violations : List Violation),
      TokenReports patcher buffer index x t y right left v w → violations.Perm [v, w] →
      patcher.patchLines violations buffer =
        .ok ⟨buffer.set index (left.front x ++ t :: right.behind y), 2, 0, []⟩) ∧
    ∀ (v w : Violation) (buffer : Buffer), w.line = v.line → w.column = v.column →
      (Fix.respace .notPreceded w buffer).bind (Fix.respace .notFollowed v) =
        (Fix.respace .notFollowed v buffer).bind (Fix.respace .notPreceded w) := by
  constructor
  · intro patcher buffer index x t y right left v w violations h hperm
    have hmem : ∀ {P : Violation → Prop}, P v → P w → ∀ u ∈ [v, w], P u := by
      intro P hv hw u hu
      rcases List.mem_pair.mp hu with rfl | rfl
      · exact hv
      · exact hw
    rw [Patcher.patchLines_eq, h.inPatchOrder_eq hperm]
    refine (applyAll_eq_ok_iff ?_ ?_ ?_ h.line 0 _).mpr ⟨_, h.editAll_eq, rfl⟩
    · exact hmem (Rule.mem_columnKeys_of_whitespace h.right_rule)
        (Rule.mem_columnKeys_of_whitespace h.left_rule)
    · exact hmem h.right_enabled h.left_enabled
    · exact hmem h.right_line (h.left_line.trans h.right_line)
  · intro v w buffer hline hcolumn
    -- the fixes look at the position alone
    have hposition : ∀ spacing, Fix.respace spacing w = Fix.respace spacing v := by
      intro spacing
      obtain ⟨line, column, key, message⟩ := v
      obtain rfl : w.line = line := hline
      obtain rfl : w.column = column := hcolumn
      rfl
    rw [hposition, respace_bind_comm]

/-- A comma with its space on the wrong side, and a blank line on which no token is found. -/
theorem patchLines_both_sides_comma :
    (Patcher.complete 4).patchLines
        [⟨1, 5, "ws.preceded", ""⟩, ⟨1, 5, "ws.notFollowed", ""⟩] ["f(a ,b)".toList] =
      .ok ⟨["f(a, b)".toList], 2, 0, []⟩ ∧
    (Fix.respace .notPreceded ⟨1, 1, "ws.notPreceded", ""⟩ [[' ']]).bind
        (Fix.respace .notFollowed ⟨1, 1, "ws.notFollowed", ""⟩) =
      (Fix.respace .notFollowed ⟨1, 1, "ws.notFollowed", ""⟩ [[' ']]).bind
        (Fix.respace .notPreceded ⟨1, 1, "ws.notPreceded", ""⟩) := by
  refine ⟨?_, patchLines_both_sides.2 _ _ _ rfl rfl⟩
  refine (patchLines_both_sides.1 (Patcher.complete 4) ["f(a ,b)".toList] 0 "f(a ".toList ','
    "b)".toList .notFollowed .preceded ⟨1, 5, "ws.notFollowed", ""⟩ ⟨1, 5, "ws.preceded", ""⟩ _
    ⟨by decide, by decide, by decide, rfl, by decide, rfl, rfl, by decide, rfl, rfl, rfl, rfl⟩
    (.swap _ _ _)).trans (by decide)

end LintRepair
