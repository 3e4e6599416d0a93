import LintRepair.Proofs.Patch.OneLine
import LintRepair.Proofs.Patch.ReportOrder

/-!
Lines that are patched alone.

Most rules read and edit nothing but the reported line. A run over violations of such rules is made
of runs over the single lines, from the bottom of the file to its top: what one of them does depends
on no other line, and the first one that fails ends it all.

* `Rule.staysOnLine`, `Rule.lineKeys`: the rules that stay on the reported line, and their keys.
* `Violation.ofLine`: the violations on one line, reported for a file that has no other line.
* `step_frame`, `foldlM_frame`: lines above and below those that are reported do not matter.
* `patchLines_concat`: the last line is patched first, and alone.
* `Assembled`: a buffer put together from lines that were patched alone.
* `patchLines_line_by_line`: a run over a file is assembled from the runs over its lines, or fails
  like the lowest line that fails.
-/

namespace LintRepair

/-! ### Rules that stay on the reported line -/

namespace Rule

/-- Whether the rule reads and edits nothing but the reported line. -/
def staysOnLine : Rule → Bool
  | requireThis => true
  | finalParameter => true
  | whitespace _ => true
  | indentation => true
  | trailingSpaces => true
  | tabs .line => true
  | _ => false

/-- The keys of the rules that stay on the reported line. -/
def lineKeys : List String :=
  columnKeys ++
    ["indentation.error", "indentation.child.error", "indentation.error.multi",
     "indentation.child.error.multi", "Line has trailing spaces.", "containsTab"]

lemma exists_of_mem_lineKeys {key : String} (h : key ∈ lineKeys) :
    ∃ rule, ofKey? key = some rule ∧ rule.staysOnLine = true := by
  simp only [lineKeys, columnKeys, List.cons_append, List.nil_append, List.mem_cons,
    List.not_mem_nil, or_false] at h
  rcases h with rfl | rfl | rfl | rfl | rfl | rfl | rfl | rfl | rfl | rfl | rfl | rfl | rfl <;>
    exact ⟨_, rfl, rfl⟩

lemma permits_of_staysOnLine {rule : Rule} (h : rule.staysOnLine = true) (all : List Violation)
    (v : Violation) (standing : Standing) : rule.permits all v standing = true := by
  cases rule with
  | requireThis | finalParameter | whitespace | indentation | trailingSpaces | tabs => rfl
  | importOrder | importGroups | importSeparation | removeImport => simp [staysOnLine] at h

end Rule

/-- The violation in a file without its first lines. -/
def Violation.moveUp (k : Nat) (v : Violation) : Violation := { v with line := v.line - k }

/-- The error of a violation in a file with further lines on top. -/
def FixError.moveDown (k : Nat) : FixError → FixError
  | columnOutOfRange line column width => columnOutOfRange (line + k) column width
  | e => e

lemma Violation.moveUp_zero : Violation.moveUp 0 = id := rfl

lemma FixError.moveDown_zero (e : FixError) : e.moveDown 0 = e := by
  cases e <;> rfl

/-- An edit that looks at the number of the reported line only for the text of its error. -/
def Portable (edit : Violation → Line → Except FixError Line) : Prop :=
  ∀ v k l, k ≤ v.line → edit v l = (edit (v.moveUp k) l).mapError (·.moveDown k)

lemma columnError_moveUp {v : Violation} {k : Nat} (hk : k ≤ v.line) (l : Line) :
    (columnError (v.moveUp k) l).moveDown k = columnError v l := by
  simp [columnError, FixError.moveDown, Violation.moveUp, Nat.sub_add_cancel hk]

lemma orColumnError_moveUp {v : Violation} {k : Nat} (hk : k ≤ v.line) (l : Line)
    (edited : Option Line) :
    (orColumnError (v.moveUp k) l edited).mapError (·.moveDown k) = orColumnError v l edited := by
  cases edited with
  | none => exact congrArg Except.error (columnError_moveUp hk l)
  | some l' => rfl

/-- What is wrong with a message does not depend on the line. -/
lemma moveDown_of_expectedLevel {message : String} {actual : Nat} {e : FixError}
    (h : expectedLevel message actual = .error e) (k : Nat) : e.moveDown k = e := by
  rw [expectedLevel, levels] at h
  split_ifs at h
  · cases hchoice : chooseLevel (numbers message) actual with
    | ok level => simp [hchoice] at h
    | error fault =>
        simp only [hchoice, Except.error.injEq] at h
        rw [← h]
        rfl
  · simp only [Except.error.injEq] at h
    rw [← h]
    rfl

/-- A rule that stays on the reported line is an edit of it. -/
lemma Rule.exists_edit {rule : Rule} (h : rule.staysOnLine = true) (tabWidth : Nat) :
    ∃ edit, Portable edit ∧ ∀ v buffer, rule.fix tabWidth v buffer = Fix.onLine edit v buffer := by
  cases rule with
  | requireThis | finalParameter =>
      refine ⟨_, fun v k l hk => ?_, fun _ _ => rfl⟩
      exact (orColumnError_moveUp hk l _).symm
  | whitespace spacing =>
      refine ⟨_, fun v k l hk => ?_, fun _ _ => rfl⟩
      have hcolumn : (v.moveUp k).columnIndex = v.columnIndex := rfl
      simp only [hcolumn]
      split_ifs
      · exact congrArg Except.error (columnError_moveUp hk l).symm
      · exact (orColumnError_moveUp hk l _).symm
  | indentation =>
      refine ⟨_, fun v k l hk => ?_, fun _ _ => rfl⟩
      have hcolumn : (v.moveUp k).columnIndex = v.columnIndex := rfl
      have hmessage : (v.moveUp k).message = v.message := rfl
      simp only [hcolumn, hmessage]
      split_ifs
      · exact congrArg Except.error (columnError_moveUp hk l).symm
      · cases hexpected : expectedLevel v.message v.columnIndex with
        | error e => exact congrArg Except.error (moveDown_of_expectedLevel hexpected k).symm
        | ok expected => exact (orColumnError_moveUp hk l _).symm
  | trailingSpaces => exact ⟨fun _ l => .ok (trimEnd l), fun _ _ _ _ => rfl, fun _ _ => rfl⟩
  | tabs scope =>
      cases scope with
      | line =>
          refine ⟨fun v l => if l.length < v.columnIndex then .error (columnError v l)
            else .ok (l.expandTabs v.columnIndex tabWidth), fun v k l hk => ?_, fun v buffer => ?_⟩
          · have hcolumn : (v.moveUp k).columnIndex = v.columnIndex := rfl
            simp only [hcolumn]
            split_ifs
            · exact congrArg Except.error (columnError_moveUp hk l).symm
            · rfl
          · rw [fix, Fix.expandTabs]
            simp only [TabScope.reachesBelow, Bool.false_eq_true, if_false]
            split
            · next e he => exact he.symm
            · next expanded he => exact he.symm
      | file => simp [staysOnLine] at h
  | importOrder | importGroups | importSeparation | removeImport => simp [staysOnLine] at h

/-! ### Lines above and below -/

/-- A patched buffer between lines that are left alone. -/
def Patched.within (upper lower : Buffer) (state : Patched) : Patched :=
  { state with lines := upper ++ state.lines ++ lower }

/-- What a run comes to if further lines stand above and below. -/
def framed (upper lower : Buffer) (result : Except FixError Patched) : Except FixError Patched :=
  (result.mapError (·.moveDown upper.length)).map (·.within upper lower)

section Frame

variable {patcher : Patcher} {all violations later : List Violation} {v : Violation}
  {upper lower buffer : Buffer} {state : Patched}

/-- An edit of the reported line does not see the lines above and below. -/
lemma onLine_frame {edit : Violation → Line → Except FixError Line} (hedit : Portable edit)
    (habove : upper.length < v.line) (hbelow : v.line ≤ upper.length + buffer.length) :
    Fix.onLine edit v (upper ++ buffer ++ lower) =
      ((Fix.onLine edit (v.moveUp upper.length) buffer).mapError (·.moveDown upper.length)).map
        (upper ++ · ++ lower) := by
  have hindex : v.lineIndex = upper.length + (v.moveUp upper.length).lineIndex := by
    simp only [Violation.lineIndex, Violation.moveUp]
    omega
  have hlt : (v.moveUp upper.length).lineIndex < buffer.length := by
    simp only [Violation.lineIndex, Violation.moveUp]
    omega
  have hl : buffer[(v.moveUp upper.length).lineIndex]? =
      some buffer[(v.moveUp upper.length).lineIndex] := List.getElem?_eq_getElem hlt
  set l := buffer[(v.moveUp upper.length).lineIndex]
  have hreported : reportedLine (upper ++ buffer ++ lower) v = .ok l := by
    refine reportedLine_eq_ok_iff.mpr ⟨by omega, ?_⟩
    rw [hindex, List.append_assoc, List.getElem?_append_right (Nat.le_add_right _ _),
      Nat.add_sub_cancel_left, List.getElem?_append_left hlt, hl]
  have hreported' : reportedLine buffer (v.moveUp upper.length) = .ok l :=
    reportedLine_eq_ok_iff.mpr ⟨by simp only [Violation.moveUp]; omega, hl⟩
  rw [Fix.onLine, Fix.onLine, hreported, hreported']
  simp only [hedit v upper.length l habove.le]
  cases edit (v.moveUp upper.length) l with
  | error e => rfl
  | ok l' =>
      have hset : (upper ++ buffer ++ lower).set v.lineIndex l' =
          upper ++ buffer.set (v.moveUp upper.length).lineIndex l' ++ lower := by
        rw [hindex, List.append_assoc, List.set_append_right _ _ (Nat.le_add_right _ _),
          Nat.add_sub_cancel_left, List.set_append_left _ _ hlt, List.append_assoc]
      exact congrArg Except.ok hset

/-- A violation whose rule stays on the reported line is left alone, if the rule is switched off, or
edits that line. -/
lemma applyOne_cases (patcher : Patcher) {key : String} (hkey : key ∈ Rule.lineKeys) :
    (∀ all v later state, v.key = key →
      patcher.applyOne all v later state =
        .ok { state with unresolved := state.unresolved ++ [key] }) ∨
    ∃ edit, Portable edit ∧ ∀ all v later state, v.key = key →
      patcher.applyOne all v later state =
        (Fix.onLine edit v state.lines).map fun lines =>
          { state with lines, applied := state.applied + 1 } := by
  obtain ⟨rule, hrule, hstays⟩ := Rule.exists_of_mem_lineKeys hkey
  cases henabled : patcher.enabled key with
  | false =>
      refine Or.inl fun all v later state hv => ?_
      rw [Patcher.applyOne, Patcher.ruleFor, hv, henabled]
      rfl
  | true =>
      obtain ⟨edit, hedit, hfix⟩ := Rule.exists_edit hstays patcher.tabWidth
      refine Or.inr ⟨edit, hedit, fun all v later state hv => ?_⟩
      have hruleFor : patcher.ruleFor v.key = some rule := by
        rw [Patcher.ruleFor, hv, henabled, if_pos rfl, hrule]
      rw [Patcher.applyOne_of_rule hruleFor (Rule.permits_of_staysOnLine hstays _ _ _), hfix]

/-- One step of a run in which no violation is put off. -/
def Patcher.step (patcher : Patcher) (state : Patched) (v : Violation) : Except FixError Patched :=
  patcher.applyOne [] v [] state

lemma applyOne_eq_step (hkey : v.key ∈ Rule.lineKeys) :
    patcher.applyOne all v later state = patcher.step state v := by
  rcases applyOne_cases patcher hkey with h | ⟨edit, -, h⟩
  · rw [Patcher.step, h _ v _ _ rfl, h _ v _ _ rfl]
  · rw [Patcher.step, h _ v _ _ rfl, h _ v _ _ rfl]

/-- Violations that are never put off are fixed one by one. -/
lemma applyAll_eq_foldlM (hkeys : ∀ v ∈ violations, v.key ∈ Rule.lineKeys) :
    patcher.applyAll all violations state = violations.foldlM patcher.step state := by
  induction violations generalizing state with
  | nil => rfl
  | cons v later ih =>
      rw [Patcher.applyAll, applyOne_eq_step (hkeys v List.mem_cons_self), List.foldlM_cons]
      cases patcher.step state v with
      | error e => rfl
      | ok state' => exact ih fun w hw => hkeys w (List.mem_cons_of_mem v hw)

/-- A step keeps the number of lines. -/
lemma length_step (hkey : v.key ∈ Rule.lineKeys) {state' : Patched}
    (h : patcher.step state v = .ok state') : state'.lines.length = state.lines.length := by
  rcases applyOne_cases patcher hkey with hstep | ⟨edit, -, hstep⟩
  · rw [Patcher.step, hstep _ v _ _ rfl, Except.ok.injEq] at h
    rw [← h]
  · rw [Patcher.step, hstep _ v _ _ rfl] at h
    cases honLine : Fix.onLine edit v state.lines with
    | error e => simp [honLine, Except.map] at h
    | ok lines =>
        obtain ⟨-, l, l', -, -, rfl⟩ := onLine_eq_ok_iff.mp honLine
        rw [honLine, Except.map, Except.ok.injEq] at h
        rw [← h, List.length_set]

/-- The first step of a run that goes through. -/
lemma exists_of_foldlM_cons {state' : Patched}
    (h : (v :: later).foldlM patcher.step state = .ok state') :
    ∃ next, patcher.step state v = .ok next ∧ later.foldlM patcher.step next = .ok state' := by
  rw [List.foldlM_cons] at h
  cases hstep : patcher.step state v with
  | error e => simp [hstep, bind, Except.bind] at h
  | ok next =>
      rw [hstep] at h
      exact ⟨next, rfl, h⟩

/-- What every step keeps is kept by a run. -/
lemma foldlM_keeps {P : Patched → Prop} {state' : Patched}
    (hstep : ∀ v ∈ violations, ∀ state state', patcher.step state v = .ok state' →
      P state → P state')
    (h : violations.foldlM patcher.step state = .ok state') (hP : P state) : P state' := by
  induction violations generalizing state with
  | nil => exact Except.ok.inj h ▸ hP
  | cons v later ih =>
      obtain ⟨next, hnext, hrest⟩ := exists_of_foldlM_cons h
      exact ih (fun w hw => hstep w (List.mem_cons_of_mem v hw)) hrest
        (hstep v List.mem_cons_self state next hnext hP)

/-- Steps keep the number of lines. -/
lemma length_foldlM (hkeys : ∀ v ∈ violations, v.key ∈ Rule.lineKeys) {state' : Patched}
    (h : violations.foldlM patcher.step state = .ok state') :
    state'.lines.length = state.lines.length := by
  refine foldlM_keeps (P := fun next => next.lines.length = state.lines.length) ?_ h rfl
  intro v hv before after hstep hlength
  exact (length_step (hkeys v hv) hstep).trans hlength

/-- A step does not see the lines above and below. -/
lemma step_frame (hkey : v.key ∈ Rule.lineKeys) (habove : upper.length < v.line)
    (hbelow : v.line ≤ upper.length + state.lines.length) :
    patcher.step (state.within upper lower) v =
      framed upper lower (patcher.step state (v.moveUp upper.length)) := by
  rcases applyOne_cases patcher hkey with hstep | ⟨edit, hedit, hstep⟩
  · rw [Patcher.step, Patcher.step, hstep _ v _ _ rfl, hstep _ (v.moveUp _) _ _ rfl]
    rfl
  · rw [Patcher.step, Patcher.step, hstep _ v _ _ rfl, hstep _ (v.moveUp _) _ _ rfl,
      Patched.within, onLine_frame hedit habove hbelow]
    cases Fix.onLine edit (v.moveUp upper.length) state.lines <;> rfl

/-- A run does not see the lines above and below those that are reported. -/
lemma foldlM_frame (hkeys : ∀ v ∈ violations, v.key ∈ Rule.lineKeys)
    (hlines : ∀ v ∈ violations, upper.length < v.line ∧
      v.line ≤ upper.length + state.lines.length) :
    violations.foldlM patcher.step (state.within upper lower) =
      framed upper lower
        ((violations.map (Violation.moveUp upper.length)).foldlM patcher.step state) := by
  induction violations generalizing state with
  | nil => rfl
  | cons v later ih =>
      have hkey := hkeys v List.mem_cons_self
      obtain ⟨habove, hbelow⟩ := hlines v List.mem_cons_self
      rw [List.foldlM_cons, List.map_cons, List.foldlM_cons, step_frame hkey habove hbelow]
      cases hstep : patcher.step state (v.moveUp upper.length) with
      | error e => rfl
      | ok state' =>
          refine ih (fun w hw => hkeys w (List.mem_cons_of_mem v hw)) fun w hw => ?_
          rw [length_step (v := v.moveUp upper.length) hkey hstep]
          exact hlines w (List.mem_cons_of_mem v hw)

/-- What is counted from some earlier state on. -/
def Patched.after (earlier state : Patched) : Patched :=
  ⟨state.lines, earlier.applied + state.applied, earlier.gated + state.gated,
    earlier.unresolved ++ state.unresolved⟩

/-- A step counts on from where it begins. -/
lemma step_after (earlier : Patched) (v : Violation) :
    patcher.step (earlier.after state) v = (patcher.step state v).map earlier.after := by
  rw [Patcher.step, Patcher.step, Patcher.applyOne, Patcher.applyOne]
  cases patcher.ruleFor v.key with
  | none => simp [Except.map, Patched.after]
  | some rule =>
      simp only
      split_ifs
      · cases hfix : rule.fix patcher.tabWidth v state.lines with
        | error e => simp [Patched.after, hfix, Except.map]
        | ok lines => simp [Patched.after, hfix, Except.map, Nat.add_assoc]
      · simp [Except.map, Patched.after, Nat.add_assoc]

lemma foldlM_after (earlier : Patched) :
    violations.foldlM patcher.step (earlier.after state) =
      (violations.foldlM patcher.step state).map earlier.after := by
  induction violations generalizing state with
  | nil => rfl
  | cons v later ih =>
      rw [List.foldlM_cons, List.foldlM_cons, step_after]
      cases patcher.step state v with
      | error e => rfl
      | ok state' => exact ih

end Frame

/-! ### One line after the other -/

/-- The violations on one line, reported for a file that has no other line. -/
def Violation.ofLine (index : Nat) (violations : List Violation) : List Violation :=
  (violations.filter (·.line = index + 1)).map ({ · with line := 1 })

/-- Patched lines with a last line that was patched before them. -/
def Patched.above (own rest : Patched) : Patched :=
  ⟨rest.lines ++ own.lines, own.applied + rest.applied, own.gated + rest.gated,
    own.unresolved ++ rest.unresolved⟩

section Lines

variable {patcher : Patcher} {violations : List Violation} {upper buffer : Buffer}

lemma patchLines_eq_foldlM (hkeys : ∀ v ∈ violations, v.key ∈ Rule.lineKeys) :
    patcher.patchLines violations buffer =
      (Violation.inPatchOrder violations).foldlM patcher.step ⟨buffer, 0, 0, []⟩ := by
  rw [Patcher.patchLines_eq, applyAll_eq_foldlM]
  intro v hv
  exact hkeys v (Violation.mem_inPatchOrder.mp hv)

lemma mem_ofLine {index : Nat} {v : Violation} (h : v ∈ Violation.ofLine index violations) :
    ∃ w ∈ violations, w.key = v.key := by
  obtain ⟨w, hw, rfl⟩ := List.mem_map.mp h
  exact ⟨w, List.mem_of_mem_filter hw, rfl⟩

/-- The violations on one line, moved up to the first one, are in patch order. -/
lemma map_moveUp_inPatchOrder (k : Nat) :
    (Violation.inPatchOrder (violations.filter (·.line = k + 1))).map (Violation.moveUp k) =
      Violation.inPatchOrder (Violation.ofLine k violations) := by
  have hline : ∀ v ∈ violations.filter (·.line = k + 1), v.line = k + 1 := fun v hv => by
    simpa using (List.mem_filter.mp hv).2
  have hsame : (violations.filter (·.line = k + 1)).map (Violation.moveUp k) =
      Violation.ofLine k violations :=
    List.map_congr_left fun v hv => by simp [Violation.moveUp, hline v hv]
  rw [← hsame]
  refine Violation.map_inPatchOrder (fun v _ => ⟨rfl, rfl⟩) fun v hv w hw => ?_
  simp [Violation.moveUp, hline v hv, hline w hw]

/-- The last line of a buffer is patched first, and like a buffer of its own. -/
lemma patchLines_concat (patcher : Patcher) (hkeys : ∀ v ∈ violations, v.key ∈ Rule.lineKeys)
    (hlines : ∀ v ∈ violations, 1 ≤ v.line ∧ v.line ≤ upper.length + 1) (l : Line) :
    patcher.patchLines violations (upper ++ [l]) =
      match patcher.patchLines (Violation.ofLine upper.length violations) [l] with
      | .error e => .error (e.moveDown upper.length)
      | .ok own =>
          (patcher.patchLines (violations.filter fun v => !decide (v.line = upper.length + 1))
            upper).map own.above := by
  set n := upper.length
  have hkeys' : ∀ p, ∀ v ∈ Violation.inPatchOrder (violations.filter p), v.key ∈ Rule.lineKeys :=
    fun p v hv => hkeys v (List.mem_of_mem_filter (Violation.mem_inPatchOrder.mp hv))
  have hsplit := Violation.inPatchOrder_append (p := (·.line = n + 1)) fun v hv w _ hvn hwn => by
    have hv' := hlines v hv
    simp only [decide_eq_false_iff_not, decide_eq_true_eq] at hvn hwn
    omega
  have hlast : (Violation.inPatchOrder (violations.filter (·.line = n + 1))).foldlM patcher.step
      (Patched.within upper [] ⟨[l], 0, 0, []⟩) =
      framed upper [] (patcher.patchLines (Violation.ofLine n violations) [l]) := by
    rw [foldlM_frame (hkeys' _), map_moveUp_inPatchOrder, patchLines_eq_foldlM]
    · intro v hv
      obtain ⟨w, hw, hkey⟩ := mem_ofLine hv
      exact hkey ▸ hkeys w hw
    · intro v hv
      have hv' := (List.mem_filter.mp (Violation.mem_inPatchOrder.mp hv)).2
      simp only [decide_eq_true_eq] at hv'
      simp only [List.length_singleton]
      omega
  rw [patchLines_eq_foldlM hkeys, hsplit, List.foldlM_append]
  have hbuffer : (⟨upper ++ [l], 0, 0, []⟩ : Patched) =
      Patched.within upper [] ⟨[l], 0, 0, []⟩ := by
    simp [Patched.within]
  rw [hbuffer, hlast]
  cases patcher.patchLines (Violation.ofLine n violations) [l] with
  | error e => rfl
  | ok own =>
      -- the run over the other lines begins where the one over the last line has ended
      have hstart : own.within upper [] =
          own.after (Patched.within [] own.lines ⟨upper, 0, 0, []⟩) := by
        simp [Patched.within, Patched.after]
      show List.foldlM patcher.step (own.within upper []) _ = _
      rw [hstart, foldlM_after, foldlM_frame (hkeys' _), List.length_nil, Violation.moveUp_zero,
        List.map_id, ← patchLines_eq_foldlM]
      · cases patcher.patchLines (violations.filter fun v => !decide (v.line = n + 1)) upper with
        | error e => exact congrArg Except.error e.moveDown_zero
        | ok rest => simp [framed, Except.map, Except.mapError, Patched.within, Patched.after,
            Patched.above]
      · intro v hv
        exact hkeys v (List.mem_of_mem_filter hv)
      · intro v hv
        obtain ⟨hmem, hne⟩ := List.mem_filter.mp (Violation.mem_inPatchOrder.mp hv)
        have hv' := hlines v hmem
        simp only [Bool.not_eq_true', decide_eq_false_iff_not] at hne
        simp only [List.length_nil]
        omega

/-- A run keeps the number of lines. -/
lemma length_patchLines (hkeys : ∀ v ∈ violations, v.key ∈ Rule.lineKeys) {patched : Patched}
    (h : patcher.patchLines violations buffer = .ok patched) :
    patched.lines.length = buffer.length := by
  rw [patchLines_eq_foldlM hkeys] at h
  exact length_foldlM (fun v hv => hkeys v (Violation.mem_inPatchOrder.mp hv)) h

/-- Leaving out the violations of one line does not matter for the other lines. -/
lemma ofLine_filter {i n : Nat} (h : i ≠ n) :
    Violation.ofLine i (violations.filter fun v => !decide (v.line = n + 1)) =
      Violation.ofLine i violations := by
  rw [Violation.ofLine, Violation.ofLine, List.filter_filter]
  congr 1
  refine List.filter_congr fun v _ => ?_
  by_cases hi : v.line = i + 1
  · simp [hi, h]
  · simp [hi]

end Lines

/-- A patched buffer that is put together from the outcomes of its lines, each of them patched
alone. -/
structure Assembled (patcher : Patcher) (violations : List Violation) (buffer : Buffer)
    (outcomes : List Patched) (patched : Patched) : Prop where
  alone : ∀ i l, buffer[i]? = some l →
    ∃ own l', outcomes[i]? = some own ∧
      patcher.patchLines (Violation.ofLine i violations) [l] = .ok own ∧
      own.lines = [l'] ∧ patched.lines[i]? = some l'
  length_outcomes : outcomes.length = buffer.length
  length_lines : patched.lines.length = buffer.length
  applied : patched.applied = (outcomes.map Patched.applied).sum
  gated : patched.gated = (outcomes.map Patched.gated).sum
  /-- The lines are patched from the last one up. -/
  unresolved : patched.unresolved = outcomes.reverse.flatMap Patched.unresolved

/-- The lowest line of a buffer that cannot be patched alone, with its error. -/
structure FailsLowest (patcher : Patcher) (violations : List Violation) (buffer : Buffer)
    (index : Nat) (e : FixError) : Prop where
  fails : ∃ l, buffer[index]? = some l ∧
    patcher.patchLines (Violation.ofLine index violations) [l] = .error e
  below : ∀ j l, index < j → buffer[j]? = some l →
    ∃ own, patcher.patchLines (Violation.ofLine j violations) [l] = .ok own

/-- A last line that was patched alone joins an assembled buffer. -/
lemma Assembled.concat {patcher : Patcher} {violations : List Violation} {upper : Buffer} {l : Line}
    {outcomes : List Patched} {own rest : Patched}
    (hkeys : ∀ v ∈ violations, v.key ∈ Rule.lineKeys)
    (h : Assembled patcher (violations.filter fun v => !decide (v.line = upper.length + 1)) upper
      outcomes rest)
    (hown : patcher.patchLines (Violation.ofLine upper.length violations) [l] = .ok own) :
    Assembled patcher violations (upper ++ [l]) (outcomes ++ [own]) (own.above rest) := by
  have hlength : own.lines.length = 1 := by
    refine length_patchLines (fun v hv => ?_) hown
    obtain ⟨w, hw, hkey⟩ := mem_ofLine hv
    exact hkey ▸ hkeys w hw
  obtain ⟨l', hl'⟩ := List.length_eq_one_iff.mp hlength
  refine ⟨fun i k hk => ?_, ?_, ?_, ?_, ?_, ?_⟩
  · rcases Nat.lt_trichotomy i upper.length with hi | rfl | hi
    · rw [List.getElem?_append_left hi] at hk
      obtain ⟨other, k', hother, hrun, hlines, hk'⟩ := h.alone i k hk
      refine ⟨other, k', ?_, ?_, hlines, ?_⟩
      · rwa [List.getElem?_append_left (h.length_outcomes ▸ hi)]
      · rwa [ofLine_filter hi.ne] at hrun
      · rwa [Patched.above, List.getElem?_append_left (h.length_lines ▸ hi)]
    · rw [List.getElem?_append_right le_rfl, Nat.sub_self, List.getElem?_cons_zero,
        Option.some.injEq] at hk
      refine ⟨own, l', ?_, hk ▸ hown, hl', ?_⟩
      · rw [← h.length_outcomes, List.getElem?_append_right le_rfl, Nat.sub_self]
        rfl
      · rw [Patched.above, hl', ← h.length_lines, List.getElem?_append_right le_rfl, Nat.sub_self]
        rfl
    · have hlt := (List.getElem?_eq_some_iff.mp hk).1
      simp only [List.length_append, List.length_singleton] at hlt
      omega
  · simp [h.length_outcomes]
  · simp [Patched.above, h.length_lines, hlength]
  · simp [Patched.above, h.applied, Nat.add_comm]
  · simp [Patched.above, h.gated, Nat.add_comm]
  · simp [Patched.above, h.unresolved]

/-- A line that fails does so too above a line that was patched alone. -/
lemma FailsLowest.concat {patcher : Patcher} {violations : List Violation} {upper : Buffer}
    {l : Line} {own : Patched} {index : Nat} {e : FixError}
    (h : FailsLowest patcher (violations.filter fun v => !decide (v.line = upper.length + 1)) upper
      index e)
    (hown : patcher.patchLines (Violation.ofLine upper.length violations) [l] = .ok own) :
    FailsLowest patcher violations (upper ++ [l]) index e := by
  obtain ⟨k, hk, herror⟩ := h.fails
  have hlt : index < upper.length := (List.getElem?_eq_some_iff.mp hk).1
  refine ⟨⟨k, ?_, ?_⟩, fun j m hj hm => ?_⟩
  · rwa [List.getElem?_append_left hlt]
  · rwa [ofLine_filter hlt.ne] at herror
  · rcases Nat.lt_trichotomy j upper.length with hlt' | rfl | hgt
    · rw [List.getElem?_append_left hlt'] at hm
      obtain ⟨other, hother⟩ := h.below j m hj hm
      rw [ofLine_filter hlt'.ne] at hother
      exact ⟨other, hother⟩
    · rw [List.getElem?_append_right le_rfl, Nat.sub_self, List.getElem?_cons_zero,
        Option.some.injEq] at hm
      exact ⟨own, hm ▸ hown⟩
    · have hlt' := (List.getElem?_eq_some_iff.mp hm).1
      simp only [List.length_append, List.length_singleton] at hlt'
      omega

/-- A run over a buffer is assembled from the runs over its lines, or fails like its lowest line
that fails. -/
lemma assembled_or_fails (patcher : Patcher) {violations : List Violation} {buffer : Buffer}
    (hkeys : ∀ v ∈ violations, v.key ∈ Rule.lineKeys)
    (hlines : ∀ v ∈ violations, 1 ≤ v.line ∧ v.line ≤ buffer.length) :
    (∃ patched outcomes, patcher.patchLines violations buffer = .ok patched ∧
      Assembled patcher violations buffer outcomes patched) ∨
    ∃ index e, FailsLowest patcher violations buffer index e ∧
      patcher.patchLines violations buffer = .error (e.moveDown index) := by
  induction buffer using List.reverseRecOn generalizing violations with
  | nil =>
      have hnone : violations = [] := by
        refine List.eq_nil_iff_forall_not_mem.mpr fun v hv => ?_
        have hv' := hlines v hv
        simp only [List.length_nil] at hv'
        omega
      subst hnone
      refine Or.inl ⟨⟨[], 0, 0, []⟩, [], ?_, fun i l hl => by simp at hl, rfl, rfl, rfl, rfl, rfl⟩
      rw [Patcher.patchLines_eq, Violation.inPatchOrder, Violation.sortForPatchingBy,
        List.mergeSort_nil, Patcher.applyAll]
  | append_singleton upper l ih =>
      have hlines' : ∀ v ∈ violations, 1 ≤ v.line ∧ v.line ≤ upper.length + 1 := by
        simpa using hlines
      have hrun := patchLines_concat patcher hkeys hlines' l
      cases hown : patcher.patchLines (Violation.ofLine upper.length violations) [l] with
      | error e =>
          rw [hown] at hrun
          refine Or.inr ⟨upper.length, e, ⟨⟨l, by simp, hown⟩, fun j k hj hk => ?_⟩, hrun⟩
          have hlt := (List.getElem?_eq_some_iff.mp hk).1
          simp only [List.length_append, List.length_singleton] at hlt
          omega
      | ok own =>
          rw [hown] at hrun
          have hupper : ∀ v ∈ violations.filter fun v => !decide (v.line = upper.length + 1),
              1 ≤ v.line ∧ v.line ≤ upper.length := by
            intro v hv
            obtain ⟨hmem, hne⟩ := List.mem_filter.mp hv
            have hv' := hlines' v hmem
            simp only [Bool.not_eq_true', decide_eq_false_iff_not] at hne
            omega
          rcases ih (fun v hv => hkeys v (List.mem_of_mem_filter hv)) hupper with
            ⟨rest, outcomes, hrest, hassembled⟩ | ⟨index, e, hfails, hrest⟩
          · rw [hrest] at hrun
            exact Or.inl ⟨own.above rest, outcomes ++ [own], hrun, hassembled.concat hkeys hown⟩
          · rw [hrest] at hrun
            exact Or.inr ⟨index, e, hfails.concat hown, hrun⟩

/-- Violations of rules that stay on their line, reported on lines of the buffer, are fixed line by
line. The run succeeds just if every line can be patched alone, with the violations on it in their
order. It then gives the lines that were patched alone, and their counts add up; otherwise its error
is the one of the lowest line that fails, with the number of that line. -/
theorem patchLines_line_by_line (patcher : Patcher) (violations : List Violation) (buffer : Buffer)
    (hkeys : ∀ v ∈ violations, v.key ∈ Rule.lineKeys)
    (hlines : ∀ v ∈ violations, 1 ≤ v.line ∧ v.line ≤ buffer.length) :
    ((∃ patched, patcher.patchLines violations buffer = .ok patched) ↔
      ∀ i l, buffer[i]? = some l →
        ∃ own, patcher.patchLines (Violation.ofLine i violations) [l] = .ok own) ∧
    (∀ patched, patcher.patchLines violations buffer = .ok patched →
      ∃ outcomes, Assembled patcher violations buffer outcomes patched) ∧
    ∀ e, patcher.patchLines violations buffer = .error e →
      ∃ index own, FailsLowest patcher violations buffer index own ∧ e = own.moveDown index := by
  rcases assembled_or_fails patcher hkeys hlines with
    ⟨patched, outcomes, hrun, hassembled⟩ | ⟨index, e, hfails, hrun⟩
  · refine ⟨iff_of_true ⟨patched, hrun⟩ fun i l hl => ?_, fun other hother => ?_, fun e he => ?_⟩
    · obtain ⟨own, -, -, hown, -⟩ := hassembled.alone i l hl
      exact ⟨own, hown⟩
    · rw [hrun, Except.ok.injEq] at hother
      exact ⟨outcomes, hother ▸ hassembled⟩
    · rw [hrun] at he
      simp at he
  · refine ⟨iff_of_false ?_ fun hall => ?_, fun patched hpatched => ?_, fun other hother => ?_⟩
    · rintro ⟨patched, hpatched⟩
      rw [hrun] at hpatched
      simp at hpatched
    · obtain ⟨l, hl, herror⟩ := hfails.fails
      obtain ⟨own, hown⟩ := hall index l hl
      rw [herror] at hown
      simp at hown
    · rw [hrun] at hpatched
      simp at hpatched
    · rw [hrun, Except.error.injEq] at hother
      exact ⟨index, e, hfails, hother.symm⟩

/-- Two of four lines fail, and the lower one is reported. -/
theorem patchLines_line_by_line_two_failures :
    ∃ index own,
      FailsLowest (Patcher.complete 4)
        [⟨2, 9, "containsTab", ""⟩, ⟨4, 1, "Line has trailing spaces.", ""⟩,
          ⟨3, 5, "ws.followed", ""⟩, ⟨1, 5, "ws.preceded", ""⟩]
        ["f(a ,b);".toList, "x".toList, "y".toList, "z ".toList] index own ∧
      .columnOutOfRange 3 5 1 = own.moveDown index := by
  refine (patchLines_line_by_line (Patcher.complete 4) _ _ (by decide) (by decide)).2.2 _ ?_
  rw [Patcher.patchLines_eq, Violation.inPatchOrder_eq_insertionSort]
  decide +kernel

end LintRepair
