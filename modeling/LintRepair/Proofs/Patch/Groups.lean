import LintRepair.Proofs.Patch.Edits
import LintRepair.Proofs.Patch.Run

/-!
Blank lines between imports.

A fix of a blank line changes the number of lines below it and looks at the line above the reported
one. Since the violations are taken from the bottom of the file to its top, a fix never meets a line
that another one has changed, and a run is the same as all its edits made at once.

* `Buffer.regroup`: the buffer with blank lines put in and taken out, all at once.
* `regroup_insertIdx`, `regroup_eraseIdx`: an edit below all others can be made first.
* `Grouping.step`: one fix, and what is left to do after it.
* `patchLines_regroups`: a run makes all edits at once.
-/

namespace LintRepair

/-! ### All edits at once -/

namespace Buffer

/-- Whether an empty line is put in front of the line at an index: it is to begin a group, and the
line above it is not blank. -/
def opens (separate : Nat → Bool) (buffer : Buffer) (index : Nat) : Bool :=
  separate index && decide (1 ≤ index) && buffer[index - 1]?.any (!allBlank ·)

/-- Whether the line at an index is taken out: it is blank, and the line below it is to be part of
the group above. -/
def closes (join : Nat → Bool) (buffer : Buffer) (index : Nat) : Bool :=
  join (index + 1) && buffer[index]?.any allBlank

/-- What stands for the line at an index. -/
def regroupAt (separate join : Nat → Bool) (buffer : Buffer) (index : Nat) : Buffer :=
  (if buffer.opens separate index then [[]] else []) ++
    if buffer.closes join index then [] else buffer[index]?.toList

/-- The buffer with the blank lines between its imports put right at once, given the lines that are
to begin a group and those that are to be part of the group above. -/
def regroup (separate join : Nat → Bool) (buffer : Buffer) : Buffer :=
  (List.range buffer.length).flatMap (buffer.regroupAt separate join)

variable {separate join separate' join' : Nat → Bool} {buffer upper lower : Buffer} {index : Nat}

lemma regroupAt_of_false (hseparate : separate index = false) (hjoin : join (index + 1) = false) :
    buffer.regroupAt separate join index = buffer[index]?.toList := by
  simp [regroupAt, opens, closes, hseparate, hjoin]

/-- The line above the first of some lines is the last one above them. -/
lemma opens_append (separate : Nat → Bool) (upper lower : Buffer) :
    (upper ++ lower).opens separate upper.length =
      (separate upper.length && upper.getLast?.any (!allBlank ·)) := by
  cases upper using List.reverseRecOn with
  | nil => simp [opens]
  | append_singleton top l => simp [opens]

lemma closes_append (join : Nat → Bool) (upper lower : Buffer) (l : Line) :
    ((upper ++ [l]) ++ lower).closes join upper.length =
      (join (upper.length + 1) && allBlank l) := by
  simp [closes]

lemma flatMap_range_getElem? (buffer : Buffer) :
    ((List.range buffer.length).flatMap fun i => buffer[i]?.toList) = buffer := by
  induction buffer with
  | nil => rfl
  | cons l rest ih =>
      rw [List.length_cons, List.range_succ_eq_map, List.flatMap_cons, List.flatMap_map]
      simpa using ih

lemma regroup_congr (h : ∀ i < buffer.length, buffer.opens separate i = buffer.opens separate' i ∧
      buffer.closes join i = buffer.closes join' i) :
    buffer.regroup separate join = buffer.regroup separate' join' := by
  refine List.flatMap_congr fun i hi => ?_
  obtain ⟨hopens, hcloses⟩ := h i (List.mem_range.mp hi)
  rw [regroupAt, regroupAt, hopens, hcloses]

/-- The upper lines of a buffer do not see the lower ones. -/
lemma regroup_append :
    (upper ++ lower).regroup separate join =
      upper.regroup separate join ++
        (List.range lower.length).flatMap fun i =>
          (upper ++ lower).regroupAt separate join (upper.length + i) := by
  rw [regroup, List.length_append, List.range_add, List.flatMap_append, List.flatMap_map]
  congr 1
  refine List.flatMap_congr fun i hi => ?_
  have hlt := List.mem_range.mp hi
  rw [regroupAt, regroupAt, opens, opens, closes, closes, List.getElem?_append_left hlt,
    List.getElem?_append_left (by omega)]

lemma regroup_concat (l : Line) :
    (upper ++ [l]).regroup separate join =
      upper.regroup separate join ++ (upper ++ [l]).regroupAt separate join upper.length := by
  rw [regroup_append]
  simp

/-- Lines below all edits stay as they are. -/
lemma regroup_append_of_false
    (h : ∀ i, upper.length ≤ i → separate i = false ∧ join (i + 1) = false) :
    (upper ++ lower).regroup separate join = upper.regroup separate join ++ lower := by
  rw [regroup_append]
  congr 1
  conv_rhs => rw [← flatMap_range_getElem? lower]
  refine List.flatMap_congr fun i _ => ?_
  obtain ⟨hseparate, hjoin⟩ := h (upper.length + i) (Nat.le_add_right _ _)
  rw [regroupAt_of_false hseparate hjoin, List.getElem?_append_right (Nat.le_add_right _ _),
    Nat.add_sub_cancel_left]

/-- An empty line below all other edits can be put in first. -/
lemma regroup_insert {l : Line} (habove : upper.getLast?.any (!allBlank ·) = true)
    (h : ∀ i, upper.length ≤ i → separate i = false ∧ join i = false) :
    (upper ++ [] :: l :: lower).regroup separate join =
      (upper ++ l :: lower).regroup (fun i => decide (i = upper.length) || separate i) join := by
  have hat : (upper ++ [l]).regroupAt (fun i => decide (i = upper.length) || separate i) join
      upper.length = [[], l] := by
    rw [regroupAt, opens_append, habove, closes, (h (upper.length + 1) (Nat.le_succ _)).2]
    simp
  have hupper : ∀ i < upper.length,
      upper.opens separate i = upper.opens (fun i => decide (i = upper.length) || separate i) i ∧
        upper.closes join i = upper.closes join i :=
    fun i hi => by simp [opens, Nat.ne_of_lt hi]
  have hlower : ∀ i, (upper ++ [l]).length ≤ i →
      (decide (i = upper.length) || separate i) = false ∧ join (i + 1) = false := by
    intro i hi
    rw [List.length_append, List.length_singleton] at hi
    rw [(h i (by omega)).1, (h (i + 1) (by omega)).2]
    simp only [Bool.or_false, decide_eq_false_iff_not, and_true]
    omega
  calc (upper ++ [] :: l :: lower).regroup separate join
      = upper.regroup separate join ++ [] :: l :: lower :=
        regroup_append_of_false fun i hi => ⟨(h i hi).1, (h (i + 1) (by omega)).2⟩
    _ = (upper ++ [l]).regroup (fun i => decide (i = upper.length) || separate i) join ++
          lower := by
        rw [regroup_concat, hat, regroup_congr hupper, List.append_assoc]
        rfl
    _ = ((upper ++ [l]) ++ lower).regroup (fun i => decide (i = upper.length) || separate i) join :=
        (regroup_append_of_false hlower).symm
    _ = _ := by rw [List.append_assoc, List.singleton_append]

/-- A blank line below all other edits can be taken out first. -/
lemma regroup_erase {l : Line} (hblank : allBlank l = true)
    (h : ∀ i, upper.length ≤ i → separate i = false ∧ join i = false) :
    (upper ++ lower).regroup separate join =
      (upper ++ l :: lower).regroup separate
        (fun i => decide (i = upper.length + 1) || join i) := by
  have hat : (upper ++ [l]).regroupAt separate (fun i => decide (i = upper.length + 1) || join i)
      upper.length = [] := by
    simp [regroupAt, opens, closes, hblank, (h upper.length (Nat.le_refl _)).1]
  have hupper : ∀ i < upper.length, upper.opens separate i = upper.opens separate i ∧
      upper.closes join i =
        upper.closes (fun i => decide (i = upper.length + 1) || join i) i :=
    fun i hi => by simp [closes, Nat.ne_of_lt hi]
  have hlower : ∀ i, (upper ++ [l]).length ≤ i → separate i = false ∧
      (decide (i + 1 = upper.length + 1) || join (i + 1)) = false := by
    intro i hi
    rw [List.length_append, List.length_singleton] at hi
    rw [(h i (by omega)).1, (h (i + 1) (by omega)).2]
    simp only [Bool.or_false, decide_eq_false_iff_not, true_and]
    omega
  calc (upper ++ lower).regroup separate join
      = upper.regroup separate join ++ lower :=
        regroup_append_of_false fun i hi => ⟨(h i hi).1, (h (i + 1) (by omega)).2⟩
    _ = (upper ++ [l]).regroup separate (fun i => decide (i = upper.length + 1) || join i) ++
          lower := by
        rw [regroup_concat, hat, List.append_nil, regroup_congr hupper]
    _ = ((upper ++ [l]) ++ lower).regroup separate
          (fun i => decide (i = upper.length + 1) || join i) :=
        (regroup_append_of_false hlower).symm
    _ = _ := by rw [List.append_assoc, List.singleton_append]

end Buffer

/-! ### One fix after the other -/

/-- Whether a violation with this key is reported for the line at an index. -/
def Violation.reportedAt (key : String) (violations : List Violation) (index : Nat) : Bool :=
  violations.any fun v => decide (v.key = key ∧ v.line = index + 1)

/-- The buffer with the blank lines between its imports put right at once, as they are reported. -/
def Buffer.regroupedBy (violations : List Violation) (buffer : Buffer) : Buffer :=
  buffer.regroup (Violation.reportedAt "import.separation" violations)
    (Violation.reportedAt "import.groups.separated.internally" violations)

/-- What a run hands on: violations about blank lines, each on a line of its own that is not blank,
from the bottom of the buffer to its top. -/
structure Grouping (violations : List Violation) (buffer : Buffer) : Prop where
  keys : ∀ v ∈ violations, v.key ∈ Rule.groupKeys
  lines : ∀ v ∈ violations, 1 ≤ v.line ∧
    ∃ l, buffer[v.lineIndex]? = some l ∧ allBlank l = false
  order : violations.Pairwise fun v w => w.line < v.line

section Step

variable {v : Violation} {later : List Violation} {buffer upper lower : Buffer}

lemma blankAbove_append (hv : upper.length = v.lineIndex) (hline : 1 ≤ v.line) :
    blankAbove (upper ++ lower) v = upper.getLast?.map allBlank := by
  rw [Violation.lineIndex] at hv
  rw [blankAbove]
  split_ifs with htwo
  · have hnil : upper = [] := List.length_eq_zero_iff.mp (by omega)
    rw [hnil]
    rfl
  · rw [List.getLast?_eq_getElem?, List.getElem?_append_left (by omega)]
    congr 2
    omega

lemma Grouping.exists_split (h : Grouping (v :: later) buffer) :
    ∃ (upper : Buffer) (l : Line) (lower : Buffer), buffer = upper ++ l :: lower ∧
      upper.length = v.lineIndex := by
  obtain ⟨-, l, hl, -⟩ := h.lines v List.mem_cons_self
  obtain ⟨hlt, rfl⟩ := List.getElem?_eq_some_iff.mp hl
  refine ⟨buffer.take v.lineIndex, buffer[v.lineIndex], buffer.drop (v.lineIndex + 1), ?_, ?_⟩
  · rw [List.getElem_cons_drop, List.take_append_drop]
  · rw [List.length_take]
    omega

lemma Violation.reportedAt_cons_of_eq {key : String} (hv : v.key = key) (hline : 1 ≤ v.line)
    {n : Nat} (hindex : n = v.lineIndex) :
    reportedAt key (v :: later) = fun i => decide (i = n) || reportedAt key later i := by
  funext i
  rw [reportedAt, List.any_cons, hindex, lineIndex]
  congr 2
  simp only [hv, true_and, eq_iff_iff]
  omega

lemma Violation.reportedAt_cons_of_ne {key : String} (hv : v.key ≠ key) :
    reportedAt key (v :: later) = reportedAt key later := by
  funext i
  simp [reportedAt, hv]

/-- No line below all reported ones is reported. -/
lemma Grouping.reportedAt_eq_false (h : Grouping later buffer) {n : Nat}
    (hlt : ∀ w ∈ later, w.lineIndex < n) (key : String) {i : Nat} (hi : n ≤ i) :
    Violation.reportedAt key later i = false := by
  refine List.any_eq_false.mpr fun w hw => ?_
  have hw' := hlt w hw
  have hline := (h.lines w hw).1
  rw [Violation.lineIndex] at hw'
  simp only [decide_eq_true_eq, not_and]
  omega

/-- What waits above some lines does not see them. -/
lemma Grouping.of_append (h : Grouping later (upper ++ lower))
    (hlt : ∀ w ∈ later, w.lineIndex < upper.length) (lower' : Buffer) :
    Grouping later (upper ++ lower') := by
  refine ⟨h.keys, fun w hw => ?_, h.order⟩
  obtain ⟨hline, l, hl, hvisible⟩ := h.lines w hw
  rw [List.getElem?_append_left (hlt w hw)] at hl
  exact ⟨hline, l, by rw [List.getElem?_append_left (hlt w hw), hl], hvisible⟩

lemma Grouping.tail (h : Grouping (v :: later) buffer) : Grouping later buffer :=
  ⟨fun w hw => h.keys w (List.mem_cons_of_mem v hw),
    fun w hw => h.lines w (List.mem_cons_of_mem v hw), (List.pairwise_cons.mp h.order).2⟩

lemma Grouping.lineIndex_lt (h : Grouping (v :: later) buffer) :
    ∀ w ∈ later, w.lineIndex < v.lineIndex := by
  intro w hw
  have horder := (List.pairwise_cons.mp h.order).1 w hw
  have hline := (h.tail.lines w hw).1
  rw [Violation.lineIndex, Violation.lineIndex]
  omega

/-- A group is separated from the one above, below all other edits. -/
lemma Grouping.separate (h : Grouping (v :: later) buffer) (hv : v.key = "import.separation") :
    ∃ buffer', Fix.separateGroup v buffer = .ok buffer' ∧ Grouping later buffer' ∧
      buffer'.regroupedBy later = buffer.regroupedBy (v :: later) := by
  obtain ⟨upper, l, lower, rfl, hindex⟩ := h.exists_split
  have hline := (h.lines v List.mem_cons_self).1
  have hlt : v.lineIndex < (upper ++ l :: lower).length := by
    rw [← hindex]
    simp
  have hlater : ∀ w ∈ later, w.lineIndex < upper.length := hindex ▸ h.lineIndex_lt
  refine ⟨_, separateGroup_eq_ok_iff.mpr ⟨⟨hline, hlt⟩, rfl⟩, ?_⟩
  rw [blankAbove_append hindex hline, Buffer.regroupedBy, Buffer.regroupedBy,
    Violation.reportedAt_cons_of_eq hv hline hindex,
    Violation.reportedAt_cons_of_ne (by rw [hv]; decide)]
  split_ifs with habove
  · have hinsert : (upper ++ l :: lower).insertIdx v.lineIndex [] = upper ++ [] :: l :: lower := by
      rw [Buffer.insertIdx_eq_append hlt.le, ← hindex]
      simp
    rw [hinsert]
    refine ⟨h.tail.of_append hlater _, Buffer.regroup_insert ?_ fun i hi =>
      ⟨h.tail.reportedAt_eq_false hlater _ hi, h.tail.reportedAt_eq_false hlater _ hi⟩⟩
    obtain ⟨k, hk, hvisible⟩ := Option.map_eq_some_iff.mp habove
    simp [hk, hvisible]
  · refine ⟨h.tail, Buffer.regroup_congr fun i _ => ⟨?_, rfl⟩⟩
    by_cases hi : i = upper.length
    · have hidle : upper.getLast?.any (!allBlank ·) = false := by
        cases hlast : upper.getLast? with
        | none => rfl
        | some k => simpa [hlast] using habove
      rw [hi, Buffer.opens_append, Buffer.opens_append, hidle, Bool.and_false, Bool.and_false]
    · simp [Buffer.opens, hi]

/-- A blank line inside a group is taken out, below all other edits. -/
lemma Grouping.join (h : Grouping (v :: later) buffer)
    (hv : v.key = "import.groups.separated.internally") :
    ∃ buffer', Fix.joinGroup v buffer = .ok buffer' ∧ Grouping later buffer' ∧
      buffer'.regroupedBy later = buffer.regroupedBy (v :: later) := by
  obtain ⟨upper, l, lower, rfl, hindex⟩ := h.exists_split
  have hline := (h.lines v List.mem_cons_self).1
  have hlt : v.lineIndex < (upper ++ l :: lower).length := by
    rw [← hindex]
    simp
  have hlater : ∀ w ∈ later, w.lineIndex < upper.length := hindex ▸ h.lineIndex_lt
  refine ⟨_, joinGroup_eq_ok_iff.mpr ⟨⟨hline, hlt⟩, rfl⟩, ?_⟩
  rw [blankAbove_append hindex hline, Buffer.regroupedBy, Buffer.regroupedBy,
    Violation.reportedAt_cons_of_eq hv hline hindex,
    Violation.reportedAt_cons_of_ne (by rw [hv]; decide)]
  split_ifs with habove
  · obtain ⟨k, hk, hblank⟩ := Option.map_eq_some_iff.mp habove
    obtain ⟨top, rfl⟩ := List.getLast?_eq_some_iff.mp hk
    have hlater' : ∀ w ∈ later, w.lineIndex < top.length := by
      intro w hw
      have hle := hlater w hw
      rw [List.length_append, List.length_singleton] at hle
      refine lt_of_le_of_ne (Nat.le_of_lt_succ hle) fun heq => ?_
      obtain ⟨-, m, hm, hvisible⟩ := h.tail.lines w hw
      have hkm : k = m := by simpa [heq] using hm
      rw [← hkm, hblank] at hvisible
      simp at hvisible
    have herase : ((top ++ [k]) ++ l :: lower).eraseIdx (v.line - 2) = top ++ l :: lower := by
      rw [Violation.lineIndex, List.length_append, List.length_singleton] at hindex
      rw [show v.line - 2 = top.length by omega, List.append_assoc,
        List.eraseIdx_append_of_length_le (Nat.le_refl _)]
      simp
    have htail : Grouping later (top ++ k :: l :: lower) := by
      simpa using h.tail
    rw [herase]
    refine ⟨htail.of_append hlater' _, ?_⟩
    rw [List.append_assoc, List.length_append]
    exact Buffer.regroup_erase hblank fun i hi =>
      ⟨htail.reportedAt_eq_false hlater' _ hi, htail.reportedAt_eq_false hlater' _ hi⟩
  · refine ⟨h.tail, Buffer.regroup_congr fun i _ => ⟨rfl, ?_⟩⟩
    by_cases hi : i + 1 = upper.length
    · cases upper using List.reverseRecOn with
      | nil => simp at hi
      | append_singleton top k =>
          have hidle : allBlank k = false := by simpa using habove
          rw [List.length_append, List.length_singleton, Nat.add_right_cancel_iff] at hi
          rw [hi, Buffer.closes_append, Buffer.closes_append, hidle, Bool.and_false, Bool.and_false]
    · simp [Buffer.closes, hi]

/-- One fix, and what is left to do after it. -/
lemma Grouping.step (h : Grouping (v :: later) buffer) (tabWidth : Nat) :
    ∃ rule buffer', Rule.ofKey? v.key = some rule ∧
      (rule = .importGroups ∨ rule = .importSeparation) ∧
      rule.fix tabWidth v buffer = .ok buffer' ∧ Grouping later buffer' ∧
      buffer'.regroupedBy later = buffer.regroupedBy (v :: later) := by
  have hkey := h.keys v List.mem_cons_self
  rw [Rule.groupKeys, List.mem_cons, List.mem_singleton] at hkey
  rcases hkey with hkey | hkey
  · obtain ⟨buffer', hfix, hrest⟩ := h.join hkey
    exact ⟨.importGroups, buffer', hkey ▸ rfl, Or.inl rfl, hfix, hrest⟩
  · obtain ⟨buffer', hfix, hrest⟩ := h.separate hkey
    exact ⟨.importSeparation, buffer', hkey ▸ rfl, Or.inr rfl, hfix, hrest⟩

end Step

/-! ### Runs -/

/-- Reports about blank lines between imports, on lines of the buffer that are not blank and of
which no two are the same. A run over them succeeds, whatever the order in which they were reported,
and it is as if all blank lines had been put in and taken out at once. -/
theorem patchLines_regroups (patcher : Patcher) (violations : List Violation) (buffer : Buffer)
    (hkeys : ∀ v ∈ violations, v.key ∈ Rule.groupKeys)
    (henabled : ∀ v ∈ violations, patcher.enabled v.key = true)
    (hlines : ∀ v ∈ violations, 1 ≤ v.line ∧
      ∃ l, buffer[v.lineIndex]? = some l ∧ allBlank l = false)
    (hdistinct : violations.Pairwise fun v w => v.line ≠ w.line) :
    patcher.patchLines violations buffer =
      .ok ⟨buffer.regroupedBy violations, violations.length, 0, []⟩ := by
  set sorted := Violation.inPatchOrder violations with hsorted
  have hmem : ∀ v ∈ sorted, v ∈ violations := fun v hv => Violation.mem_inPatchOrder.mp hv
  have hstart : Grouping sorted buffer := by
    have hdistinct' : sorted.Pairwise fun v w => v.line ≠ w.line :=
      ((Violation.inPatchOrder_perm violations).pairwise_iff fun {v w} => Ne.symm).mpr hdistinct
    refine ⟨fun v hv => hkeys v (hmem v hv), fun v hv => hlines v (hmem v hv), ?_⟩
    refine ((Violation.inPatchOrder_pairwise violations).and hdistinct').imp ?_
    rintro v w ⟨horder, hne⟩
    omega
  have hreported : ∀ key, Violation.reportedAt key sorted = Violation.reportedAt key violations :=
    fun key => funext fun i => (Violation.inPatchOrder_perm violations).any_eq
  have hlead : buffer.regroupedBy sorted = buffer.regroupedBy violations := by
    rw [Buffer.regroupedBy, Buffer.regroupedBy, hreported, hreported]
  have hordering : sorted.all (·.key ≠ orderingKey) = true := by
    have hgroup : ∀ key ∈ Rule.groupKeys, decide (key ≠ orderingKey) = true := by decide
    exact List.all_eq_true.mpr fun w hw => hgroup w.key (hkeys w (hmem w hw))
  -- what a run hands on: the edits that are still to come lead from its lines to the result
  let P : List Violation → Buffer → Prop := fun waiting lines =>
    Grouping waiting lines ∧ (∀ v ∈ waiting, v ∈ sorted) ∧
      lines.regroupedBy waiting = buffer.regroupedBy violations
  have hfix : ∀ v later lines, P (v :: later) lines → ∃ rule lines',
      patcher.ruleFor v.key = some rule ∧ rule.permits sorted v (.followedBy later) = true ∧
        rule.fix patcher.tabWidth v lines = .ok lines' ∧ P later lines' := by
    rintro v later lines ⟨hgrouping, hwaiting, hlead⟩
    have hv := hmem v (hwaiting v List.mem_cons_self)
    obtain ⟨rule, lines', hrule, hrules, hlines', hgrouping', hlead'⟩ :=
      hgrouping.step patcher.tabWidth
    refine ⟨rule, lines', ?_, ?_, hlines', hgrouping',
      fun w hw => hwaiting w (List.mem_cons_of_mem v hw), hlead'.trans hlead⟩
    · rw [Patcher.ruleFor, if_pos (henabled v hv), hrule]
    · rcases hrules with rfl | rfl <;> exact hordering
  obtain ⟨lines, hrun, -, -, hend⟩ := Patcher.applyAll_of_fix hfix
    ⟨buffer, 0, 0, []⟩ (show P sorted buffer from ⟨hstart, fun v hv => hv, hlead⟩)
  have hidle : lines.regroupedBy [] = lines :=
    @Buffer.regroup_append_of_false _ _ [] lines fun _ _ => ⟨rfl, rfl⟩
  rw [Patcher.patchLines_eq, ← hsorted, hrun, ← hend, hidle]
  simp [hsorted]

/-- A blank line inside a group, two groups without one between them, and two reports that leave
the lines above alone. -/
theorem patchLines_regroups_three_imports :
    (Patcher.complete 4).patchLines
        [⟨1, 1, "import.separation", ""⟩, ⟨3, 1, "import.groups.separated.internally", ""⟩,
          ⟨5, 1, "import.groups.separated.internally", ""⟩, ⟨4, 1, "import.separation", ""⟩]
        ["import a;".toList, " ".toList, "import b;".toList, "import c;".toList,
          "class X;".toList] =
      .ok ⟨["import a;".toList, "import b;".toList, [], "import c;".toList,
        "class X;".toList], 4, 0, []⟩ := by
  refine (patchLines_regroups (Patcher.complete 4) _ _ (by decide) (by decide) (fun v hv => ?_)
    (by decide)).trans (by decide)
  simp only [List.mem_cons, List.not_mem_nil, or_false] at hv
  rcases hv with rfl | rfl | rfl | rfl
  · exact ⟨by decide, "import a;".toList, rfl, by decide⟩
  · exact ⟨by decide, "import b;".toList, rfl, by decide⟩
  · exact ⟨by decide, "class X;".toList, rfl, by decide⟩
  · exact ⟨by decide, "import c;".toList, rfl, by decide⟩

end LintRepair
