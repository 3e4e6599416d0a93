import LintRepair.Proofs.Import.Removal

/-!
Imports that are reported more than once.

Of several violations in one import the first one cuts it out, and what the others point at from
then on is something else. They do no harm just if they find no import on the line where they were
reported; otherwise an import goes that nobody reported, or the run fails.

* `Idle`: a violation that removes nothing.
* `removeImport_cases`: a removal is idle or cuts an import out, and then visible characters are
  lost (`visible_cut_lt`).
* `applyAll_of_idle`, `idle_of_applyAll`: a run of removals keeps all visible characters just if all
  of them are idle.
* `patchLines_repeated_removal_iff`: when a run over violations in one import removes just that one.
-/

namespace LintRepair

/-! ### What a removal does -/

/-- A violation that removes nothing, since no import is on its line. -/
def Idle (buffer : Buffer) (v : Violation) : Prop :=
  (1 ≤ v.line ∧ v.lineIndex < buffer.length) ∧
    ∃ found, statements buffer = .ok found ∧
      ∀ s ∈ found, s.isImport = true → s.spansLine v.lineIndex = false

/-- Nothing is removed just if no import is on the line. -/
lemma removable_eq_none_iff {found : List Statement} {p : Position} :
    removable found p = none ↔ ∀ s ∈ found, s.isImport = true → s.spansLine p.line = false := by
  have hnone : removable found p = none ↔
      (found.filter fun s => s.isImport && s.spansLine p.line) = [] := by
    rw [removable]
    cases found.filter fun s => s.isImport && s.spansLine p.line with
    | nil => simp
    | cons s rest => simp
  rw [hnone, List.filter_eq_nil_iff]
  simp

lemma removable_mem {found : List Statement} {p : Position} {s : Statement}
    (h : removable found p = some s) : s ∈ found ∧ s.isImport = true := by
  have hmem : s ∈ found.filter fun s => s.isImport && s.spansLine p.line := by
    rw [removable, Option.or_eq_some_iff] at h
    rcases h with h | ⟨-, h⟩
    · exact List.mem_of_find?_eq_some h
    · exact List.mem_of_mem_head? h
  obtain ⟨hs, hyes⟩ := List.mem_filter.mp hmem
  exact ⟨hs, (Bool.and_eq_true_iff.mp hyes).1⟩

lemma removeImport_of_idle {buffer : Buffer} {v : Violation} (h : Idle buffer v) :
    Fix.removeImport v buffer = .ok buffer := by
  obtain ⟨hline, found, hfound, hnone⟩ := h
  have hremovable : removable found ⟨v.lineIndex, v.columnIndex⟩ = none :=
    removable_eq_none_iff.mpr hnone
  refine onStatements_eq_ok_iff.mpr ⟨hline, found, hfound, ?_⟩
  rw [hremovable]

/-- A removal that succeeds is idle or cuts an import out. -/
lemma removeImport_cases {buffer buffer' : Buffer} {v : Violation}
    (h : Fix.removeImport v buffer = .ok buffer') :
    Idle buffer v ∧ buffer' = buffer ∨
      ∃ found s, statements buffer = .ok found ∧ s ∈ found ∧ s.isImport = true ∧
        buffer' = buffer.cutStatement s := by
  obtain ⟨hline, found, hfound, rfl⟩ := onStatements_eq_ok_iff.mp h
  cases hremovable : removable found ⟨v.lineIndex, v.columnIndex⟩ with
  | none => exact Or.inl ⟨⟨hline, found, hfound, removable_eq_none_iff.mp hremovable⟩, rfl⟩
  | some s =>
      obtain ⟨hs, himport⟩ := removable_mem hremovable
      exact Or.inr ⟨found, s, hfound, hs, himport, rfl⟩

/-- An import of a buffer with the pieces around it. The body stands behind it. -/
lemma exists_import_piece {buffer : Buffer} (hb : buffer.Unbroken) {found : List Statement}
    (hfound : statements buffer = .ok found) {s : Statement} (hs : s ∈ found)
    (himport : s.isImport = true) :
    ∃ fore piece following rest,
      Reads false buffer.text (fore ++ piece :: following :: rest) ∧
      found = Piece.placed buffer.lastPosition ⟨0, 0⟩ (fore ++ piece :: following :: rest) ∧
      declaresImport piece.text = true ∧
      s = piece.place ((⟨0, 0⟩ : Position).advance (Piece.flat fore)) := by
  obtain ⟨pieces, hreads, rfl⟩ := (statements_iff_reads hb found).mp hfound
  obtain ⟨front, body, rfl, hbody⟩ := hreads.exists_body
  rw [Piece.placed_append _ _ _ (List.cons_ne_nil _ _), Piece.placed] at hs
  rcases List.mem_append.mp hs with hs | hs
  · obtain ⟨fore, piece, aft, rfl, rfl⟩ := Piece.exists_of_mem_spans hs
    obtain ⟨following, rest, hrest⟩ : ∃ following rest, aft ++ [body] = following :: rest :=
      List.exists_cons_of_ne_nil (by simp)
    rw [List.append_assoc, List.cons_append, hrest] at hreads ⊢
    exact ⟨fore, piece, following, rest, hreads, rfl, by rwa [Statement.isImport_eq] at himport,
      rfl⟩
  · rw [List.mem_singleton] at hs
    rw [Statement.isImport_eq, hs] at himport
    exact absurd (hbody.symm.trans himport) (by simp)

/-- A cut takes visible characters away. -/
lemma visible_cut_lt {buffer : Buffer} (hb : buffer.Unbroken) {found : List Statement}
    (hfound : statements buffer = .ok found) {s : Statement} (hs : s ∈ found)
    (himport : s.isImport = true) :
    (visible (buffer.cutStatement s).flatten).length < (visible buffer.flatten).length := by
  obtain ⟨fore, piece, following, rest, hreads, -, hyes, hplace⟩ :=
    exists_import_piece hb hfound hs himport
  obtain ⟨gap, hgap, htext, -⟩ := exists_cut hb hreads hyes hplace
  obtain ⟨-, core, tail, hcore, hpiece⟩ := hreads.wellFormed piece (by simp)
  have hpos : 0 < (visible core).length := List.length_pos_iff.mpr (visible_ne_nil hcore)
  rw [← Buffer.visible_text, ← Buffer.visible_text, htext, ← hreads.flat_eq, Piece.flat_append,
    Piece.flat_append, Piece.flat_cons, Piece.flat_cons, Piece.flat_cons, hpiece]
  simp only [visible_append, List.length_append, visible_of_allBlank hgap, List.length_nil]
  omega

/-- What a cut leaves to be seen are the other statements. -/
lemma visible_cutStatement {buffer : Buffer} (hb : buffer.Unbroken) {found : List Statement}
    (hfound : statements buffer = .ok found) {s : Statement} (hs : s ∈ found)
    (himport : s.isImport = true) :
    visible (buffer.cutStatement s).flatten =
      visible ((found.filter (· ≠ s)).map Statement.text).flatten := by
  obtain ⟨fore, piece, following, rest, hreads, rfl, hyes, hplace⟩ :=
    exists_import_piece hb hfound hs himport
  obtain ⟨gap, hgap, htext, -⟩ := exists_cut hb hreads hyes hplace
  have hpairwise := Piece.pairwise_placed buffer.lastPosition ⟨0, 0⟩
    fun p hp => (hreads.wellFormed p hp).text_ne_nil
  have hself : s.start ≤ s.stop := hplace ▸ Position.le_advance _ _
  have hblank : ∀ p ∈ fore ++ ⟨gap, following.text⟩ :: rest, allBlank p.gap = true := by
    intro p hp
    rcases List.mem_append.mp hp with hp | hp
    · exact (hreads.wellFormed p (by simp [hp])).1
    · rcases List.mem_cons.mp hp with rfl | hp
      · exact hgap
      · exact (hreads.wellFormed p (by simp [hp])).1
  rw [Piece.placed_append _ _ _ (List.cons_ne_nil _ _),
    Piece.placed_cons _ _ _ (List.cons_ne_nil _ _), ← hplace] at hpairwise ⊢
  -- the statement is there once, since no statement ends before it begins
  obtain ⟨-, hrest, hcross⟩ := List.pairwise_append.mp hpairwise
  have hne : ∀ t, t.stop < s.start ∨ s.stop < t.start → t ≠ s := by
    rintro t hlt rfl
    rcases hlt with hlt | hlt <;> exact Position.not_lt_of_le hself hlt
  have hfore : ∀ t ∈ Piece.spans ⟨0, 0⟩ fore, t ≠ s := fun t ht =>
    hne t (Or.inl (hcross t ht s (by simp)))
  have hbehind : ∀ t ∈ Piece.placed buffer.lastPosition
      (((⟨0, 0⟩ : Position).advance (Piece.flat fore)).advance piece.source)
      (following :: rest), t ≠ s := fun t ht =>
    hne t (Or.inr ((List.pairwise_cons.mp hrest).1 t ht))
  rw [List.filter_append, List.filter_cons_of_neg (by simp),
    List.filter_eq_self.mpr (by simpa using hfore),
    List.filter_eq_self.mpr (by simpa using hbehind), List.map_append, Piece.map_text_spans,
    Piece.map_text_placed, ← Buffer.visible_text, htext, visible_flat hblank, List.map_append,
    List.map_cons, List.map_cons]

/-! ### Runs of removals -/

section Run

variable {patcher : Patcher} {all : List Violation}

/-- Idle violations leave the buffer as it is. -/
lemma applyAll_of_idle (patcher : Patcher) (all : List Violation) {violations : List Violation}
    (hkeys : ∀ v ∈ violations, v.key ∈ Rule.removalKeys)
    (henabled : ∀ v ∈ violations, patcher.enabled v.key = true) (state : Patched)
    (hidle : ∀ v ∈ violations, Idle state.lines v) :
    ∃ patched, patcher.applyAll all violations state = .ok patched ∧
      patched.lines = state.lines := by
  let P : List Violation → Patched → Prop := fun waiting state' =>
    (∀ v ∈ waiting, v ∈ violations) ∧ state'.lines = state.lines
  have hstep : ∀ v later state', P (v :: later) state' → ∃ state'',
      patcher.applyOne all v later state' = .ok state'' ∧ P later state'' := by
    rintro v later state' ⟨hmem, hlines⟩
    have hv := hmem v List.mem_cons_self
    refine ⟨{ state' with applied := state'.applied + 1 }, ?_,
      fun w hw => hmem w (List.mem_cons_of_mem v hw), hlines⟩
    rw [applyOne_removal (hkeys v hv) (henabled v hv),
      removeImport_of_idle (hlines ▸ hidle v hv)]
    rfl
  obtain ⟨patched, hpatched, -, hlines⟩ :=
    Patcher.applyAll_of_step hstep (show P violations state from ⟨fun v hv => hv, rfl⟩)
  exact ⟨patched, hpatched, hlines⟩

/-- A run of removals adds nothing to be seen, and if it loses nothing either, all of it is idle. -/
lemma idle_of_applyAll {violations : List Violation}
    (hkeys : ∀ v ∈ violations, v.key ∈ Rule.removalKeys)
    (henabled : ∀ v ∈ violations, patcher.enabled v.key = true) {state patched : Patched}
    (h : patcher.applyAll all violations state = .ok patched) (hb : state.lines.Unbroken) :
    (visible patched.lines.flatten).length ≤ (visible state.lines.flatten).length ∧
      ((visible patched.lines.flatten).length = (visible state.lines.flatten).length →
        ∀ v ∈ violations, Idle state.lines v) := by
  induction violations generalizing state with
  | nil =>
      rw [Patcher.applyAll, Except.ok.injEq] at h
      exact ⟨by rw [h], fun _ v hv => absurd hv List.not_mem_nil⟩
  | cons v later ih =>
      have hkeys' : ∀ w ∈ later, w.key ∈ Rule.removalKeys := fun w hw =>
        hkeys w (List.mem_cons_of_mem v hw)
      have henabled' : ∀ w ∈ later, patcher.enabled w.key = true := fun w hw =>
        henabled w (List.mem_cons_of_mem v hw)
      rw [Patcher.applyAll, applyOne_removal (hkeys v List.mem_cons_self)
        (henabled v List.mem_cons_self)] at h
      cases hfix : Fix.removeImport v state.lines with
      | error e => simp [hfix, Except.map] at h
      | ok lines =>
          simp only [hfix, Except.map] at h
          rcases removeImport_cases hfix with ⟨hidle, rfl⟩ | ⟨found, s, hfound, hs, himport, rfl⟩
          · obtain ⟨hle, heq⟩ := ih hkeys' henabled' h hb
            refine ⟨hle, fun hsame w hw => ?_⟩
            rcases List.mem_cons.mp hw with rfl | hw
            · exact hidle
            · exact heq hsame w hw
          · have hlt := visible_cut_lt hb hfound hs himport
            obtain ⟨hle, -⟩ := ih hkeys' henabled' h (hb.cutStatement s)
            simp only at hle
            exact ⟨by omega, fun hsame => by omega⟩

/-- A run whose first removal has no line number fails. -/
lemma line_of_applyAll {v : Violation} {later : List Violation}
    (hkey : v.key ∈ Rule.removalKeys) (henabled : patcher.enabled v.key = true)
    {state patched : Patched} (h : patcher.applyAll all (v :: later) state = .ok patched) :
    1 ≤ v.line := by
  rw [Patcher.applyAll, applyOne_removal hkey henabled] at h
  cases hfix : Fix.removeImport v state.lines with
  | error e => simp [hfix, Except.map] at h
  | ok lines =>
      obtain ⟨⟨hline, -⟩, -⟩ := onStatements_eq_ok_iff.mp hfix
      exact hline

end Run

/-- Of violations that all lie in one import, the first one in patch order removes it. The run
removes just this import if and only if all line numbers are there and none of the other violations
finds an import on its line in what that removal leaves. -/
theorem patchLines_repeated_removal_iff (patcher : Patcher) (violations : List Violation)
    (hne : violations ≠ []) {buffer : Buffer} (hb : buffer.Unbroken) {found : List Statement}
    (hfound : statements buffer = .ok found) {s : Statement} (hs : s ∈ found)
    (himport : s.isImport = true) (hkeys : ∀ v ∈ violations, v.key ∈ Rule.removalKeys)
    (henabled : ∀ v ∈ violations, patcher.enabled v.key = true)
    (hcover : ∀ v ∈ violations, s.covers v.position = true) :
    (∃ patched, patcher.patchLines violations buffer = .ok patched ∧
        visible patched.lines.flatten =
          visible ((found.filter (· ≠ s)).map Statement.text).flatten) ↔
      (∀ v ∈ violations, 1 ≤ v.line) ∧
        ∀ v ∈ (Violation.inPatchOrder violations).tail, Idle (buffer.cutStatement s) v := by
  obtain ⟨first, others, horder⟩ : ∃ first others,
      Violation.inPatchOrder violations = first :: others := by
    refine List.exists_cons_of_ne_nil fun hnil => hne ?_
    rw [← List.length_eq_zero_iff, ← Violation.length_inPatchOrder, hnil, List.length_nil]
  have hmem : ∀ v, v ∈ violations ↔ v = first ∨ v ∈ others := by
    intro v
    rw [← Violation.mem_inPatchOrder, horder, List.mem_cons]
  have hfirst := (hmem first).mpr (Or.inl rfl)
  have hkeys' : ∀ v ∈ others, v.key ∈ Rule.removalKeys := fun v hv =>
    hkeys v ((hmem v).mpr (Or.inr hv))
  have henabled' : ∀ v ∈ others, patcher.enabled v.key = true := fun v hv =>
    henabled v ((hmem v).mpr (Or.inr hv))
  obtain ⟨fore, piece, following, rest, hreads, -, hyes, hplace⟩ :=
    exists_import_piece hb hfound hs himport
  have hrun : 1 ≤ first.line → patcher.patchLines violations buffer =
      patcher.applyAll (first :: others) others ⟨buffer.cutStatement s, 1, 0, []⟩ := by
    intro hline
    rw [Patcher.patchLines_eq, horder, Patcher.applyAll,
      applyOne_removal (hkeys first hfirst) (henabled first hfirst),
      removeImport_eq hb hreads (List.cons_ne_nil _ _) hyes hplace hline (hcover first hfirst)]
    rfl
  rw [horder, List.tail_cons, ← visible_cutStatement hb hfound hs himport]
  constructor
  · rintro ⟨patched, hpatched, hsame⟩
    have hline : 1 ≤ first.line := by
      rw [Patcher.patchLines_eq, horder] at hpatched
      exact line_of_applyAll (hkeys first hfirst) (henabled first hfirst) hpatched
    rw [hrun hline] at hpatched
    have hidle := (idle_of_applyAll hkeys' henabled' hpatched (hb.cutStatement s)).2
      (congrArg List.length hsame)
    refine ⟨fun v hv => ?_, hidle⟩
    rcases (hmem v).mp hv with rfl | hv
    · exact hline
    · exact (hidle v hv).1.1
  · rintro ⟨hlines, hidle⟩
    obtain ⟨patched, hpatched, hsame⟩ := applyAll_of_idle patcher (first :: others) hkeys' henabled'
      ⟨buffer.cutStatement s, 1, 0, []⟩ hidle
    exact ⟨patched, (hrun (hlines first hfirst)).trans hpatched, by rw [hsame]⟩

/-- An import that is reported twice: the second report finds the blank line that was below it. -/
theorem patchLines_repeated_removal_idle :
    ∃ patched, (Patcher.complete 4).patchLines
        [⟨1, 1, "import.lang", ""⟩, ⟨1, 1, "import.unused", ""⟩]
        ["import a.A;".toList, [], "import b.B;".toList, "class X;".toList] = .ok patched ∧
      visible patched.lines.flatten = "importb.B;classX;".toList := by
  have hfound : statements
      ["import a.A;".toList, [], "import b.B;".toList, "class X;".toList] =
      .ok [⟨⟨0, 0⟩, ⟨0, 10⟩, "import a.A;".toList⟩, ⟨⟨2, 0⟩, ⟨2, 10⟩, "import b.B;".toList⟩,
        ⟨⟨3, 0⟩, ⟨3, 7⟩, "class X;".toList⟩] := by cbv
  have horder : Violation.inPatchOrder
      [⟨1, 1, "import.lang", ""⟩, ⟨1, 1, "import.unused", ""⟩] =
      [⟨1, 1, "import.lang", ""⟩, ⟨1, 1, "import.unused", ""⟩] := by
    rw [Violation.inPatchOrder_eq_insertionSort]
    decide +kernel
  have hcut : statements [[], "import b.B;".toList, "class X;".toList] =
      .ok [⟨⟨1, 0⟩, ⟨1, 10⟩, "import b.B;".toList⟩, ⟨⟨2, 0⟩, ⟨2, 7⟩, "class X;".toList⟩] := by cbv
  obtain ⟨patched, hpatched, hvisible⟩ :=
    (patchLines_repeated_removal_iff (Patcher.complete 4)
      [⟨1, 1, "import.lang", ""⟩, ⟨1, 1, "import.unused", ""⟩] (by simp)
      (by simp [Buffer.Unbroken]) hfound List.mem_cons_self (by decide) (by decide) (by decide)
      (by decide)).mpr ⟨by decide, by
        rw [horder]
        intro v hv
        rw [List.tail_cons, List.mem_singleton] at hv
        subst hv
        exact ⟨by decide, _, hcut, by decide⟩⟩
  exact ⟨patched, hpatched, hvisible.trans (by decide)⟩

/-- An import that is reported twice: the second report removes the import below it, which nobody
reported. -/
theorem patchLines_repeated_removal_overreaches :
    (Patcher.complete 4).patchLines [⟨1, 1, "import.lang", ""⟩, ⟨1, 1, "import.unused", ""⟩]
        ["import a.A;".toList, "import b.B;".toList, "class X { int i; }".toList] =
      .ok ⟨["class X { int i; }".toList], 2, 0, []⟩ ∧
    statements ["import a.A;".toList, "import b.B;".toList, "class X { int i; }".toList] =
      .ok [⟨⟨0, 0⟩, ⟨0, 10⟩, "import a.A;".toList⟩, ⟨⟨1, 0⟩, ⟨1, 10⟩, "import b.B;".toList⟩,
        ⟨⟨2, 0⟩, ⟨2, 17⟩, "class X { int i; }".toList⟩] := by
  constructor
  · rw [Patcher.patchLines_eq, Violation.inPatchOrder_eq_insertionSort]
    decide +kernel
  · cbv

end LintRepair
