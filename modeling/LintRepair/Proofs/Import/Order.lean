import LintRepair.Proofs.Import.Split
import LintRepair.Proofs.Import.Swap
import LintRepair.Proofs.Statement.Layout

/-!
Reordered imports.

One step towards sorted imports splits the first line that two statements share. Once there is none
it moves the reported import in front of the one before it. Either way the statements of the buffer
can be told apart afterwards, and no line is lost.

* `reorderImport_of_shared`, `reorderImport_of_apart`: the two kinds of steps.
* `reorderImport_keeps`: what every step keeps.
* `reorderImport_swaps_imports`: without shared lines, a step swaps two imports.
* `reorderImport_splits_shared_lines`: with shared lines, a step takes away one of them, and as many
  steps as there are pairs that share a line put the statements on lines of their own.
-/

namespace LintRepair

variable {buffer : Buffer} {found : List Statement} {v : Violation}

/-! ### Two kinds of steps -/

lemma Reads.isBlank_placed {afterImport : Bool} {x : List Char} {pieces : List Piece}
    (h : Reads afterImport x pieces) (last p : Position) :
    ∀ s ∈ Piece.placed last p pieces, s.isBlank = false := by
  intro s hs
  have hmem : s.text ∈ pieces.map Piece.text :=
    Piece.map_text_placed last p pieces ▸ List.mem_map_of_mem hs
  obtain ⟨piece, hpiece, htext⟩ := List.mem_map.mp hmem
  obtain ⟨-, core, tail, hcore, hcoretext⟩ := h.wellFormed piece hpiece
  obtain ⟨c, t, rfl, hc⟩ := hcore.visible
  rw [Statement.isBlank, ← htext, hcoretext, allBlank, List.cons_append, List.all_cons, hc,
    Bool.false_and]

/-- With a shared line a step splits the first one. -/
lemma reorderImport_of_shared (hb : buffer.Unbroken) (hfound : statements buffer = .ok found)
    (hshared : 0 < sharedPairs found) :
    ∃ first second, sharingPair found = some (first, second) ∧
      ∀ v : Violation, 1 ≤ v.line → v.line ≤ buffer.length →
        ∃ buffer' found', Fix.reorderImport v buffer = .ok buffer' ∧
          SplitAt second.start.line buffer buffer' found found' := by
  rcases sharingPair_cases found with ⟨-, hnone⟩ | ⟨-, x, first, second, y, hpair, hsome, hshare⟩
  · omega
  · obtain ⟨found', hsplit⟩ := splitAt_of_shares hb hfound hpair hshare
    refine ⟨first, second, hsome, fun v hline hle => ⟨_, found', ?_, hsplit⟩⟩
    have hlt : v.lineIndex < buffer.length := by
      rw [Violation.lineIndex]
      omega
    refine onStatements_eq_ok_iff.mpr ⟨⟨hline, hlt⟩, found, hfound, ?_⟩
    simp only [hsome]

/-- Without shared lines a step moves the import on the reported line, if there is an import right
in front of it. -/
lemma reorderImport_of_apart (hb : buffer.Unbroken) (hfound : statements buffer = .ok found)
    (hapart : sharedPairs found = 0) (hline : 1 ≤ v.line) (hle : v.line ≤ buffer.length) :
    (∀ x previous s y, Behind found v.lineIndex x previous s y →
        Fix.reorderImport v buffer = .ok (buffer.moveBefore s previous)) ∧
      ((∀ x previous s y, ¬ Behind found v.lineIndex x previous s y) →
        Fix.reorderImport v buffer = .ok buffer) := by
  obtain ⟨pieces, hreads, rfl⟩ := (statements_iff_reads hb found).mp hfound
  have hmovable : ∀ s previous,
      movable (Piece.placed buffer.lastPosition ⟨0, 0⟩ pieces) v.lineIndex = some (s, previous) ↔
        ∃ x y, Behind _ v.lineIndex x previous s y := fun s previous =>
    movable_eq_some_iff (hreads.pairwise_lines hapart) (hreads.isBlank_placed _ _)
  have hrange : 1 ≤ v.line ∧ v.lineIndex < buffer.length :=
    ⟨hline, by rw [Violation.lineIndex]; omega⟩
  rcases sharingPair_cases (Piece.placed buffer.lastPosition ⟨0, 0⟩ pieces) with
    ⟨hnone, -⟩ | ⟨hshared, -⟩
  · constructor
    · intro x previous s y h
      refine onStatements_eq_ok_iff.mpr ⟨hrange, _, hfound, ?_⟩
      simp only [hnone, (hmovable s previous).mpr ⟨x, y, h⟩]
    · intro hno
      refine onStatements_eq_ok_iff.mpr ⟨hrange, _, hfound, ?_⟩
      cases hmove : movable (Piece.placed buffer.lastPosition ⟨0, 0⟩ pieces) v.lineIndex with
      | none => simp only [hnone]
      | some moved =>
          obtain ⟨x, y, h⟩ := (hmovable moved.1 moved.2).mp hmove
          exact absurd h (hno x moved.2 moved.1 y)
  · omega

/-- One step towards sorted imports keeps the buffer readable and loses no line. -/
lemma reorderImport_keeps {buffer' : Buffer} (hb : buffer.Unbroken)
    (h : Fix.reorderImport v buffer = .ok buffer') :
    buffer'.Unbroken ∧ buffer'.Readable ∧ buffer.length ≤ buffer'.length := by
  obtain ⟨⟨hline, hlt⟩, found, hfound, -⟩ := onStatements_eq_ok_iff.mp h
  have hle : v.line ≤ buffer.length := by
    rw [Violation.lineIndex] at hlt
    omega
  by_cases hapart : sharedPairs found = 0
  · obtain ⟨hmove, hstay⟩ := reorderImport_of_apart hb hfound hapart hline hle
    by_cases hno : ∀ x previous s y, ¬ Behind found v.lineIndex x previous s y
    · obtain rfl : buffer = buffer' := Except.ok.inj ((hstay hno).symm.trans h)
      exact ⟨hb, ⟨found, hfound⟩, Nat.le_refl _⟩
    · simp only [not_forall, not_not] at hno
      obtain ⟨x, previous, s, y, hbehind⟩ := hno
      obtain rfl := Except.ok.inj ((hmove x previous s y hbehind).symm.trans h)
      obtain ⟨hperm, found', hfound', -⟩ := swap_of_behind hb hfound hapart hbehind
      exact ⟨hb.of_mem Buffer.mem_moveBefore, ⟨found', hfound'⟩, hperm.length_eq.ge⟩
  · obtain ⟨first, second, -, hstep⟩ :=
      reorderImport_of_shared hb hfound (Nat.pos_of_ne_zero hapart)
    obtain ⟨lines, found', hlines, hsplit⟩ := hstep v hline hle
    obtain rfl : lines = buffer' := Except.ok.inj (hlines.symm.trans h)
    exact ⟨hsplit.unbroken, ⟨found', hsplit.statements⟩, by rw [hsplit.length]; omega⟩

/-! ### Imports that change places -/

/-- Where no two statements share a line, a step on an import with an import right in front of it
rearranges the lines so that the two are swapped and nothing else changes for the statements. Any
other reported line leaves the buffer as it is. -/
theorem reorderImport_swaps_imports (hb : buffer.Unbroken) (hfound : statements buffer = .ok found)
    (hapart : onSeparateLines found = true) (hline : 1 ≤ v.line) (hle : v.line ≤ buffer.length) :
    (∀ x previous s y, Behind found v.lineIndex x previous s y →
        ∃ buffer' found', Fix.reorderImport v buffer = .ok buffer' ∧ buffer'.Perm buffer ∧
          statements buffer' = .ok found' ∧
          (found'.map fun t => (t.text, t.isImport)) =
            (x ++ s :: previous :: y).map fun t => (t.text, t.isImport)) ∧
      ((∀ x previous s y, ¬ Behind found v.lineIndex x previous s y) →
        Fix.reorderImport v buffer = .ok buffer) := by
  rw [onSeparateLines_iff] at hapart
  obtain ⟨hmove, hstay⟩ := reorderImport_of_apart hb hfound hapart hline hle
  refine ⟨fun x previous s y h => ?_, hstay⟩
  obtain ⟨hperm, found', hfound', htexts⟩ := swap_of_behind hb hfound hapart h
  refine ⟨_, found', hmove x previous s y h, hperm, hfound', ?_⟩
  rw [map_text_isImport, map_text_isImport, htexts]

/-- A multi-line import with a comment behind it moves across a gap. The line of the body is not
that of an import. -/
theorem reorderImport_swaps_imports_multi_line :
    (∃ buffer' found', Fix.reorderImport ⟨4, 5, "import.ordering", ""⟩
        ["import b.B;".toList, [], "import a.".toList, "    A; // a".toList,
          "class X { int i; }".toList] = .ok buffer' ∧
      statements buffer' = .ok found' ∧
      (found'.map fun t => (t.text, t.isImport)) =
        [("import a.\n    A; // a".toList, true), ("import b.B;".toList, true),
          ("class X { int i; }".toList, false)]) ∧
      Fix.reorderImport ⟨5, 1, "import.ordering", ""⟩
        ["import b.B;".toList, [], "import a.".toList, "    A; // a".toList,
          "class X { int i; }".toList] =
        .ok ["import b.B;".toList, [], "import a.".toList, "    A; // a".toList,
          "class X { int i; }".toList] := by
  have hfound : statements ["import b.B;".toList, [], "import a.".toList, "    A; // a".toList,
        "class X { int i; }".toList] =
      .ok [⟨⟨0, 0⟩, ⟨0, 10⟩, "import b.B;".toList⟩,
        ⟨⟨2, 0⟩, ⟨3, 10⟩, "import a.\n    A; // a".toList⟩,
        ⟨⟨4, 0⟩, ⟨4, 17⟩, "class X { int i; }".toList⟩] := by cbv
  have hb : Buffer.Unbroken ["import b.B;".toList, [], "import a.".toList, "    A; // a".toList,
      "class X { int i; }".toList] := by simp [Buffer.Unbroken]
  obtain ⟨hmove, -⟩ := reorderImport_swaps_imports (v := ⟨4, 5, "import.ordering", ""⟩) hb hfound
    (by decide) (by decide) (by decide)
  obtain ⟨-, hstay⟩ := reorderImport_swaps_imports (v := ⟨5, 1, "import.ordering", ""⟩) hb hfound
    (by decide) (by decide) (by decide)
  obtain ⟨buffer', found', hfix, -, hfound', htexts⟩ :=
    hmove [] _ _ _ ⟨rfl, by decide, by decide, by decide⟩
  refine ⟨⟨buffer', found', hfix, hfound', htexts.trans (by decide)⟩, hstay ?_⟩
  intro x previous s y h
  have hmem : s ∈ x ++ previous :: s :: y := by simp
  rw [← h.eq] at hmem
  simp only [List.mem_cons, List.not_mem_nil, or_false] at hmem
  rcases hmem with rfl | rfl | rfl
  · exact absurd h.spansLine (by decide)
  · exact absurd h.spansLine (by decide)
  · exact absurd h.isImport (by decide)

/-! ### Lines that are split -/

/-- As long as there are shared lines, each step takes one of the pairs apart. -/
lemma exists_foldlM_reorderImport {violations : List Violation} (hb : buffer.Unbroken)
    (hfound : statements buffer = .ok found) (hlength : violations.length ≤ sharedPairs found)
    (hrange : ∀ i (hi : i < violations.length),
      1 ≤ violations[i].line ∧ violations[i].line ≤ buffer.length + i) :
    ∃ buffer' found', violations.foldlM (fun lines v => Fix.reorderImport v lines) buffer =
        .ok buffer' ∧
      statements buffer' = .ok found' ∧
      sharedPairs found' + violations.length = sharedPairs found := by
  induction violations generalizing buffer found with
  | nil => exact ⟨buffer, found, rfl, hfound, rfl⟩
  | cons v violations ih =>
      rw [List.length_cons] at hlength
      obtain ⟨first, second, -, hstep⟩ := reorderImport_of_shared hb hfound (by omega)
      obtain ⟨hline, hle⟩ := hrange 0 (by simp)
      obtain ⟨lines, found', hfix, hsplit⟩ := hstep v hline hle
      have hshared := hsplit.shared
      obtain ⟨buffer', found'', hrun, hfound'', hcount⟩ :=
        ih hsplit.unbroken hsplit.statements (by omega) fun i hi => by
          rw [hsplit.length, Nat.add_assoc, Nat.add_comm 1 i]
          exact hrange (i + 1) (Nat.succ_lt_succ hi)
      refine ⟨buffer', found'', ?_, hfound'', by rw [List.length_cons]; omega⟩
      rw [List.foldlM_cons, hfix]
      exact hrun

/-- Where statements share lines, a step for any reported line splits the first shared one. The
buffer has one more line and the same visible characters, the same statements are imports, their
texts have lost at most blanks at the end of the split line, and one pair less shares a line. So
exactly as many steps as there are such pairs put the statements on lines of their own. -/
theorem reorderImport_splits_shared_lines (hb : buffer.Unbroken)
    (hfound : statements buffer = .ok found) (hshared : 0 < sharedPairs found) :
    (∃ first second, sharingPair found = some (first, second) ∧
      ∀ v : Violation, 1 ≤ v.line → v.line ≤ buffer.length →
        ∃ buffer' found', Fix.reorderImport v buffer = .ok buffer' ∧
          SplitAt second.start.line buffer buffer' found found') ∧
      ∀ violations : List Violation, violations.length ≤ sharedPairs found →
        (∀ i (hi : i < violations.length),
          1 ≤ violations[i].line ∧ violations[i].line ≤ buffer.length + i) →
        ∃ buffer' found', violations.foldlM (fun lines v => Fix.reorderImport v lines) buffer =
            .ok buffer' ∧
          statements buffer' = .ok found' ∧
          (onSeparateLines found' = true ↔ violations.length = sharedPairs found) := by
  refine ⟨reorderImport_of_shared hb hfound hshared, fun violations hlength hrange => ?_⟩
  obtain ⟨buffer', found', hrun, hfound', hcount⟩ :=
    exists_foldlM_reorderImport hb hfound hlength hrange
  refine ⟨buffer', found', hrun, hfound', ?_⟩
  rw [onSeparateLines_iff]
  omega

/-- Two pairs share the first line, of which the end stands in a comment of the body. Two steps
put the statements on lines of their own. -/
theorem reorderImport_splits_shared_lines_crammed :
    (∃ buffer' found', Fix.reorderImport ⟨2, 1, "import.ordering", ""⟩
        ["import b.B; import a.A; class X // x;  ".toList, "{ int i; }".toList] = .ok buffer' ∧
      buffer'.length = 3 ∧
      visible buffer'.flatten = "importb.B;importa.A;classX//x;{inti;}".toList ∧
      statements buffer' = .ok found' ∧
      found'.map Statement.isImport = [true, true, false] ∧ sharedPairs found' = 1) ∧
      ∃ buffer' found', [⟨2, 1, "import.ordering", ""⟩, ⟨3, 1, "import.ordering", ""⟩].foldlM
          (fun lines v => Fix.reorderImport v lines)
          ["import b.B; import a.A; class X // x;  ".toList, "{ int i; }".toList] = .ok buffer' ∧
        statements buffer' = .ok found' ∧ onSeparateLines found' = true := by
  have hfound : statements
        ["import b.B; import a.A; class X // x;  ".toList, "{ int i; }".toList] =
      .ok [⟨⟨0, 0⟩, ⟨0, 10⟩, "import b.B;".toList⟩, ⟨⟨0, 12⟩, ⟨0, 22⟩, "import a.A;".toList⟩,
        ⟨⟨0, 24⟩, ⟨1, 9⟩, "class X // x;  \n{ int i; }".toList⟩] := by cbv
  obtain ⟨⟨first, second, -, hstep⟩, hrun⟩ := reorderImport_splits_shared_lines
    (by simp [Buffer.Unbroken]) hfound (by decide)
  obtain ⟨buffer', found', hfix, hsplit⟩ := hstep ⟨2, 1, "import.ordering", ""⟩ (by decide)
    (by decide)
  refine ⟨⟨buffer', found', hfix, hsplit.length, hsplit.visible.trans (by decide),
    hsplit.statements, hsplit.flags.trans (by decide), ?_⟩, ?_⟩
  · exact Nat.succ.inj (hsplit.shared.trans (by decide))
  · obtain ⟨lines, found'', hlines, hfound'', hseparate⟩ :=
      hrun [⟨2, 1, "import.ordering", ""⟩, ⟨3, 1, "import.ordering", ""⟩] (by decide) (by decide)
    exact ⟨lines, found'', hlines, hfound'', hseparate.mpr (by decide)⟩

end LintRepair
