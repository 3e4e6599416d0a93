import LintRepair.Proofs.Import.Cut
import LintRepair.Proofs.Patch.Run

/-!
Removing imports.

Reported imports are cut out from the last one to the first one. Each cut leaves the text in front
of it alone, so that the imports that are still waiting are found where they were reported, and
what is left in the end is read as the other statements.

* `removable_eq_some`, `removeImport_eq`: a violation in an import removes that import.
* `Removing`: what holds between two removals; `Removing.step` for one removal.
* `patchLines_removes_imports`: a run over reported imports leaves the other statements.
-/

namespace LintRepair

/-- The keys of imports that should not be there. -/
def Rule.removalKeys : List String := ["import.unused", "import.duplicate", "import.lang"]

lemma Rule.exists_of_mem_removalKeys {key : String} (h : key ∈ Rule.removalKeys) :
    ∃ redundancy, Rule.ofKey? key = some (.removeImport redundancy) := by
  simp only [removalKeys, List.mem_cons, List.not_mem_nil, or_false] at h
  rcases h with rfl | rfl | rfl
  · exact ⟨.unused, by decide⟩
  · exact ⟨.duplicate, by decide⟩
  · exact ⟨.lang, by decide⟩

/-! ### The import that is removed -/

/-- A position in an import picks that import. -/
lemma removable_eq_some {found : List Statement}
    (hfound : found.Pairwise fun s t => s.stop < t.start) {s : Statement} (hs : s ∈ found)
    (himport : s.isImport = true) {p : Position} (hcovers : s.covers p = true) :
    removable found p = some s := by
  have hspans : s.spansLine p.line = true := by
    obtain ⟨hstart, hstop⟩ := Statement.covers_iff.mp hcovers
    rw [Position.le_def] at hstart hstop
    rw [Statement.spansLine, Bool.and_eq_true, decide_eq_true_iff, decide_eq_true_iff]
    omega
  have hmem : s ∈ found.filter fun s => s.isImport && s.spansLine p.line :=
    List.mem_filter.mpr ⟨hs, by rw [himport, hspans]; rfl⟩
  obtain ⟨t, ht⟩ : ∃ t, (found.filter fun s => s.isImport && s.spansLine p.line).find?
      (·.covers p) = some t :=
    Option.isSome_iff_exists.mp (List.find?_isSome.mpr ⟨s, hmem, hcovers⟩)
  have hts : t = s :=
    covers_unique hfound (List.mem_of_mem_filter (List.mem_of_find?_eq_some ht)) hs
      (by simpa using List.find?_some ht) hcovers
  simp only [removable, ht, hts, Option.some_or]

/-- A statement ends on a line of its buffer. -/
lemma stop_line_lt {buffer : Buffer} (hb : buffer.Unbroken) {front back : List Piece}
    {piece : Piece} (h : buffer.text = Piece.flat (front ++ piece :: back))
    (hne : piece.text ≠ []) :
    (piece.place ((⟨0, 0⟩ : Position).advance (Piece.flat front))).stop.line < buffer.length := by
  rw [Piece.place, ← Position.advance_append, ← Position.advance_append]
  refine Buffer.line_lt_of_textFrom_ne_nil ?_
  rw [Buffer.textFrom_advance hb (r := piece.text.getLast hne :: Piece.flat back)]
  · exact List.cons_ne_nil _ _
  · rw [Buffer.textFrom_zero, h, Piece.flat_append, Piece.flat_cons]
    conv_lhs => rw [← List.dropLast_append_getLast hne]
    simp

/-- A violation in an import removes that import. -/
lemma removeImport_eq {buffer : Buffer} (hb : buffer.Unbroken) {front back : List Piece}
    {piece : Piece} (h : Reads false buffer.text (front ++ piece :: back)) (hback : back ≠ [])
    (himport : declaresImport piece.text = true) {s : Statement}
    (hs : s = piece.place ((⟨0, 0⟩ : Position).advance (Piece.flat front))) {v : Violation}
    (hline : 1 ≤ v.line) (hcovers : s.covers v.position = true) :
    Fix.removeImport v buffer = .ok (buffer.cutStatement s) := by
  have hne : ∀ p ∈ front ++ piece :: back, p.text ≠ [] := fun p hp =>
    (h.wellFormed p hp).text_ne_nil
  have hstop : s.stop.line < buffer.length :=
    hs ▸ stop_line_lt hb h.flat_eq.symm (hne piece (by simp))
  have hlt : v.lineIndex < buffer.length := by
    have hle := (Statement.covers_iff.mp hcovers).2
    rw [Position.le_def, Violation.position] at hle
    simp only at hle
    omega
  have hfound := (statements_iff_reads hb _).mpr ⟨_, h, rfl⟩
  have hmem : s ∈ Piece.placed buffer.lastPosition ⟨0, 0⟩ (front ++ piece :: back) := by
    rw [Piece.placed_append _ _ _ (List.cons_ne_nil _ _), Piece.placed_cons _ _ _ hback, hs]
    simp
  have hremovable := removable_eq_some (Piece.pairwise_placed buffer.lastPosition ⟨0, 0⟩ hne) hmem
    (by rw [Statement.isImport_eq, hs]; exact himport) hcovers
  refine onStatements_eq_ok_iff.mpr ⟨⟨hline, hlt⟩, _, hfound, ?_⟩
  rw [← Violation.position, hremovable]

/-! ### One removal after the other -/

/-- Whether none of the violations points into the statement. -/
def Statement.spared (violations : List Violation) (s : Statement) : Bool :=
  violations.all fun v => !s.covers v.position

/-- When the last of the reported statements goes, those in front of it are still to be looked at,
and those behind it stay. -/
lemma filter_spared_cons {fore others : List Statement} {s : Statement} {v : Violation}
    {waiting : List Violation} (hbefore : ∀ t ∈ fore, t.stop < s.start)
    (hbehind : ∀ t ∈ others, s.stop < t.start) (hcovers : s.covers v.position = true)
    (hwaiting : ∀ w ∈ waiting, w.position ≤ v.position) :
    (fore ++ s :: others).filter (Statement.spared (v :: waiting)) =
      fore.filter (Statement.spared waiting) ++ others := by
  obtain ⟨hstart, hstop⟩ := Statement.covers_iff.mp hcovers
  have hfore : fore.filter (Statement.spared (v :: waiting)) =
      fore.filter (Statement.spared waiting) := by
    refine List.filter_congr fun t ht => ?_
    simp [Statement.spared, Statement.not_covers_of_lt_start (hbefore t ht) hstart]
  have hothers : others.filter (Statement.spared (v :: waiting)) = others := by
    rw [List.filter_eq_self]
    intro t ht
    rw [Statement.spared, List.all_eq_true]
    intro w hw
    rw [Statement.not_covers_of_lt (hbehind t ht)]
    · rfl
    · rcases List.mem_cons.mp hw with rfl | hw
      · exact hstop
      · exact Position.le_trans (hwaiting w hw) hstop
  rw [List.filter_append, List.filter_cons_of_neg (by simp [Statement.spared, hcovers]), hfore,
    hothers]

/-- What holds between two removals. The pieces of the buffer are those in front, in which the
violations that wait still point at what they were reported for, and those at the back. In the end
the given texts are left. -/
structure Removing (texts : List (List Char)) (waiting : List Violation) (buffer : Buffer)
    (front back : List Piece) : Prop where
  unbroken : buffer.Unbroken
  text : buffer.text = Piece.flat (front ++ back)
  blank : ∀ piece ∈ front ++ back, allBlank piece.gap = true
  reads : (∃ piece ∈ front ++ back, declaresImport piece.text = true) →
    Reads false buffer.text (front ++ back)
  back_ne : back ≠ []
  line : ∀ v ∈ waiting, 1 ≤ v.line
  covered : ∀ v ∈ waiting, ∃ s ∈ Piece.spans ⟨0, 0⟩ front,
    s.isImport = true ∧ s.covers v.position = true
  apart : waiting.Pairwise fun v w => w.position ≤ v.position ∧
    ∀ s ∈ Piece.spans ⟨0, 0⟩ front, ¬ (s.covers v.position = true ∧ s.covers w.position = true)
  texts : ((Piece.spans ⟨0, 0⟩ front).filter (Statement.spared waiting)).map Statement.text ++
    back.map Piece.text = texts

/-- The first of the waiting violations removes the last of the reported imports. -/
lemma Removing.step {texts : List (List Char)} {v : Violation} {waiting : List Violation}
    {buffer : Buffer} {front back : List Piece}
    (h : Removing texts (v :: waiting) buffer front back) :
    ∃ buffer' front' back', Fix.removeImport v buffer = .ok buffer' ∧
      Removing texts waiting buffer' front' back' := by
  obtain ⟨s, hs, himport, hcovers⟩ := h.covered v List.mem_cons_self
  obtain ⟨fore, piece, aft, rfl, hplace⟩ := Piece.exists_of_mem_spans hs
  have himport' : declaresImport piece.text = true := by
    rwa [Statement.isImport_eq, hplace] at himport
  have hreads := h.reads ⟨piece, by simp, himport'⟩
  have hne : ∀ p ∈ (fore ++ piece :: aft) ++ back, p.text ≠ [] := fun p hp =>
    (hreads.wellFormed p hp).text_ne_nil
  -- the statements in front of the removed one and behind it
  have hspans : Piece.spans ⟨0, 0⟩ (fore ++ piece :: aft) =
      Piece.spans ⟨0, 0⟩ fore ++
        s :: Piece.spans (((⟨0, 0⟩ : Position).advance (Piece.flat fore)).advance piece.source)
          aft := by
    rw [Piece.spans_append, Piece.spans, hplace]
  set others := Piece.spans (((⟨0, 0⟩ : Position).advance (Piece.flat fore)).advance piece.source)
    aft with hothers
  have hpairwise := Piece.pairwise_placed buffer.lastPosition ⟨0, 0⟩ hne
  rw [Piece.placed_append _ _ _ h.back_ne, hspans] at hpairwise
  obtain ⟨hbefore, hbehind⟩ : (∀ t ∈ Piece.spans ⟨0, 0⟩ fore, t.stop < s.start) ∧
      ∀ t ∈ others, s.stop < t.start := by
    have hfront := (List.pairwise_append.mp hpairwise).1
    obtain ⟨-, hrest, hcross⟩ := List.pairwise_append.mp hfront
    exact ⟨fun t ht => hcross t ht s (by simp), (List.pairwise_cons.mp hrest).1⟩
  obtain ⟨hfirst, hapart⟩ := List.pairwise_cons.mp h.apart
  -- the cut
  obtain ⟨following, rest, hrest⟩ : ∃ following rest, aft ++ back = following :: rest :=
    List.exists_cons_of_ne_nil (by simp [h.back_ne])
  rw [List.append_assoc, List.cons_append, hrest] at hreads
  obtain ⟨gap, hgap, htext, hagain⟩ := exists_cut h.unbroken hreads himport' hplace
  have hfix := removeImport_eq h.unbroken hreads (List.cons_ne_nil _ _) himport' hplace
    (h.line v List.mem_cons_self) hcovers
  refine ⟨_, fore, ⟨gap, following.text⟩ :: rest, hfix, ⟨h.unbroken.cutStatement _, htext, ?_, ?_,
    List.cons_ne_nil _ _, fun w hw => h.line w (List.mem_cons_of_mem v hw), ?_, ?_, ?_⟩⟩
  · intro p hp
    rcases List.mem_append.mp hp with hp | hp
    · exact (hreads.wellFormed p (by simp [hp])).1
    · rcases List.mem_cons.mp hp with rfl | hp
      · exact hgap
      · exact (hreads.wellFormed p (by simp [hp])).1
  · rintro ⟨p, hp, hyes⟩
    refine hagain ?_
    rcases List.mem_append.mp hp with hp | hp
    · exact ⟨p, by simp [hp], hyes⟩
    · rcases List.mem_cons.mp hp with rfl | hp
      · exact ⟨following, by simp, hyes⟩
      · exact ⟨p, by simp [hp], hyes⟩
  · intro w hw
    obtain ⟨t, ht, htimport, htcovers⟩ := h.covered w (List.mem_cons_of_mem v hw)
    have hold := ht
    rw [hspans] at ht
    rcases List.mem_append.mp ht with ht | ht
    · exact ⟨t, ht, htimport, htcovers⟩
    · rcases List.mem_cons.mp ht with rfl | ht
      · exact absurd ⟨hcovers, htcovers⟩ ((hfirst w hw).2 t hold)
      · have hle := Position.le_trans (hfirst w hw).1 (Statement.covers_iff.mp hcovers).2
        rw [Statement.not_covers_of_lt (hbehind t ht) hle] at htcovers
        simp at htcovers
  · refine hapart.imp fun {v w} hvw => ⟨hvw.1, fun t ht => hvw.2 t ?_⟩
    rw [hspans]
    exact List.mem_append_left _ ht
  · have htexts := h.texts
    rw [hspans, filter_spared_cons hbefore hbehind hcovers fun w hw => (hfirst w hw).1,
      List.map_append, hothers, Piece.map_text_spans, List.append_assoc, ← List.map_append,
      hrest] at htexts
    rw [← htexts]
    simp

/-! ### A run of removals -/

/-- A removal within a run. -/
lemma applyOne_removal {patcher : Patcher} {all : List Violation} {v : Violation}
    (hkey : v.key ∈ Rule.removalKeys) (henabled : patcher.enabled v.key = true)
    (later : List Violation) (state : Patched) :
    patcher.applyOne all v later state =
      (Fix.removeImport v state.lines).map fun lines =>
        { state with lines, applied := state.applied + 1 } := by
  obtain ⟨redundancy, hrule⟩ := Rule.exists_of_mem_removalKeys hkey
  have hruleFor : patcher.ruleFor v.key = some (.removeImport redundancy) := by
    rw [Patcher.ruleFor, henabled, if_pos rfl, hrule]
  exact Patcher.applyOne_of_rule hruleFor rfl

/-- Further down in a file is further on. -/
lemma Violation.position_le {v w : Violation} (hv : 1 ≤ v.line) (hw : 1 ≤ w.line)
    (h : w.line < v.line ∨ w.line = v.line ∧ w.column ≤ v.column) : w.position ≤ v.position := by
  rw [Position.le_def]
  simp only [position, lineIndex, columnIndex]
  omega

lemma Statement.spared_inPatchOrder (violations : List Violation) :
    Statement.spared (Violation.inPatchOrder violations) = Statement.spared violations := by
  funext s
  rw [Bool.eq_iff_iff, spared, spared, List.all_eq_true, List.all_eq_true]
  simp only [Violation.mem_inPatchOrder]

/-- Before the first removal. -/
lemma Removing.start {buffer : Buffer} (hb : buffer.Unbroken) {found : List Statement}
    (hfound : statements buffer = .ok found) {violations : List Violation}
    (hline : ∀ v ∈ violations, 1 ≤ v.line)
    (hcover : ∀ v ∈ violations, ∃ s ∈ found, s.isImport = true ∧ s.covers v.position = true)
    (hdistinct : violations.Pairwise fun v w => ∀ s ∈ found,
      ¬ (s.covers v.position = true ∧ s.covers w.position = true)) :
    ∃ front back, Removing ((found.filter (Statement.spared violations)).map Statement.text)
      (Violation.inPatchOrder violations) buffer front back := by
  obtain ⟨pieces, hreads, rfl⟩ := (statements_iff_reads hb found).mp hfound
  obtain ⟨front, body, rfl, hbody⟩ := hreads.exists_body
  have hpairwise := Piece.pairwise_placed buffer.lastPosition ⟨0, 0⟩
    fun p hp => (hreads.wellFormed p hp).text_ne_nil
  rw [Piece.placed_append _ _ _ (List.cons_ne_nil _ _), Piece.placed] at *
  set last : Statement :=
    { body.place ((⟨0, 0⟩ : Position).advance (Piece.flat front)) with
      stop := buffer.lastPosition } with hlast
  have hlast' : last.isImport = false := by
    rw [Statement.isImport_eq, hlast]
    exact hbody
  have hcover' : ∀ v ∈ violations, ∃ s ∈ Piece.spans ⟨0, 0⟩ front,
      s.isImport = true ∧ s.covers v.position = true := by
    intro v hv
    obtain ⟨s, hs, himport, hcovers⟩ := hcover v hv
    rcases List.mem_append.mp hs with hs | hs
    · exact ⟨s, hs, himport, hcovers⟩
    · rw [List.mem_singleton] at hs
      rw [hs, hlast'] at himport
      simp at himport
  have hspared : Statement.spared violations last = true := by
    rw [Statement.spared, List.all_eq_true]
    intro v hv
    obtain ⟨s, hs, -, hcovers⟩ := hcover' v hv
    have hlt := (List.pairwise_append.mp hpairwise).2.2 s hs last (by simp)
    rw [Statement.not_covers_of_lt hlt (Statement.covers_iff.mp hcovers).2]
    rfl
  refine ⟨front, [body], ⟨hb, hreads.flat_eq.symm, fun p hp => (hreads.wellFormed p hp).1,
    fun _ => hreads, List.cons_ne_nil _ _, fun v hv => hline v (Violation.mem_inPatchOrder.mp hv),
    fun v hv => hcover' v (Violation.mem_inPatchOrder.mp hv), ?_, ?_⟩⟩
  · have hdistinct' : (Violation.inPatchOrder violations).Pairwise fun v w =>
        ∀ s ∈ Piece.spans ⟨0, 0⟩ front ++ [last],
          ¬ (s.covers v.position = true ∧ s.covers w.position = true) :=
      ((Violation.inPatchOrder_perm violations).pairwise_iff
        fun {v w} hvw s hs hboth => hvw s hs hboth.symm).mpr hdistinct
    refine ((Violation.inPatchOrder_pairwise violations).and hdistinct').imp_of_mem ?_
    intro v w hv hw hvw
    refine ⟨Violation.position_le (hline v (Violation.mem_inPatchOrder.mp hv))
      (hline w (Violation.mem_inPatchOrder.mp hw)) (by omega), fun s hs => hvw.2 s ?_⟩
    exact List.mem_append_left _ hs
  · rw [Statement.spared_inPatchOrder, List.filter_append,
      List.filter_cons_of_pos (by simpa using hspared), List.map_append]
    rfl

/-- A run over imports that should not be there succeeds, whatever the order in which they were
reported, and it cuts just these: the visible characters are those of the other statements, and if
an import is left, the other statements are what the buffer is read as. -/
theorem patchLines_removes_imports (patcher : Patcher) (violations : List Violation)
    {buffer : Buffer} (hb : buffer.Unbroken) {found : List Statement}
    (hfound : statements buffer = .ok found) (hkeys : ∀ v ∈ violations, v.key ∈ Rule.removalKeys)
    (henabled : ∀ v ∈ violations, patcher.enabled v.key = true)
    (hline : ∀ v ∈ violations, 1 ≤ v.line)
    (hcover : ∀ v ∈ violations, ∃ s ∈ found, s.isImport = true ∧ s.covers v.position = true)
    (hdistinct : violations.Pairwise fun v w => ∀ s ∈ found,
      ¬ (s.covers v.position = true ∧ s.covers w.position = true)) :
    ∃ patched, patcher.patchLines violations buffer = .ok patched ∧
      patched.applied = violations.length ∧ patched.gated = 0 ∧ patched.unresolved = [] ∧
      visible patched.lines.flatten =
        visible ((found.filter (Statement.spared violations)).map Statement.text).flatten ∧
      ((∃ s ∈ found.filter (Statement.spared violations), s.isImport = true) →
        ∃ found', statements patched.lines = .ok found' ∧
          (found'.map fun s => (s.text, s.isImport)) =
            (found.filter (Statement.spared violations)).map fun s => (s.text, s.isImport)) := by
  set kept := found.filter (Statement.spared violations) with hkept
  obtain ⟨front, back, hstart⟩ := Removing.start hb hfound hline hcover hdistinct
  -- what a run hands on: the removals made so far, and the violations that are still to come
  let P : List Violation → Patched → Prop := fun waiting state =>
    (∃ front back, Removing (kept.map Statement.text) waiting state.lines front back) ∧
      (∀ v ∈ waiting, v ∈ violations) ∧ state.applied + waiting.length = violations.length ∧
      state.gated = 0 ∧ state.unresolved = []
  have hfirst : P (Violation.inPatchOrder violations) ⟨buffer, 0, 0, []⟩ :=
    ⟨⟨front, back, hstart⟩, fun v hv => Violation.mem_inPatchOrder.mp hv, by simp, rfl, rfl⟩
  have hstep : ∀ v later state, P (v :: later) state → ∃ state',
      patcher.applyOne (Violation.inPatchOrder violations) v later state = .ok state' ∧
        P later state' := by
    rintro v later state ⟨⟨front, back, hremoving⟩, hmem, hcount, hgated, hunresolved⟩
    have hv := hmem v List.mem_cons_self
    obtain ⟨lines, front', back', hfix, hremoving'⟩ := hremoving.step
    refine ⟨{ state with lines, applied := state.applied + 1 }, ?_, ⟨front', back', hremoving'⟩,
      fun w hw => hmem w (List.mem_cons_of_mem v hw), ?_, hgated, hunresolved⟩
    · rw [applyOne_removal (hkeys v hv) (henabled v hv), hfix]
      rfl
    · simp only [List.length_cons] at hcount
      simp only
      omega
  obtain ⟨patched, hpatched, ⟨front', back', hend⟩, -, happlied, hgated, hunresolved⟩ :=
    Patcher.applyAll_of_step hstep hfirst
  have htexts : (front' ++ back').map Piece.text = kept.map Statement.text := by
    have hall : (Piece.spans ⟨0, 0⟩ front').filter (Statement.spared []) =
        Piece.spans ⟨0, 0⟩ front' := List.filter_eq_self.mpr fun s _ => rfl
    rw [← hend.texts, hall, Piece.map_text_spans, List.map_append]
  refine ⟨patched, hpatched, by simpa using happlied, hgated, hunresolved, ?_, ?_⟩
  · rw [← Buffer.visible_text, hend.text, visible_flat hend.blank, htexts]
  · rintro ⟨s, hs, himport⟩
    obtain ⟨piece, hpiece, htext⟩ : ∃ piece ∈ front' ++ back', piece.text = s.text := by
      have hmem : s.text ∈ (front' ++ back').map Piece.text :=
        htexts ▸ List.mem_map_of_mem hs
      exact List.mem_map.mp hmem
    have hreads := hend.reads ⟨piece, hpiece, by rw [htext, ← Statement.isImport_eq, himport]⟩
    refine ⟨_, (statements_iff_reads hend.unbroken _).mpr ⟨_, hreads, rfl⟩, ?_⟩
    rw [map_text_isImport, map_text_isImport, Piece.map_text_placed, htexts]

/-- Two of three imports removed, one of them from a line that it shares. -/
theorem patchLines_removes_two_imports :
    ∃ patched, (Patcher.complete 4).patchLines
        [⟨1, 1, "import.unused", ""⟩, ⟨2, 14, "import.lang", ""⟩]
        ["import a.A;".toList, "import b.B; import c.C;".toList, "class X;".toList] = .ok patched ∧
      patched.applied = 2 ∧ visible patched.lines.flatten = "importb.B;classX;".toList := by
  have hfound : statements
      ["import a.A;".toList, "import b.B; import c.C;".toList, "class X;".toList] =
      .ok [⟨⟨0, 0⟩, ⟨0, 10⟩, "import a.A;".toList⟩, ⟨⟨1, 0⟩, ⟨1, 10⟩, "import b.B;".toList⟩,
        ⟨⟨1, 12⟩, ⟨1, 22⟩, "import c.C;".toList⟩, ⟨⟨2, 0⟩, ⟨2, 7⟩, "class X;".toList⟩] := by cbv
  obtain ⟨patched, hpatched, happlied, -, -, hvisible, -⟩ :=
    patchLines_removes_imports (Patcher.complete 4)
      [⟨1, 1, "import.unused", ""⟩, ⟨2, 14, "import.lang", ""⟩] (by simp [Buffer.Unbroken]) hfound
      (by decide) (by decide) (by decide) (by decide) (by decide)
  exact ⟨patched, hpatched, happlied, hvisible.trans (by decide)⟩

end LintRepair
