import LintRepair.Proofs.Import.Neighbours

/-!
An import moved in front of another one.

Where no two statements share a line, an import takes whole lines with it when it moves, and so do
the blanks and comments around it. The text is then read as the same statements, with the two
imports swapped.

* `above_take`, `above_between`: the lines of a buffer between two line starts.
* `moveBefore_perm`, `text_moveBefore`: the lines and the text of a buffer in which two blocks of
  lines have changed places.
* `Reads.swap`: two imports with line feeds around them change places.
* `exists_moveBefore`: the lines of two imports, as texts; `swap_of_behind` for statements.
-/

namespace LintRepair

/-! ### Blocks of lines -/

/-- A text is cut behind its last line feed. -/
lemma exists_lastLine {g : List Char} (h : '\n' ∈ g) :
    ∃ u head, g = u ++ '\n' :: head ∧ '\n' ∉ head := by
  obtain ⟨x, y, hxy, hx⟩ := List.eq_append_cons_of_mem (List.mem_reverse.mpr h)
  refine ⟨y.reverse, x.reverse, ?_, by simpa using hx⟩
  rw [← List.reverse_reverse g, hxy]
  simp

namespace Buffer

variable {buffer : Buffer} {x y z : List Char}

/-- The lines of a text up to a line start. -/
lemma above_take (hb : buffer.Unbroken) (hne : buffer ≠ []) (h : buffer.text = x ++ y)
    (hx : x = [] ∨ ∃ x', x = x' ++ ['\n']) :
    above (buffer.take ((⟨0, 0⟩ : Position).advance x).line) = x ∧
      above (buffer.drop ((⟨0, 0⟩ : Position).advance x).line) = y ++ ['\n'] ∧
      ((⟨0, 0⟩ : Position).advance x).line < buffer.length := by
  obtain ⟨upper, l, lower, rfl, hline, -, hx'⟩ := locate hb hne h
  have hl : '\n' ∉ l := hb l (by simp)
  set column := ((⟨0, 0⟩ : Position).advance x).column
  have hhead : l.take column = [] := by
    rcases List.eq_nil_or_concat (l.take column) with hnil | ⟨w, c, hw⟩
    · exact hnil
    · -- the head of the line would end with a line feed
      have hc : c ≠ '\n' := by
        rintro rfl
        have hmem : '\n' ∈ l.take column := by rw [hw]; simp
        exact hl (List.mem_of_mem_take hmem)
      rw [hw] at hx'
      rcases hx with rfl | ⟨x', rfl⟩
      · simp at hx'
      · have hlast := congrArg List.getLast? hx'
        simp only [List.concat_eq_append, List.getLast?_append, List.getLast?_singleton,
          Option.some_or, Option.some.injEq] at hlast
        exact absurd hlast.symm hc
  rw [hhead, List.append_nil] at hx'
  have hy : text (l :: lower) = y := by
    rw [text_append upper (List.cons_ne_nil _ _), hx', List.append_cancel_left_eq] at h
    exact h
  rw [hline, List.take_left, List.drop_left, above_eq (List.cons_ne_nil _ _), hy]
  refine ⟨hx'.symm, rfl, ?_⟩
  simp

/-- The lines of a text between two line starts. -/
lemma above_between (hb : buffer.Unbroken) (hne : buffer ≠ []) (h : buffer.text = x ++ (z ++ y))
    (hx : x = [] ∨ ∃ x', x = x' ++ ['\n']) (hz : ∃ z', z = z' ++ ['\n']) :
    ((⟨0, 0⟩ : Position).advance x).line ≤ ((⟨0, 0⟩ : Position).advance (x ++ z)).line ∧
      above ((buffer.drop ((⟨0, 0⟩ : Position).advance x).line).take
        (((⟨0, 0⟩ : Position).advance (x ++ z)).line - ((⟨0, 0⟩ : Position).advance x).line)) =
          z := by
  have hxz : ∃ w, x ++ z = w ++ ['\n'] := by
    obtain ⟨z', rfl⟩ := hz
    exact ⟨x ++ z', by rw [List.append_assoc]⟩
  obtain ⟨hfirst, -, -⟩ := above_take hb hne h hx
  obtain ⟨hsecond, -, -⟩ := above_take hb hne (by rw [h, List.append_assoc]) (Or.inr hxz)
  have hle : ((⟨0, 0⟩ : Position).advance x).line ≤
      ((⟨0, 0⟩ : Position).advance (x ++ z)).line := by
    rw [Position.advance_append, Position.line_advance _ z]
    omega
  refine ⟨hle, ?_⟩
  set m := ((⟨0, 0⟩ : Position).advance x).line
  set n := ((⟨0, 0⟩ : Position).advance (x ++ z)).line
  have hsplit : buffer.take n = buffer.take m ++ (buffer.drop m).take (n - m) := by
    rw [← List.take_add, Nat.add_sub_cancel' hle]
  rwa [hsplit, above_append, hfirst, List.append_cancel_left_eq] at hsecond

/-- Lines that move are neither lost nor doubled. -/
lemma moveBefore_perm {s previous : Statement} (hle : previous.start.line ≤ s.start.line)
    (hle' : s.start.line ≤ s.stop.line + 1) : (buffer.moveBefore s previous).Perm buffer := by
  set target := previous.start.line
  have hmiddle : (buffer.drop target).take (s.start.line - target) ++ buffer.drop s.start.line =
      buffer.drop target := by
    rw [← Nat.add_sub_cancel' hle, ← List.drop_drop, Nat.add_sub_cancel_left,
      List.take_append_drop]
  have hlower : (buffer.drop s.start.line).take (s.stop.line + 1 - s.start.line) ++
      buffer.drop (s.stop.line + 1) = buffer.drop s.start.line := by
    conv in buffer.drop (s.stop.line + 1) => rw [← Nat.add_sub_cancel' hle', ← List.drop_drop]
    rw [List.take_append_drop]
  calc buffer.moveBefore s previous
      = buffer.take target ++
          ((buffer.drop s.start.line).take (s.stop.line + 1 - s.start.line) ++
            (buffer.drop target).take (s.start.line - target)) ++
          buffer.drop (s.stop.line + 1) := by
        rw [moveBefore, List.append_assoc (buffer.take _)]
    List.Perm _ (buffer.take target ++
          ((buffer.drop target).take (s.start.line - target) ++
            (buffer.drop s.start.line).take (s.stop.line + 1 - s.start.line)) ++
          buffer.drop (s.stop.line + 1)) := (List.perm_append_comm.append_left _).append_right _
    _ = buffer := by
        rw [List.append_assoc, List.append_assoc, hlower, hmiddle, List.take_append_drop]

/-- The text of a buffer in which the lines of two statements change places. -/
lemma text_moveBefore {first second : List Char} {s previous : Statement}
    (hb : buffer.Unbroken) (hne : buffer ≠ []) (h : buffer.text = x ++ (first ++ (second ++ z)))
    (hx : x = [] ∨ ∃ x', x = x' ++ ['\n']) (hfirst : ∃ w, first = w ++ ['\n'])
    (hsecond : ∃ w, second = w ++ ['\n'])
    (htarget : previous.start.line = ((⟨0, 0⟩ : Position).advance x).line)
    (hstart : s.start.line = ((⟨0, 0⟩ : Position).advance (x ++ first)).line)
    (hstop : s.stop.line + 1 = ((⟨0, 0⟩ : Position).advance (x ++ first ++ second)).line) :
    (buffer.moveBefore s previous).text = x ++ second ++ first ++ z ∧
      (buffer.moveBefore s previous).Perm buffer := by
  have hmiddle : ∃ w, x ++ first = w ++ ['\n'] := by
    obtain ⟨w, rfl⟩ := hfirst
    exact ⟨x ++ w, by rw [List.append_assoc]⟩
  have hend : ∃ w, x ++ first ++ second = w ++ ['\n'] := by
    obtain ⟨w, rfl⟩ := hsecond
    exact ⟨x ++ first ++ w, by simp⟩
  obtain ⟨habove, -, -⟩ := above_take hb hne h hx
  obtain ⟨hle, hlines⟩ := above_between hb hne h hx hfirst
  obtain ⟨hle', hlines'⟩ := above_between hb hne
    (show buffer.text = (x ++ first) ++ (second ++ z) by rw [h, List.append_assoc])
    (Or.inr hmiddle) hsecond
  obtain ⟨-, hbelow, -⟩ := above_take hb hne
    (show buffer.text = (x ++ first ++ second) ++ z by rw [h]; simp) (Or.inr hend)
  have hperm : (buffer.moveBefore s previous).Perm buffer :=
    moveBefore_perm (by rw [htarget, hstart]; exact hle) (by rw [hstart, hstop]; exact hle')
  have hmoved : above (buffer.moveBefore s previous) = x ++ second ++ first ++ (z ++ ['\n']) := by
    rw [moveBefore, above_append, above_append, above_append, htarget, hstart, hstop, habove,
      hlines, hlines', hbelow]
  refine ⟨?_, hperm⟩
  rw [above_eq fun hnil => hne (hnil ▸ hperm.symm).eq_nil, ← List.append_assoc] at hmoved
  exact List.append_cancel_right hmoved

end Buffer

/-! ### Imports that change places -/

/-- Two imports with line feeds behind them change places. What stands in front of a line feed and
what stands behind it then belongs to other gaps. -/
lemma Reads.swap {afterImport : Bool} {x lead head u head' k k' a b c : List Char}
    {rest : List Piece}
    (h : Reads afterImport x
      (⟨lead ++ head, a⟩ :: ⟨u ++ '\n' :: head', b⟩ :: ⟨k ++ '\n' :: k', c⟩ :: rest))
    (ha : declaresImport a = true) (hb : declaresImport b = true) :
    Reads afterImport
      (lead ++ (head' ++ b ++ (k ++ ['\n'])) ++ (head ++ a ++ (u ++ ['\n'])) ++
        (k' ++ (c ++ Piece.flat rest)))
      (⟨lead ++ head', b⟩ :: ⟨k ++ '\n' :: head, a⟩ :: ⟨u ++ '\n' :: k', c⟩ :: rest) := by
  obtain ⟨gap, core, comment, r, hpiece, -, hblank, hcore, -, hleaves, hr⟩ :=
    h.exists_next (List.cons_ne_nil _ _)
  obtain ⟨rfl, rfl⟩ := Piece.mk.inj hpiece
  obtain ⟨gap', core', comment', r', hpiece', rfl, hblank', hcore', -, hleaves', hr'⟩ :=
    hr.exists_next (List.cons_ne_nil _ _)
  obtain ⟨rfl, rfl⟩ := Piece.mk.inj hpiece'
  have hr'_eq := hr'.flat_eq
  have hblank'' := (hr'.wellFormed ⟨k ++ '\n' :: k', c⟩ List.mem_cons_self).1
  rw [Piece.flat_cons] at hr'_eq
  subst hr'_eq
  rw [allBlank_append, Bool.and_eq_true] at hblank
  rw [allBlank_append_newline, Bool.and_eq_true] at hblank' hblank''
  simp only [List.append_assoc, List.cons_append] at hleaves hleaves'
  have hlast : Reads true ((u ++ '\n' :: k') ++ (c ++ Piece.flat rest))
      (⟨u ++ '\n' :: k', c⟩ :: rest) :=
    (hb ▸ hr').regap (by simp [allBlank_append_newline, hblank', hblank'']) (Or.inl rfl)
  rw [declaresImport_append hcore.closed] at ha
  rw [declaresImport_append hcore'.closed] at hb
  have hsecond : Reads true
      ((k ++ '\n' :: head) ++ (core ++ (comment ++ ((u ++ '\n' :: k') ++ (c ++ Piece.flat rest)))))
      (⟨k ++ '\n' :: head, core ++ comment⟩ :: ⟨u ++ '\n' :: k', c⟩ :: rest) := by
    refine .next ?_ hcore (fun _ => ha) ?_ (ha ▸ hlast)
    · rw [allBlank_append_newline, hblank''.1, hblank.2]
      rfl
    · simpa using hleaves.exchange_newline (k' ++ (c ++ Piece.flat rest))
  have hfirst : Reads afterImport
      ((lead ++ head') ++ (core' ++ (comment' ++ ((k ++ '\n' :: head) ++
        (core ++ (comment ++ ((u ++ '\n' :: k') ++ (c ++ Piece.flat rest))))))))
      (⟨lead ++ head', core' ++ comment'⟩ :: ⟨k ++ '\n' :: head, core ++ comment⟩ ::
        ⟨u ++ '\n' :: k', c⟩ :: rest) := by
    refine .next ?_ hcore' (fun _ => hb) ?_ (hb ▸ hsecond)
    · rw [allBlank_append, hblank.1, hblank'.2]
      rfl
    · simpa using hleaves'.exchange_newline
        (head ++ (core ++ (comment ++ (u ++ '\n' :: (k' ++ (c ++ Piece.flat rest))))))
  simpa using hfirst

section Lines

variable {buffer : Buffer} (hb : buffer.Unbroken) {fore rest : List Piece} {a b c : Piece}
  (h : Reads false buffer.text (fore ++ a :: b :: c :: rest))
  (hfore : fore ≠ [] → '\n' ∈ a.gap) (hgap : '\n' ∈ b.gap) (hgap' : '\n' ∈ c.gap)
  {s previous : Statement}
  (hprevious : previous = a.place ((⟨0, 0⟩ : Position).advance (Piece.flat fore)))
  (hs : s = b.place ((⟨0, 0⟩ : Position).advance (Piece.flat (fore ++ [a]))))

include hb h hfore hgap hgap' hprevious hs

/-- The lines of two imports that change places, as texts. -/
lemma exists_moveBefore :
    ∃ lead head u head' k k', a.gap = lead ++ head ∧ b.gap = u ++ '\n' :: head' ∧
      c.gap = k ++ '\n' :: k' ∧ (fore ≠ [] → ∃ lead', lead = lead' ++ ['\n']) ∧
      (buffer.moveBefore s previous).text =
        Piece.flat fore ++ (lead ++ (head' ++ b.text ++ (k ++ ['\n'])) ++
          (head ++ a.text ++ (u ++ ['\n'])) ++ (k' ++ (c.text ++ Piece.flat rest))) ∧
      (buffer.moveBefore s previous).Perm buffer := by
  obtain ⟨lead, head, hgapa, hhead, hlead⟩ : ∃ lead head, a.gap = lead ++ head ∧ '\n' ∉ head ∧
      (fore = [] ∧ lead = [] ∨ ∃ lead', lead = lead' ++ ['\n']) := by
    by_cases hnl : '\n' ∈ a.gap
    · obtain ⟨lead', head, hcut, hhead⟩ := exists_lastLine hnl
      exact ⟨lead' ++ ['\n'], head, by rw [hcut, List.append_cons], hhead, Or.inr ⟨lead', rfl⟩⟩
    · refine ⟨[], a.gap, rfl, hnl, Or.inl ⟨?_, rfl⟩⟩
      by_contra hne
      exact hnl (hfore hne)
  obtain ⟨u, head', hgapb, hhead'⟩ := exists_lastLine hgap
  obtain ⟨k, k', hgapc, hk⟩ := List.eq_append_cons_of_mem hgap'
  set x := Piece.flat fore ++ lead with hx
  set first := head ++ a.text ++ (u ++ ['\n']) with hfirst
  set second := head' ++ b.text ++ (k ++ ['\n']) with hsecond
  set z := k' ++ (c.text ++ Piece.flat rest) with hz
  have hne : buffer ≠ [] := by
    rintro rfl
    exact h.text_ne_nil rfl
  have htext : buffer.text = x ++ (first ++ (second ++ z)) := by
    rw [← h.flat_eq, Piece.flat_append, Piece.flat_cons, Piece.flat_cons, Piece.flat_cons, hgapa,
      hgapb, hgapc]
    simp [hx, hfirst, hsecond, hz]
  have hfront : Piece.flat (fore ++ [a]) = x ++ (head ++ a.text) := by
    rw [Piece.flat_append, Piece.flat_cons, Piece.flat_nil, hgapa]
    simp [hx]
  -- the line starts at which the buffer is cut
  have htarget : previous.start.line = ((⟨0, 0⟩ : Position).advance x).line := by
    rw [← Position.line_advance_append _ x hhead, hx, List.append_assoc, ← hgapa,
      Position.advance_append, hprevious, Piece.place]
  have hstart : s.start.line = ((⟨0, 0⟩ : Position).advance (x ++ first)).line := by
    rw [← Position.line_advance_append _ (x ++ first) hhead', hfirst, hs, Piece.place,
      ← Position.advance_append, hfront, hgapb]
    simp
  have hstop : s.stop.line + 1 = ((⟨0, 0⟩ : Position).advance (x ++ first ++ second)).line := by
    have hreads := h
    rw [List.append_cons] at hreads
    obtain ⟨y, -, hy, -⟩ := hreads.split (List.cons_ne_nil _ _)
    have hboth : x ++ first ++ second = (Piece.flat (fore ++ [a]) ++ b.source ++ k) ++ ['\n'] := by
      rw [hfront, Piece.source, hgapb]
      simp [hfirst, hsecond]
    rw [hboth, Position.advance_append _ _ ['\n'], Position.advance_newline, Position.advance_nil,
      Position.line_advance_append _ _ hk, hs, hy.stop_line (List.cons_ne_nil _ _),
      Position.advance_append]
  have hxstart : x = [] ∨ ∃ x', x = x' ++ ['\n'] := by
    rcases hlead with ⟨rfl, rfl⟩ | ⟨lead', rfl⟩
    · exact Or.inl (by simp [hx])
    · exact Or.inr ⟨Piece.flat fore ++ lead', by rw [hx, List.append_assoc]⟩
  obtain ⟨hmoved, hperm⟩ := Buffer.text_moveBefore hb hne htext hxstart
    ⟨head ++ a.text ++ u, by simp [hfirst]⟩ ⟨head' ++ b.text ++ k, by simp [hsecond]⟩
    htarget hstart hstop
  refine ⟨lead, head, u, head', k, k', hgapa, hgapb, hgapc, fun hne' => ?_, ?_, hperm⟩
  · rcases hlead with ⟨rfl, -⟩ | hlead
    · exact absurd rfl hne'
    · exact hlead
  · rw [hmoved, hx, hfirst, hsecond, hz]
    simp only [List.append_assoc]

/-- Two imports with line feeds around them are read again when their lines change places. -/
lemma reads_moveBefore (ha : declaresImport a.text = true)
    (himport : declaresImport b.text = true) :
    (buffer.moveBefore s previous).Perm buffer ∧
      ∃ pieces, Reads false (buffer.moveBefore s previous).text pieces ∧
        pieces.map Piece.text =
          fore.map Piece.text ++ b.text :: a.text :: (c :: rest).map Piece.text := by
  obtain ⟨lead, head, u, head', k, k', hgapa, hgapb, hgapc, hlead, htext, hperm⟩ :=
    exists_moveBefore hb h hfore hgap hgap' hprevious hs
  obtain ⟨y, -, hy, hexchange⟩ := h.split (List.cons_ne_nil _ _)
  obtain ⟨gapa, a⟩ := a
  obtain ⟨gapb, b⟩ := b
  obtain ⟨gapc, c⟩ := c
  obtain rfl : gapa = lead ++ head := hgapa
  obtain rfl : gapb = u ++ '\n' :: head' := hgapb
  obtain rfl : gapc = k ++ '\n' :: k' := hgapc
  have hagain := hexchange _ _ (fun hne comment hleaves => ?_) (hy.swap ha himport)
  · refine ⟨hperm, _, htext ▸ hagain, ?_⟩
    rw [List.map_append]
    rfl
  · -- the statement in front ends on a line that stays above the moved ones
    obtain ⟨lead', rfl⟩ := hlead hne
    rw [← hy.flat_eq, Piece.flat_cons] at hleaves
    simp only [List.append_assoc, List.cons_append, List.nil_append] at hleaves ⊢
    exact hleaves.exchange_newline _

end Lines

/-- Where no two statements share a line, moving an import in front of the one before it swaps the
two statements. -/
lemma swap_of_behind {buffer : Buffer} (hb : buffer.Unbroken) {found : List Statement}
    (hfound : statements buffer = .ok found) (hapart : sharedPairs found = 0) {index : Nat}
    {x y : List Statement} {previous s : Statement} (h : Behind found index x previous s y) :
    (buffer.moveBefore s previous).Perm buffer ∧
      ∃ found', statements (buffer.moveBefore s previous) = .ok found' ∧
        found'.map Statement.text = (x ++ s :: previous :: y).map Statement.text := by
  obtain ⟨pieces, hreads, rfl⟩ := (statements_iff_reads hb found).mp hfound
  obtain ⟨fore, a, b, rest, rfl, hx, rfl, -, htext, hy, hplace⟩ := Piece.exists_consecutive h.eq
  have hprevious := h.previous_isImport
  have hs := h.isImport
  rw [Statement.isImport_eq] at hs hprevious
  rw [htext] at hs
  have hgap := hreads.newline_mem_gap hapart
  cases rest with
  | nil =>
      -- the last statement is the body, which does not move
      obtain ⟨front, body, hbody, hno⟩ := hreads.exists_body
      have hlast := congrArg List.getLast? hbody
      simp only [List.getLast?_append, List.getLast?_singleton, Option.some_or,
        List.getLast?_cons_cons, Option.some.injEq] at hlast
      rw [hlast, hno] at hs
      simp at hs
  | cons c rest =>
      have hfore : fore ≠ [] → '\n' ∈ a.gap := by
        intro hne
        obtain ⟨d, fore, rfl⟩ := List.exists_cons_of_ne_nil hne
        exact hgap a (by simp)
      obtain ⟨hperm, pieces, hmoved, hpieces⟩ := reads_moveBefore hb hreads hfore
        (hgap b (by cases fore <;> simp)) (hgap c (by cases fore <;> simp)) rfl
        (hplace (List.cons_ne_nil _ _)) hprevious hs
      refine ⟨hperm, _, (statements_iff_reads (hb.of_mem Buffer.mem_moveBefore) _).mpr
        ⟨pieces, hmoved, rfl⟩, ?_⟩
      rw [Piece.map_text_placed, hpieces, ← hy, ← hx, ← htext, List.map_append]
      rfl

end LintRepair
