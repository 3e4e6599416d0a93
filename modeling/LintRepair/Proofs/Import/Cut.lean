import LintRepair.Proofs.Buffer.Characters
import LintRepair.Proofs.Line.Reported
import LintRepair.Proofs.Statement.Pieces

/-!
Cutting a statement out of a buffer.

The text around the statement is joined so that no visible character is touched: what goes with the
statement is blanks on one side of it. Where an import was cut, the text is still read as before,
as long as an import is left.

* `Unbroken.cutStatement`, `cutStatement_eq`, `text_cutStatement`: the lines and the text that a cut
  leaves.
* `exists_cut`: the pieces that a cut leaves are the other ones, and they are read again.
-/

namespace LintRepair

/-! ### The text that a cut leaves -/

namespace Buffer

/-- A cut brings no line feed into a line. -/
lemma Unbroken.cutStatement {buffer : Buffer} (hb : buffer.Unbroken) (s : Statement) :
    (buffer.cutStatement s).Unbroken :=
  hb.of_mem mem_cutStatement

/-- The lines that a cut leaves: those around the statement, and what its first and its last line
have besides it. -/
lemma cutStatement_eq {buffer : Buffer} (hb : buffer.Unbroken) {x w r : List Char} {c : Char}
    (h : buffer.text = x ++ (w ++ c :: r)) (hc : c ≠ '\n') {s : Statement}
    (hstart : s.start = (⟨0, 0⟩ : Position).advance x)
    (hstop : s.stop = (⟨0, 0⟩ : Position).advance (x ++ w)) :
    ∃ upper head tail lower, x = above upper ++ head ∧ r = tail ++ below lower ∧ '\n' ∉ head ∧
      buffer.cutStatement s =
        let joined := if allBlank head then head ++ trimStart tail else trimEnd head ++ tail
        upper ++ (if allBlank joined then [] else [joined]) ++ lower := by
  have hne : buffer ≠ [] := by
    rintro rfl
    simp [text] at h
  obtain ⟨upper, first, lower₁, hfirst, hline₁, -, hx⟩ := locate hb hne h
  obtain ⟨upper₂, last, lower, hlast, hline₂, -, hxw⟩ :=
    locate hb hne (x := x ++ w) (r := c :: r) (by rw [h, List.append_assoc])
  rw [← hstart] at hline₁ hx
  rw [← hstop] at hline₂ hxw
  -- past the last character the statement leaves the rest of its last line
  have hrest : last.drop s.stop.column ++ below lower = c :: r := by
    have htext := h
    rw [hlast, text_split, ← List.append_assoc x, hxw, List.append_assoc,
      List.append_cancel_left_eq] at htext
    conv_lhs at htext => rw [← List.take_append_drop s.stop.column last]
    rw [List.append_assoc, List.append_cancel_left_eq] at htext
    exact htext
  obtain ⟨d, tail, hdrop⟩ : ∃ d tail, last.drop s.stop.column = d :: tail := by
    cases hdrop : last.drop s.stop.column with
    | cons d tail => exact ⟨d, tail, rfl⟩
    | nil =>
        rw [hdrop, List.nil_append] at hrest
        cases lower with
        | nil => simp at hrest
        | cons l lower => exact absurd (List.cons.inj hrest).1.symm hc
  have htail : last.drop (s.stop.column + 1) = tail := by
    rw [← List.tail_drop, hdrop, List.tail_cons]
  rw [hdrop, List.cons_append, List.cons.injEq] at hrest
  refine ⟨upper, first.take s.start.column, tail, lower, hx, hrest.2.symm, ?_, ?_⟩
  · exact fun hm => hb first (by simp [hfirst]) (List.mem_of_mem_take hm)
  · have hfirst' : buffer[s.start.line]? = some first := by rw [hline₁, hfirst]; simp
    have hlast' : buffer[s.stop.line]? = some last := by rw [hline₂, hlast]; simp
    have htake : buffer.take s.start.line = upper := by rw [hline₁, hfirst]; simp
    have hlower : buffer.drop (s.stop.line + 1) = lower := by rw [hline₂, hlast]; simp
    simp only [cutStatement, hfirst', hlast', htake, hlower, Option.getD_some, Line.slice_eq,
      Line.sliceFrom_eq, htail, List.drop_zero]

/-- The text that a cut leaves. If something visible stands in front of the statement on its line,
the blanks between go. Otherwise the text goes on from the start of the line, or from the first
visible character of it, with the blanks behind the statement gone. -/
lemma text_cutStatement {buffer : Buffer} (hb : buffer.Unbroken) {x w r : List Char} {c : Char}
    (h : buffer.text = x ++ (w ++ c :: r)) (hc : c ≠ '\n') (hr : allBlank r = false)
    {s : Statement} (hstart : s.start = (⟨0, 0⟩ : Position).advance x)
    (hstop : s.stop = (⟨0, 0⟩ : Position).advance (x ++ w)) :
    (∃ y d k, x = y ++ [d] ++ k ∧ isBlank d = false ∧ allBlank k = true ∧ '\n' ∉ k ∧
        (buffer.cutStatement s).text = y ++ [d] ++ r) ∨
      ∃ upper head k z r', x = above upper ++ head ∧ allBlank head = true ∧ r = k ++ r' ∧
        allBlank k = true ∧ allBlank z = true ∧
        (buffer.cutStatement s).text = above upper ++ (z ++ r') := by
  obtain ⟨upper, head, tail, lower, hx, hrest, hhead, hcut⟩ := cutStatement_eq hb h hc hstart hstop
  -- a line put between the upper and the lower lines
  have hbetween : ∀ joined : Line, buffer.cutStatement s = upper ++ [joined] ++ lower →
      (buffer.cutStatement s).text = above upper ++ (joined ++ below lower) := by
    intro joined heq
    rw [heq, List.append_assoc, List.singleton_append, text_split]
  by_cases hblank : allBlank head = true
  · by_cases hblank' : allBlank tail = true
    · have hnone : allBlank (head ++ trimStart tail) = true := by
        rw [allBlank_append, hblank, allBlank_trimStart, hblank', Bool.true_and]
      have hne : lower ≠ [] := by
        rintro rfl
        rw [hrest, below_nil, List.append_nil, hblank'] at hr
        simp at hr
      have hcut' : buffer.cutStatement s = upper ++ lower := by
        rw [hcut]
        simp [hblank, hnone]
      refine Or.inr ⟨upper, head, tail ++ ['\n'], [], text lower, hx, hblank, ?_, ?_, rfl, ?_⟩
      · rw [hrest, below_eq hne]
        simp
      · rw [allBlank_append, hblank']
        rfl
      · rw [hcut', text_append upper hne, List.nil_append]
    · have hblank' : allBlank tail = false := by simpa using hblank'
      obtain ⟨k, hk, hkblank⟩ := exists_trimStart tail
      have hvisible : allBlank (head ++ trimStart tail) = false := by
        rw [allBlank_append, allBlank_trimStart, hblank', Bool.and_false]
      have htext := hbetween (head ++ trimStart tail) (by rw [hcut]; simp [hblank, hvisible])
      refine Or.inr ⟨upper, head, k, head, trimStart tail ++ below lower, hx, hblank, ?_, hkblank,
        hblank, ?_⟩
      · rw [hrest, ← List.append_assoc, ← hk]
      · rw [htext, List.append_assoc]
  · have hblank : allBlank head = false := by simpa using hblank
    obtain ⟨k, hk, hkblank⟩ := exists_trimEnd head
    obtain ⟨y, d, hyd, hd⟩ := exists_trimEnd_concat hblank
    have hvisible : allBlank (trimEnd head ++ tail) = false := by
      rw [hyd, allBlank_append, allBlank_append]
      simp [allBlank, hd]
    have htext := hbetween (trimEnd head ++ tail) (by rw [hcut]; simp [hblank, hvisible])
    refine Or.inl ⟨above upper ++ y, d, k, ?_, hd, hkblank, ?_, ?_⟩
    · rw [hx]
      conv_lhs => rw [hk, hyd]
      simp
    · exact fun hm => hhead (hk ▸ List.mem_append_right _ hm)
    · rw [htext, hyd, hrest]
      simp

end Buffer

/-! ### The pieces that a cut leaves -/

/-- Blanks at the front of a text are among those in front of its first visible character. -/
lemma exists_blank_split {gap t k r : List Char} {c : Char} (hc : isBlank c = false)
    (hk : allBlank k = true) (h : gap ++ c :: t = k ++ r) :
    ∃ k', gap = k ++ k' ∧ r = k' ++ c :: t := by
  rcases List.append_eq_append_iff.mp h with ⟨a, ha, hr⟩ | ⟨a, ha, hr⟩
  · cases a with
    | nil => exact ⟨[], by simp [ha], by simpa using hr.symm⟩
    | cons d a =>
        obtain ⟨rfl, -⟩ := List.cons.inj hr
        exact absurd (ha ▸ by simp) (not_mem_of_allBlank hk hc)
  · exact ⟨a, ha, hr⟩

/-- A line that begins behind a delimiter and its comment begins in the blanks behind them. -/
lemma exists_newline_split {z comment gap u head : List Char} (hcomment : '\n' ∉ comment)
    (hhead : ';' ∉ head) (h : z ++ ';' :: comment ++ gap = u ++ '\n' :: head) :
    ∃ a, gap = a ++ '\n' :: head ∧ u = z ++ ';' :: comment ++ a := by
  rcases List.append_eq_append_iff.mp h with ⟨a, ha, hgap⟩ | ⟨a, ha, hgap⟩
  · exact ⟨a, hgap, ha⟩
  · cases a with
    | nil => exact ⟨[], by simpa using hgap.symm, by simpa using ha.symm⟩
    | cons d a =>
        -- the line begins in front of the delimiter or in the comment
        obtain ⟨rfl, rfl⟩ := List.cons.inj hgap
        rcases List.append_eq_append_iff.mp ha with ⟨b, -, hb⟩ | ⟨b, -, hb⟩
        · cases b with
          | nil => simp at hb
          | cons e b =>
              rw [(List.cons.inj hb).2] at hcomment
              simp at hcomment
        · cases b with
          | nil => simp at hb
          | cons e b =>
              rw [(List.cons.inj hb).2] at hhead
              simp at hhead

/-- The text in front of a piece ends with a delimiter and the comment behind it. -/
lemma Reads.exists_delimiter {afterImport : Bool} {x : List Char} {front others : List Piece}
    (h : Reads afterImport x (front ++ others)) (hfront : front ≠ []) (hothers : others ≠ []) :
    ∃ z comment, Piece.flat front = z ++ ';' :: comment ∧ '\n' ∉ comment ∧
      Leaves comment (Piece.flat others) := by
  rcases List.eq_nil_or_concat front with rfl | ⟨front, piece, rfl⟩
  · exact absurd rfl hfront
  · rw [List.concat_eq_append, List.append_assoc] at h
    obtain ⟨y, -, hy, -⟩ := h.split (by simp)
    obtain ⟨gap, core, comment, rest, rfl, -, -, hcore, -, hleaves, hrest⟩ :=
      hy.exists_next (by simpa using hothers)
    obtain ⟨w, rfl⟩ := hcore.exists_eq
    refine ⟨Piece.flat front ++ (gap ++ w), comment, ?_, ?_, ?_⟩
    · rw [List.concat_eq_append, Piece.flat_append]
      simp
    · rcases hleaves with ⟨rfl, -⟩ | ⟨-, hnl, -⟩
      · simp
      · exact hnl
    · rw [← hrest.flat_eq] at hleaves
      simpa using hleaves

/-- Without one of its imports a text is read as before, as long as an import is left and no line
comment comes to stand behind the statement in front of it. -/
lemma Reads.without {x : List Char} {front back : List Piece} {piece following : Piece}
    (h : Reads false x (front ++ piece :: following :: back))
    (himport : declaresImport piece.text = true)
    (hleft : ∃ other ∈ front ++ following :: back, declaresImport other.text = true)
    {gap : List Char} (hgap : allBlank gap = true)
    (hleaves : front ≠ [] → ∀ comment,
      Leaves comment (Piece.flat (piece :: following :: back)) →
      Leaves comment (gap ++ (following.text ++ Piece.flat back))) :
    Reads false (Piece.flat front ++ (gap ++ (following.text ++ Piece.flat back)))
      (front ++ ⟨gap, following.text⟩ :: back) := by
  obtain ⟨y, -, hy, hexchange⟩ := h.split (List.cons_ne_nil _ _)
  obtain ⟨-, -, -, rest, -, -, -, -, -, -, hrest⟩ := hy.exists_next (List.cons_ne_nil _ _)
  have hflat : rest = following.gap ++ (following.text ++ Piece.flat back) := by
    rw [← hrest.flat_eq, Piece.flat_cons]
  rw [himport, hflat] at hrest
  refine hexchange _ _ (by rwa [hy.flat_eq] at hleaves) (hrest.regap hgap ?_)
  obtain ⟨other, hother, hyes⟩ := hleft
  rcases List.mem_append.mp hother with hother | hother
  · exact Or.inl (importBefore_of_mem h (List.cons_ne_nil _ _) (Or.inr ⟨other, hother, hyes⟩))
  · rcases List.mem_cons.mp hother with rfl | hother
    · exact Or.inr hyes
    · obtain ⟨-, core, comment, -, rfl, -, -, hcore, hfirst, -⟩ :=
        hrest.exists_next (List.ne_nil_of_mem hother)
      exact Or.inr (by rw [declaresImport_append hcore.closed, hfirst rfl])

/-- If something visible stands in front of a statement on its line, it is the delimiter of the
statement before it. -/
lemma Reads.flat_of_visible {x : List Char} {front others : List Piece} {piece : Piece}
    (h : Reads false x (front ++ piece :: others)) {y k : List Char} {d : Char}
    (hsplit : Piece.flat front ++ piece.gap = y ++ [d] ++ k) (hd : isBlank d = false)
    (hk : allBlank k = true) (hnl : '\n' ∉ k) :
    Piece.flat front = y ++ [d] ∧ ¬ AtLineEnd (Piece.flat (piece :: others)) := by
  have hgap := (h.wellFormed piece (by simp)).1
  have hnewline : '\n' ∉ piece.gap := by
    intro hm
    rcases List.append_eq_append_iff.mp hsplit with ⟨a, ha, hgap'⟩ | ⟨a, ha, hgap'⟩
    · rcases List.eq_nil_or_concat a with rfl | ⟨a, e, rfl⟩
      · rw [hgap', List.nil_append] at hm
        exact hnl hm
      · have hde : d = e := by simpa using congrArg List.getLast? ha
        exact not_mem_of_allBlank hgap hd (by rw [hgap', hde]; simp)
    · exact hnl (by rw [hgap']; exact List.mem_append_right _ hm)
  have hmid := (h.wellFormed piece (by simp)).not_atLineEnd hnewline others
  have hfront : front ≠ [] := by
    rintro rfl
    rw [Piece.flat_nil, List.nil_append] at hsplit
    exact not_mem_of_allBlank hgap hd (by rw [hsplit]; simp)
  obtain ⟨z, comment, hz, -, ⟨rfl, -⟩ | ⟨-, -, hend⟩⟩ :=
    h.exists_delimiter hfront (List.cons_ne_nil _ _)
  · have htrim := congrArg trimEnd hsplit
    rw [hz, trimEnd_append_blank hgap, trimEnd_append_blank hk, trimEnd_concat (by decide),
      trimEnd_concat hd] at htrim
    exact ⟨by rw [hz, htrim], hmid⟩
  · exact absurd hend hmid

/-- If nothing visible stands in front of a statement on its line, the line begins in the blanks in
front of the statement, or is the first one. -/
lemma Reads.gap_of_blank {x : List Char} {front others : List Piece} {piece : Piece}
    (h : Reads false x (front ++ piece :: others)) {upper : Buffer} {head : Line}
    (hsplit : Piece.flat front ++ piece.gap = Buffer.above upper ++ head)
    (hhead : allBlank head = true) :
    ∃ a, piece.gap = a ++ head ∧ Buffer.above upper = Piece.flat front ++ a ∧
      (front ≠ [] → ∃ a', a = a' ++ ['\n']) := by
  by_cases hfront : front = []
  · subst hfront
    exact ⟨Buffer.above upper, hsplit, rfl, fun hne => absurd rfl hne⟩
  · obtain ⟨w, comment, hw, hnl, -⟩ := h.exists_delimiter hfront (List.cons_ne_nil _ _)
    have hhead' : ';' ∉ head := not_mem_of_allBlank hhead (by decide)
    obtain ⟨u, hu⟩ : ∃ u, Buffer.above upper = u ++ ['\n'] := by
      by_cases hupper : upper = []
      · rw [hw, hupper, Buffer.above_nil, List.nil_append] at hsplit
        exact absurd (hsplit ▸ by simp) hhead'
      · exact ⟨_, Buffer.above_eq hupper⟩
    rw [hw, hu, List.append_assoc u, List.singleton_append] at hsplit
    obtain ⟨a, ha, hua⟩ := exists_newline_split hnl hhead' hsplit
    exact ⟨a ++ ['\n'], by rw [ha]; simp, by rw [hu, hua, hw]; simp, fun _ => ⟨a, rfl⟩⟩

/-- After a cut the statements around it are read as before, as long as an import is left. Of the
blanks around the statement those on one side of it stay. -/
lemma exists_cut {buffer : Buffer} (hb : buffer.Unbroken) {front back : List Piece}
    {piece following : Piece} (h : Reads false buffer.text (front ++ piece :: following :: back))
    (himport : declaresImport piece.text = true) {s : Statement}
    (hs : s = piece.place ((⟨0, 0⟩ : Position).advance (Piece.flat front))) :
    ∃ gap, allBlank gap = true ∧
      (buffer.cutStatement s).text = Piece.flat (front ++ ⟨gap, following.text⟩ :: back) ∧
      ((∃ other ∈ front ++ following :: back, declaresImport other.text = true) →
        Reads false (buffer.cutStatement s).text (front ++ ⟨gap, following.text⟩ :: back)) := by
  obtain ⟨y, hx, hy, -⟩ := h.split (List.cons_ne_nil _ _)
  obtain ⟨gap, core, comment, rest, rfl, hyeq, hgap, hcore, -, hleaves, hrest⟩ :=
    hy.exists_next (List.cons_ne_nil _ _)
  obtain ⟨hgap₂, core₂, tail₂, hcore₂, htext₂⟩ := hrest.wellFormed following (by simp)
  obtain ⟨v, t, hv, hvisible⟩ := hcore₂.visible
  have hflat : rest = following.gap ++ (following.text ++ Piece.flat back) := by
    rw [← hrest.flat_eq, Piece.flat_cons]
  have hflat' : Piece.flat (⟨gap, core ++ comment⟩ :: following :: back) =
      gap ++ (core ++ comment ++ rest) := by
    rw [Piece.flat_cons, Piece.flat_cons, hflat]
  have hrestblank : allBlank rest = false := by
    rw [hflat, htext₂, hv]
    simp [allBlank, hvisible]
  obtain ⟨w, c, -, hwc, hc, -⟩ := exists_last hcore hleaves ⟨0, 0⟩
  have hbuffer : buffer.text = (Piece.flat front ++ gap) ++ (w ++ c :: rest) := by
    rw [hx, hyeq, ← List.append_assoc core, hwc]
    simp
  have hcut := Buffer.text_cutStatement hb hbuffer hc hrestblank (s := s)
    (by rw [hs, Piece.place, Position.advance_append])
    (by rw [hs, Piece.place, hwc, List.dropLast_concat, Position.advance_append _ _ w,
      Position.advance_append])
  rcases hcut with ⟨y', d, k, hsplit, hd, hk, hnl, htext⟩ |
    ⟨upper, head, k, z, r', hsplit, hhead, hr', hk, hz, htext⟩
  · obtain ⟨hend, hmid⟩ := h.flat_of_visible hsplit hd hk hnl
    rw [← hend, hflat] at htext
    refine ⟨following.gap, hgap₂, by rw [htext, Piece.flat_append, Piece.flat_cons],
      fun hleft => ?_⟩
    rw [htext]
    refine h.without himport hleft hgap₂ fun _ comment' hl => ?_
    rw [← hflat]
    rcases hl with ⟨rfl, -⟩ | ⟨-, -, hend'⟩
    · exact Or.inl ⟨rfl, hleaves.commentAhead_eq⟩
    · exact absurd hend' hmid
  · have hfollowing : following.gap ++ v :: (t ++ tail₂ ++ Piece.flat back) = k ++ r' := by
      rw [← hr', hflat, htext₂, hv]
      simp
    obtain ⟨k', hk', hr''⟩ := exists_blank_split hvisible hk hfollowing
    obtain ⟨a, ha, hupper, hnewline⟩ := h.gap_of_blank hsplit hhead
    have htext' : (buffer.cutStatement s).text =
        Piece.flat front ++ ((a ++ (z ++ k')) ++ (following.text ++ Piece.flat back)) := by
      rw [htext, hupper, hr'', htext₂, hv]
      simp
    have hblank : allBlank (a ++ (z ++ k')) = true := by
      simp only at ha
      rw [hk', allBlank_append, Bool.and_eq_true] at hgap₂
      rw [ha, allBlank_append, Bool.and_eq_true] at hgap
      rw [allBlank_append, allBlank_append, hgap.1, hz, hgap₂.2]
      rfl
    refine ⟨a ++ (z ++ k'), hblank, by rw [htext', Piece.flat_append, Piece.flat_cons],
      fun hleft => ?_⟩
    rw [htext']
    refine h.without himport hleft hblank fun hfront comment' hl => ?_
    obtain ⟨a', rfl⟩ := hnewline hfront
    simp only at ha
    rw [hflat', ha] at hl
    simp only [List.append_assoc, List.singleton_append] at hl ⊢
    exact hl.exchange_newline _

end LintRepair
