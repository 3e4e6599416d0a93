import LintRepair.Proofs.Statement.Reading

/-!
Pieces of a text, taken apart and put together.

What a text is read as in front of a place depends on what follows only through the line comment
that may stand there. So the pieces behind a place can be exchanged for others, and statements that
stand one after the other in the text stand one after the other as positions.

* `Piece.importBefore`: whether an import stands in front of what follows some pieces.
* `Reads.split`: the pieces of a text up to a place, and what may stand behind it instead.
* `Reads.regap`: the blanks in front of a statement do not matter.
* `importBefore_of_mem`: from the first import on there are imports only, up to the body.
* `Piece.pairwise_placed`, `covers_unique`: no position is covered by two statements.
* `visible`: the visible characters of a text; `visible_flat` for pieces.
-/

namespace LintRepair

/-! ### The statement behind a statement -/

/-- The first statement decides whether a line comment follows. -/
lemma commentAhead_delimited {gap core : List Char} (hgap : allBlank gap = true)
    (hcore : Delimited core) (r : List Char) :
    commentAhead (gap ++ (core ++ r)) = commentAhead (gap ++ core) := by
  induction gap with
  | nil =>
      obtain ⟨c, t, rfl, hc⟩ := hcore.visible
      have hc' : inlineBlank c = false := by simp [inlineBlank, hc]
      rw [List.nil_append, List.nil_append, List.cons_append, commentAhead_cons_of_not_blank hc',
        commentAhead_cons_of_not_blank hc']
      cases t with
      | nil =>
          -- a statement of one character is the delimiter itself
          obtain ⟨x, hx⟩ := hcore.exists_eq
          have hlast := congrArg List.getLast? hx
          simp only [List.getLast?_singleton, List.getLast?_append, Option.some_or,
            Option.some.injEq] at hlast
          simp [hlast]
      | cons d t => simp [List.isPrefixOf_cons_cons]
  | cons c gap ih =>
      rw [allBlank, List.all_cons, Bool.and_eq_true] at hgap
      by_cases hc : c = '\n'
      · rw [hc, List.cons_append, List.cons_append, commentAhead_newline, commentAhead_newline]
      · have hc' : inlineBlank c = true := by simp [inlineBlank, hgap.1, hc]
        rw [List.cons_append, List.cons_append, commentAhead_cons_of_blank hc',
          commentAhead_cons_of_blank hc', ih hgap.2]

lemma atLineEnd_cons {c : Char} {x : List Char} : AtLineEnd (c :: x) ↔ c = '\n' := by
  constructor
  · rintro (h | ⟨r, h⟩)
    · simp at h
    · exact (List.cons.inj h).1
  · rintro rfl
    exact Or.inr ⟨x, rfl⟩

/-- What a statement takes of the text behind its delimiter is decided by the statement that
follows. -/
lemma Leaves.exchange {comment gap core r : List Char} (hgap : allBlank gap = true)
    (hcore : Delimited core) (h : Leaves comment (gap ++ (core ++ r))) (r' : List Char) :
    Leaves comment (gap ++ (core ++ r')) := by
  rcases h with ⟨hnil, hahead⟩ | ⟨hcomment, hnl, hend⟩
  · refine Or.inl ⟨hnil, ?_⟩
    rw [commentAhead_delimited hgap hcore] at hahead ⊢
    exact hahead
  · refine Or.inr ⟨hcomment, hnl, ?_⟩
    obtain ⟨c, t, rfl, -⟩ := hcore.visible
    cases gap with
    | nil => exact atLineEnd_cons.mpr (atLineEnd_cons.mp hend)
    | cons d gap => exact atLineEnd_cons.mpr (atLineEnd_cons.mp hend)

/-- No line comment follows what a statement has taken. -/
lemma Leaves.commentAhead_eq {comment rest : List Char} (h : Leaves comment rest) :
    commentAhead rest = false := by
  rcases h with ⟨-, h⟩ | ⟨-, -, rfl | ⟨r, rfl⟩⟩
  · exact h
  · rfl
  · exact commentAhead_newline r

/-- Up to the first line feed of the text behind it a statement sees everything that matters. -/
lemma Leaves.exchange_newline {comment x y : List Char} (h : Leaves comment (x ++ '\n' :: y))
    (y' : List Char) : Leaves comment (x ++ '\n' :: y') := by
  rcases h with ⟨hnil, hahead⟩ | ⟨hcomment, hnl, hend⟩
  · refine Or.inl ⟨hnil, ?_⟩
    rwa [commentAhead_append_newline] at hahead ⊢
  · refine Or.inr ⟨hcomment, hnl, ?_⟩
    cases x with
    | nil => exact Or.inr ⟨y', rfl⟩
    | cons c x => exact atLineEnd_cons.mpr (atLineEnd_cons.mp hend)

/-! ### Pieces in front of a place -/

namespace Piece

/-- Whether the statement in front of what follows the pieces is an import. -/
def importBefore (afterImport : Bool) : List Piece → Bool
  | [] => afterImport
  | piece :: rest => importBefore (declaresImport piece.text) rest

/-- A piece as it is read: blanks, and a statement with what follows its first delimiter. -/
def WellFormed (piece : Piece) : Prop :=
  allBlank piece.gap = true ∧ ∃ core tail, Delimited core ∧ piece.text = core ++ tail

lemma WellFormed.text_ne_nil {piece : Piece} (h : piece.WellFormed) : piece.text ≠ [] := by
  obtain ⟨-, core, tail, hcore, htext⟩ := h
  obtain ⟨c, t, rfl, -⟩ := hcore.visible
  simp [htext]

end Piece

/-- A statement on the same line keeps the text in front of it from being at a line end. -/
lemma Piece.WellFormed.not_atLineEnd {piece : Piece} (h : piece.WellFormed)
    (hgap : '\n' ∉ piece.gap) (rest : List Piece) : ¬ AtLineEnd (flat (piece :: rest)) := by
  obtain ⟨-, core, tail, hcore, htext⟩ := h
  obtain ⟨c, t, rfl, hc⟩ := hcore.visible
  rw [flat_cons, htext]
  cases hg : piece.gap with
  | nil =>
      rw [List.nil_append, List.cons_append, List.cons_append, atLineEnd_cons]
      rintro rfl
      simp [isBlank_newline] at hc
  | cons d gap =>
      rw [List.cons_append, atLineEnd_cons]
      rintro rfl
      simp [hg] at hgap

lemma Reads.wellFormed {afterImport : Bool} {x : List Char} {pieces : List Piece}
    (h : Reads afterImport x pieces) : ∀ piece ∈ pieces, piece.WellFormed := by
  induction h with
  | @body gap core rest hgap hcore himport =>
      intro piece hpiece
      rw [List.mem_singleton] at hpiece
      exact hpiece ▸ ⟨hgap, core, rest, hcore, rfl⟩
  | @next afterImport gap core comment rest pieces hgap hcore himport hleaves hrest ih =>
      intro piece hpiece
      rcases List.mem_cons.mp hpiece with rfl | hpiece
      · exact ⟨hgap, core, comment, hcore, rfl⟩
      · exact ih piece hpiece

lemma Reads.text_ne_nil {afterImport : Bool} {x : List Char} {pieces : List Piece}
    (h : Reads afterImport x pieces) : x ≠ [] := by
  cases h with
  | body hgap hcore himport =>
      obtain ⟨c, t, rfl, -⟩ := hcore.visible
      simp
  | next hgap hcore himport hleaves hrest =>
      obtain ⟨c, t, rfl, -⟩ := hcore.visible
      simp

lemma Reads.flat_eq {afterImport : Bool} {x : List Char} {pieces : List Piece}
    (h : Reads afterImport x pieces) : Piece.flat pieces = x := by
  induction h with
  | body => simp
  | next _ _ _ _ _ ih => rw [Piece.flat_cons, ih, List.append_assoc]

/-- A piece that is not the last one is a statement with the comment behind it. -/
lemma Reads.exists_next {afterImport : Bool} {x : List Char} {piece : Piece} {others : List Piece}
    (h : Reads afterImport x (piece :: others)) (hothers : others ≠ []) :
    ∃ gap core comment rest, piece = ⟨gap, core ++ comment⟩ ∧
      x = gap ++ (core ++ (comment ++ rest)) ∧ allBlank gap = true ∧ Delimited core ∧
      (afterImport = true → declaresImport core = true) ∧ Leaves comment rest ∧
      Reads (declaresImport piece.text) rest others := by
  cases h with
  | body => exact absurd rfl hothers
  | next hgap hcore himport hleaves hrest =>
      refine ⟨_, _, _, _, rfl, rfl, hgap, hcore, himport, hleaves, ?_⟩
      rwa [declaresImport_append hcore.closed]

/-- The pieces of a text up to a place. Whatever may stand behind the last statement in front of
the place can take the place of what stands there. -/
lemma Reads.split {afterImport : Bool} {x : List Char} {front back : List Piece}
    (h : Reads afterImport x (front ++ back)) (hback : back ≠ []) :
    ∃ y, x = Piece.flat front ++ y ∧ Reads (Piece.importBefore afterImport front) y back ∧
      ∀ y' back', (front ≠ [] → ∀ comment, Leaves comment y → Leaves comment y') →
        Reads (Piece.importBefore afterImport front) y' back' →
        Reads afterImport (Piece.flat front ++ y') (front ++ back') := by
  induction front generalizing afterImport x with
  | nil => exact ⟨x, rfl, h, fun y' back' _ h' => h'⟩
  | cons piece front ih =>
      obtain ⟨gap, core, comment, rest, rfl, rfl, hgap, hcore, himport, hleaves, hrest⟩ :=
        h.exists_next (by simp [hback])
      obtain ⟨y, rfl, hy, hexchange⟩ := ih hrest
      refine ⟨y, by simp, hy, fun y' back' hleaves' h' => ?_⟩
      have hrest' := hexchange y' back' (fun _ => hleaves' (List.cons_ne_nil _ _)) h'
      have hcomment : Leaves comment (Piece.flat front ++ y') := by
        cases front with
        | nil => exact hleaves' (List.cons_ne_nil _ _) comment hleaves
        | cons second front =>
            obtain ⟨hgap2, core2, tail2, hcore2, htext2⟩ := hrest.wellFormed second (by simp)
            rw [Piece.flat_cons, htext2, List.append_assoc, List.append_assoc,
              List.append_assoc] at hleaves ⊢
            exact hleaves.exchange hgap2 hcore2 _
      rw [declaresImport_append hcore.closed] at hrest'
      rw [Piece.flat_cons, List.cons_append]
      simpa using Reads.next hgap hcore himport hcomment hrest'

/-- The blanks in front of a statement do not matter, nor does an import in front of an import. -/
lemma Reads.regap {before : Bool} {gap z : List Char} {text : List Char} {pieces : List Piece}
    (h : Reads before (gap ++ z) (⟨gap, text⟩ :: pieces)) {gap' : List Char}
    (hgap' : allBlank gap' = true) {before' : Bool}
    (hbefore : before' = before ∨ declaresImport text = true) :
    Reads before' (gap' ++ z) (⟨gap', text⟩ :: pieces) := by
  generalize hx : gap ++ z = x at h
  cases h with
  | @body _ core rest hgap hcore himport =>
      rw [List.append_cancel_left_eq] at hx
      rcases hbefore with rfl | hno
      · rw [hx]
        exact .body hgap' hcore himport
      · rw [declaresImport_append hcore.closed, himport] at hno
        simp at hno
  | @next _ _ core comment rest _ hgap hcore himport hleaves hrest =>
      rw [List.append_cancel_left_eq] at hx
      rw [hx]
      refine .next hgap' hcore (fun htrue => ?_) hleaves hrest
      rcases hbefore with rfl | hyes
      · exact himport htrue
      · rwa [declaresImport_append hcore.closed] at hyes

/-- From the first import on there are imports only, up to the body. -/
lemma importBefore_of_mem {afterImport : Bool} {x : List Char} {front back : List Piece}
    (h : Reads afterImport x (front ++ back)) (hback : back ≠ [])
    (himport : afterImport = true ∨ ∃ piece ∈ front, declaresImport piece.text = true) :
    Piece.importBefore afterImport front = true := by
  induction front generalizing afterImport x with
  | nil => simpa [Piece.importBefore] using himport
  | cons piece front ih =>
      obtain ⟨gap, core, comment, rest, rfl, -, -, hcore, hfirst, -, hrest⟩ :=
        h.exists_next (by simp [hback])
      refine ih hrest ?_
      rcases himport with htrue | ⟨p, hp, hyes⟩
      · exact Or.inl (by rw [declaresImport_append hcore.closed, hfirst htrue])
      · rcases List.mem_cons.mp hp with rfl | hp
        · exact Or.inl hyes
        · exact Or.inr ⟨p, hp, hyes⟩

/-- The last piece is the body, which is no import. -/
lemma Reads.exists_body {afterImport : Bool} {x : List Char} {pieces : List Piece}
    (h : Reads afterImport x pieces) :
    ∃ front body, pieces = front ++ [body] ∧ declaresImport body.text = false := by
  induction h with
  | @body gap core rest hgap hcore himport =>
      exact ⟨[], _, rfl, by rw [declaresImport_append hcore.closed, himport]⟩
  | next _ _ _ _ _ ih =>
      obtain ⟨front, body, rfl, himport⟩ := ih
      exact ⟨_ :: front, body, rfl, himport⟩

/-! ### Statements in their places -/

namespace Piece

/-- A statement takes up a part of what its piece takes up. -/
lemma place_bounds (p : Position) {piece : Piece} (h : piece.text ≠ []) :
    p ≤ (piece.place p).start ∧ (piece.place p).start ≤ (piece.place p).stop ∧
      (piece.place p).stop < p.advance piece.source := by
  refine ⟨Position.le_advance _ _, Position.le_advance _ _, ?_⟩
  rw [source, Position.advance_append, ← Position.advance_dropLast h]
  exact Position.lt_step _ _

lemma spans_append (p : Position) (x y : List Piece) :
    spans p (x ++ y) = spans p x ++ spans (p.advance (flat x)) y := by
  induction x generalizing p with
  | nil => rfl
  | cons piece x ih =>
      rw [List.cons_append, spans, spans, ih, flat_cons, List.cons_append, ← List.append_assoc,
        Position.advance_append _ (piece.gap ++ piece.text), source]

/-- The piece that a statement comes from, with the pieces around it. -/
lemma exists_of_mem_spans {p : Position} {pieces : List Piece} {s : Statement}
    (h : s ∈ spans p pieces) :
    ∃ front piece back, pieces = front ++ piece :: back ∧
      s = piece.place (p.advance (flat front)) := by
  induction pieces generalizing p with
  | nil => simp [spans] at h
  | cons piece pieces ih =>
      rcases List.mem_cons.mp h with rfl | h
      · exact ⟨[], piece, pieces, rfl, rfl⟩
      · obtain ⟨front, other, back, rfl, rfl⟩ := ih h
        refine ⟨piece :: front, other, back, rfl, ?_⟩
        rw [flat_cons, ← List.append_assoc, Position.advance_append, source]

lemma map_text_spans (p : Position) (pieces : List Piece) :
    (spans p pieces).map Statement.text = pieces.map Piece.text := by
  induction pieces generalizing p with
  | nil => rfl
  | cons piece pieces ih => rw [spans, List.map_cons, ih, List.map_cons, place]

lemma le_start_of_mem_placed {last p : Position} {pieces : List Piece} {s : Statement}
    (h : s ∈ placed last p pieces) : p ≤ s.start := by
  induction pieces generalizing p with
  | nil => simp [placed] at h
  | cons piece pieces ih =>
      cases pieces with
      | nil =>
          rw [placed, List.mem_singleton] at h
          exact h ▸ Position.le_advance _ _
      | cons other pieces =>
          rw [placed_cons last p piece (List.cons_ne_nil _ _)] at h
          rcases List.mem_cons.mp h with rfl | h
          · exact Position.le_advance _ _
          · exact Position.le_trans (Position.le_advance _ _) (ih h)

/-- Each statement ends before the next one begins. -/
lemma pairwise_placed (last p : Position) {pieces : List Piece}
    (h : ∀ piece ∈ pieces, piece.text ≠ []) :
    (placed last p pieces).Pairwise fun s t => s.stop < t.start := by
  induction pieces generalizing p with
  | nil => exact List.Pairwise.nil
  | cons piece pieces ih =>
      cases pieces with
      | nil => exact List.pairwise_singleton _ _
      | cons other pieces =>
          rw [placed_cons last p piece (List.cons_ne_nil _ _), List.pairwise_cons]
          refine ⟨fun t ht => ?_, ih _ fun q hq => h q (List.mem_cons_of_mem _ hq)⟩
          exact Position.lt_of_lt_of_le (place_bounds p (h piece List.mem_cons_self)).2.2
            (le_start_of_mem_placed ht)

end Piece

lemma Statement.covers_iff {s : Statement} {p : Position} :
    s.covers p = true ↔ s.start ≤ p ∧ p ≤ s.stop := by
  simp [Statement.covers]

/-- A statement does not cover what another one in front of it covers. -/
lemma Statement.not_covers_of_lt {s t : Statement} {p : Position} (h : s.stop < t.start)
    (hp : p ≤ s.stop) : t.covers p = false := by
  rw [Bool.eq_false_iff, Ne, Statement.covers_iff]
  rintro ⟨hstart, -⟩
  exact Position.not_lt_of_le (Position.le_trans hstart hp) h

/-- A statement does not cover what lies behind the start of one that comes after it. -/
lemma Statement.not_covers_of_lt_start {s t : Statement} {p : Position} (h : s.stop < t.start)
    (hp : t.start ≤ p) : s.covers p = false := by
  rw [Bool.eq_false_iff, Ne, Statement.covers_iff]
  rintro ⟨-, hstop⟩
  exact Position.not_lt_of_le (Position.le_trans hp hstop) h

/-- No position is covered by two statements. -/
lemma covers_unique {found : List Statement}
    (h : found.Pairwise fun s t => s.stop < t.start) {s t : Statement} (hs : s ∈ found)
    (ht : t ∈ found) {p : Position} (hsp : s.covers p = true) (htp : t.covers p = true) :
    s = t := by
  by_contra hne
  have hapart : found.Pairwise fun s t => s.stop < t.start ∨ t.stop < s.start :=
    h.imp Or.inl
  have : Std.Symm fun s t : Statement => s.stop < t.start ∨ t.stop < s.start :=
    ⟨fun _ _ => Or.symm⟩
  rcases hapart.forall hs ht hne with hlt | hlt
  · rw [Statement.not_covers_of_lt hlt (Statement.covers_iff.mp hsp).2] at htp
    simp at htp
  · rw [Statement.not_covers_of_lt hlt (Statement.covers_iff.mp htp).2] at hsp
    simp at hsp

/-! ### Visible characters -/

/-- A text that begins with a visible character has visible characters. -/
lemma visible_ne_nil {core : List Char} (h : Delimited core) : visible core ≠ [] := by
  obtain ⟨c, t, rfl, hc⟩ := h.visible
  simp [visible, hc]

lemma visible_flat {pieces : List Piece} (h : ∀ piece ∈ pieces, allBlank piece.gap = true) :
    visible (Piece.flat pieces) = visible (pieces.map Piece.text).flatten := by
  induction pieces with
  | nil => rfl
  | cons piece pieces ih =>
      rw [Piece.flat_cons, List.map_cons, List.flatten_cons]
      simp only [visible_append]
      rw [visible_of_allBlank (h piece List.mem_cons_self),
        ih fun q hq => h q (List.mem_cons_of_mem _ hq), List.nil_append]

lemma Buffer.visible_text (buffer : Buffer) : visible buffer.text = visible buffer.flatten := by
  have hbelow : ∀ lines : Buffer, visible lines.below = visible lines.flatten := by
    intro lines
    induction lines with
    | nil => rfl
    | cons l lines ih =>
        have hnl : visible (Buffer.below (l :: lines)) = visible (l ++ Buffer.below lines) := by
          simp [visible, isBlank_newline]
        rw [hnl, visible_append, ih, List.flatten_cons, visible_append]
  cases buffer with
  | nil => rfl
  | cons l rest => rw [Buffer.text, visible_append, hbelow, List.flatten_cons, visible_append]

end LintRepair
