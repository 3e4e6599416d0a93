import LintRepair.Proofs.Import.Neighbours
import LintRepair.Proofs.Statement.Trimming

/-!
A line split between two statements.

The line that two statements share is cut between them, and the second part loses the blanks at its
ends. Those in front are blanks between statements. Those behind may stand anywhere, in a comment or
a literal too, and the statements are read without them.

* `splitBetween_eq`: the lines that a split leaves.
* `Statement.TrimmedTo`: the text of a statement without blanks at the end of a line.
* `reads_splitBetween`: the pieces that a split leaves.
* `SplitAt`: what one split does; `splitAt_of_shares` for two statements that share a line.
-/

namespace LintRepair

/-! ### The lines that a split leaves -/

lemma Buffer.atLineEnd_below (lower : Buffer) : AtLineEnd lower.below := by
  cases lower with
  | nil => exact Or.inl rfl
  | cons l lower => exact Or.inr ⟨_, Buffer.below_cons l lower⟩

lemma trimStart_cons {c : Char} (hc : isBlank c = false) (x : List Char) :
    trimStart (c :: x) = c :: x := by
  simp [trimStart, hc]

section Shared

variable {buffer : Buffer} (hb : buffer.Unbroken) {fore rest : List Piece} {a b : Piece}
  (h : Reads false buffer.text (fore ++ a :: b :: rest)) (hshare : '\n' ∉ b.gap)
  {first second : Statement}
  (hfirst : first = a.place ((⟨0, 0⟩ : Position).advance (Piece.flat fore)))
  (hsecond : second.start = (⟨0, 0⟩ : Position).advance (Piece.flat (fore ++ [a]) ++ b.gap))

include hb h hshare hfirst hsecond

/-- A shared line with the end of one statement and the start of the next one on it. -/
lemma exists_sharedLine :
    ∃ upper head tail lower, buffer = upper ++ (head ++ b.gap ++ tail) :: lower ∧
      second.start.line = upper.length ∧ first.stop.column + 1 = head.length ∧
      second.start.column = (head ++ b.gap).length ∧
      Piece.flat (fore ++ [a]) = Buffer.above upper ++ head ∧
      b.text ++ Piece.flat rest = tail ++ Buffer.below lower := by
  have hreads := h
  rw [List.append_cons] at hreads
  have hflat :
      buffer.text = (Piece.flat (fore ++ [a]) ++ b.gap) ++ (b.text ++ Piece.flat rest) := by
    rw [← hreads.flat_eq, Piece.flat_append _ (b :: rest), Piece.flat_cons, List.append_assoc]
  have hne : buffer ≠ [] := by
    rintro rfl
    exact h.text_ne_nil rfl
  obtain ⟨upper, shared, lower, hbuffer, hline, hcolumn, hx⟩ := Buffer.locate hb hne hflat
  rw [← hsecond] at hline hcolumn hx
  -- the first statement ends as many characters to the left as there are blanks between
  obtain ⟨y, -, hy, -⟩ := h.split (List.cons_ne_nil _ _)
  have hstop := hy.stop_next (List.cons_ne_nil _ _) ((⟨0, 0⟩ : Position).advance (Piece.flat fore))
  rw [← hfirst, ← Position.advance_append, ← Piece.flat_concat] at hstop
  have hcolumns : second.start.column = first.stop.column + 1 + b.gap.length := by
    rw [hsecond, Position.advance_append, ← hstop, Position.advance_of_not_mem hshare]
    rfl
  have htake : shared.take second.start.column =
      shared.take (first.stop.column + 1) ++
        (shared.drop (first.stop.column + 1)).take b.gap.length := by
    rw [hcolumns, List.take_add]
  rw [htake, ← List.append_assoc] at hx
  obtain ⟨hhead, hgap⟩ := List.append_inj' hx (by
    rw [List.length_take, List.length_drop]
    omega)
  refine ⟨upper, shared.take (first.stop.column + 1), shared.drop second.start.column, lower, ?_,
    hline, ?_, ?_, hhead, ?_⟩
  · rw [hgap, ← htake, List.take_append_drop]
    exact hbuffer
  · rw [List.length_take]
    omega
  · rw [hgap, ← htake, List.length_take]
    omega
  · rw [hbuffer, Buffer.text_split, hhead, hgap, List.append_assoc (Buffer.above upper), ← htake,
      List.append_assoc, List.append_cancel_left_eq] at hflat
    conv_lhs at hflat => rw [← List.take_append_drop second.start.column shared]
    rw [List.append_assoc, List.append_cancel_left_eq] at hflat
    exact hflat.symm

/-- What a split makes of a shared line. -/
lemma splitBetween_eq :
    ∃ upper head tail lower, buffer = upper ++ (head ++ b.gap ++ tail) :: lower ∧
      Piece.flat (fore ++ [a]) = Buffer.above upper ++ head ∧
      b.text ++ Piece.flat rest = tail ++ Buffer.below lower ∧
      buffer.splitBetween first second = upper ++ head :: trimEnd tail :: lower := by
  obtain ⟨upper, head, tail, lower, hbuffer, hline, hstop, hstart, hfront, htail⟩ :=
    exists_sharedLine hb h hshare hfirst hsecond
  have hreads := h
  rw [List.append_cons] at hreads
  -- no comment stands between the statements, so the first one ends with its delimiter
  have hhead : trimEnd head = head := by
    obtain ⟨z, comment, hz, -, ⟨rfl, -⟩ | ⟨-, -, hend⟩⟩ :=
      hreads.exists_delimiter (by simp) (List.cons_ne_nil _ _)
    · rcases List.eq_nil_or_concat head with rfl | ⟨y, c, rfl⟩
      · simp at hstop
      · rw [hfront] at hz
        have hc : c = ';' := by simpa using congrArg List.getLast? hz
        rw [List.concat_eq_append, hc, trimEnd_concat (by decide)]
    · exact absurd hend ((hreads.wellFormed b (by simp)).not_atLineEnd hshare rest)
  have htail' : trimStart tail = tail := by
    obtain ⟨-, core, r, hcore, htext⟩ := hreads.wellFormed b (by simp)
    rw [htext, List.append_assoc] at htail
    cases tail with
    | nil => exact absurd htail (hcore.append_ne _ (k := []) rfl (Buffer.atLineEnd_below lower))
    | cons d tail =>
        obtain ⟨c, t, rfl, hc⟩ := hcore.visible
        have hd : c = d := (List.cons.inj htail).1
        exact trimStart_cons (hd ▸ hc) tail
  refine ⟨upper, head, tail, lower, hbuffer, hfront, htail, ?_⟩
  have hget : buffer[second.start.line]? = some (head ++ b.gap ++ tail) := by
    rw [hline, hbuffer]
    simp
  have htake : buffer.take second.start.line = upper := by rw [hline, hbuffer]; simp
  have hlower : buffer.drop (second.start.line + 1) = lower := by rw [hline, hbuffer]; simp
  have hslice : (head ++ b.gap ++ tail).take (first.stop.column + 1) = head := by
    rw [hstop, List.append_assoc, List.take_left]
  have hrest : (head ++ b.gap ++ tail).drop second.start.column = tail := by
    rw [hstart, List.drop_left]
  simp only [Buffer.splitBetween, hget, htake, hlower, Option.getD_some, Line.slice_eq,
    Line.sliceFrom_eq, List.drop_zero, hslice, hrest, trim, hhead, htail']
  simp

/-- A split makes one line two and keeps the visible characters. -/
lemma length_splitBetween :
    (buffer.splitBetween first second).length = buffer.length + 1 ∧
      visible (buffer.splitBetween first second).flatten = visible buffer.flatten := by
  obtain ⟨upper, head, tail, lower, hbuffer, -, -, hsplit⟩ :=
    splitBetween_eq hb h hshare hfirst hsecond
  have hgap : visible b.gap = [] := visible_of_allBlank (h.wellFormed b (by simp)).1
  rw [hsplit, hbuffer]
  constructor
  · simp only [List.length_append, List.length_cons]
    omega
  · simp only [List.flatten_append, List.flatten_cons, visible_append, visible_trimEnd, hgap,
      List.nil_append, List.append_assoc]

/-- The pieces that a split leaves: there is a line feed between the two statements, and blanks at
the end of the shared line are gone. -/
lemma reads_splitBetween :
    ∃ k x text rest', allBlank k = true ∧ '\n' ∉ k ∧
      Trims k x (b :: rest) (⟨b.gap, text⟩ :: rest') ∧
      ((⟨0, 0⟩ : Position).advance (Piece.flat (fore ++ [a]) ++ x)).line = second.start.line ∧
      Reads false (buffer.splitBetween first second).text
        (fore ++ a :: ⟨['\n'], text⟩ :: rest') := by
  obtain ⟨upper, head, tail, lower, hbuffer, hfront, htail, hsplit⟩ :=
    splitBetween_eq hb h hshare hfirst hsecond
  obtain ⟨k, hk, hblank⟩ := exists_trimEnd tail
  have hunbroken : '\n' ∉ tail := by
    intro hmem
    exact hb _ (by rw [hbuffer]; simp) (List.mem_append_right (head ++ b.gap) hmem)
  rw [hk, List.mem_append, not_or] at hunbroken
  have hdangling : Dangling k (Buffer.below lower) :=
    ⟨hblank, hunbroken.2, Buffer.atLineEnd_below lower⟩
  rw [List.append_cons] at h
  obtain ⟨y, -, hy, hexchange⟩ := h.split (List.cons_ne_nil _ _)
  -- without the blanks at the end of the shared line
  have htext : y = (b.gap ++ trimEnd tail) ++ (k ++ Buffer.below lower) := by
    rw [← hy.flat_eq, Piece.flat_cons, htail]
    conv_lhs => rw [hk]
    simp
  obtain ⟨pieces, htrims, hreads⟩ := hy.trim htext hdangling
  obtain ⟨text, rest', rfl⟩ := htrims.exists_cons hshare
  -- with a line feed in front of the second statement
  rw [List.append_assoc] at hreads
  have hnext : Reads _ (['\n'] ++ (trimEnd tail ++ Buffer.below lower))
      (⟨['\n'], text⟩ :: rest') := hreads.regap (by decide) (Or.inl rfl)
  refine ⟨k, b.gap ++ trimEnd tail, text, rest', hblank, hunbroken.2, htrims, ?_, ?_⟩
  · rw [← List.append_assoc, Position.line_advance_append _ _ hunbroken.1, hsecond]
  · have hagain := hexchange _ _ (fun _ comment hleaves => ?_) hnext
    · rw [hsplit, Buffer.text_append _ (List.cons_ne_nil _ _), Buffer.text, Buffer.below_cons,
        ← List.append_assoc, ← hfront]
      simpa using hagain
    · rcases hleaves with ⟨rfl, -⟩ | ⟨hcomment, hnl, -⟩
      · exact Or.inl ⟨rfl, commentAhead_newline _⟩
      · exact Or.inr ⟨hcomment, hnl, Or.inr ⟨_, rfl⟩⟩

end Shared

/-! ### Statements without blanks at the end of a line -/

/-- The text is that of the statement, apart from blanks that the statement has at the end of the
given line. -/
def Statement.TrimmedTo (line : Nat) (s : Statement) (text : List Char) : Prop :=
  text = s.text ∨ ∃ x k y, s.text = x ++ (k ++ y) ∧ text = x ++ y ∧ Dangling k y ∧
    s.start.line + x.count '\n' = line

lemma forall₂_trimmedTo_self (line : Nat) (found : List Statement) :
    List.Forall₂ (Statement.TrimmedTo line) found (found.map Statement.text) :=
  List.forall₂_map_right_iff.mpr (List.forall₂_same.mpr fun _ _ => Or.inl rfl)

lemma forall₂_trimmedTo_placed (line : Nat) (last p : Position) (pieces : List Piece) :
    List.Forall₂ (Statement.TrimmedTo line) (Piece.placed last p pieces)
      (pieces.map Piece.text) := by
  rw [← Piece.map_text_placed last p]
  exact forall₂_trimmedTo_self line _

/-- Pieces that lose blanks behind a text lose them on the line on which the text ends. -/
lemma Trims.forall₂_trimmedTo {k x : List Char} {pieces pieces' : List Piece}
    (h : Trims k x pieces pieces') (hblank : allBlank k = true) (hinline : '\n' ∉ k)
    (last p : Position) :
    List.Forall₂ (Statement.TrimmedTo (p.advance x).line) (Piece.placed last p pieces)
      (pieces'.map Piece.text) := by
  induction h generalizing p with
  | @gap x y text rest =>
      obtain ⟨s, hs, -, hstext, -⟩ :=
        Piece.exists_placed_cons last p ⟨x ++ (k ++ '\n' :: y), text⟩ rest
      rw [hs, List.map_cons]
      exact .cons (Or.inl hstext.symm) (forall₂_trimmedTo_placed _ _ _ _)
  | @text gap text text' x y rest htext htext' hy himport =>
      obtain ⟨s, hs, hstart, hstext, -⟩ := Piece.exists_placed_cons last p ⟨gap, text⟩ rest
      rw [hs, List.map_cons]
      refine .cons (Or.inr ⟨x, k, y, hstext.trans htext, htext', ⟨hblank, hinline, hy⟩, ?_⟩)
        (forall₂_trimmedTo_placed _ _ _ _)
      rw [hstart, Position.advance_append, Position.line_advance _ x]
  | @later x piece rest rest' _ ih =>
      obtain ⟨s, hs, -, hstext, -⟩ := Piece.exists_placed_cons last p piece rest
      rw [hs, List.map_cons, Position.advance_append]
      exact .cons (Or.inl hstext.symm) (ih _)

/-! ### One split -/

/-- What a split of a line does to a buffer and its statements: there is one more line and nothing
visible has changed, the statements differ at most in blanks at the end of the line, and one pair
less of them shares a line. -/
structure SplitAt (line : Nat) (buffer buffer' : Buffer) (found found' : List Statement) :
    Prop where
  unbroken : buffer'.Unbroken
  length : buffer'.length = buffer.length + 1
  visible : visible buffer'.flatten = visible buffer.flatten
  statements : statements buffer' = .ok found'
  flags : found'.map Statement.isImport = found.map Statement.isImport
  texts : List.Forall₂ (fun s t => s.TrimmedTo line t.text) found found'
  shared : sharedPairs found' + 1 = sharedPairs found

/-- A split between two statements that share a line. -/
lemma splitAt_of_shares {buffer : Buffer} (hb : buffer.Unbroken) {found : List Statement}
    (hfound : statements buffer = .ok found) {x y : List Statement} {first second : Statement}
    (hpair : found = x ++ first :: second :: y) (hshare : first.sharesLineWith second = true) :
    ∃ found', SplitAt second.start.line buffer (buffer.splitBetween first second) found found' := by
  obtain ⟨pieces, hreads, rfl⟩ := (statements_iff_reads hb found).mp hfound
  obtain ⟨fore, a, b, rest, rfl, -, hfirst, hsecond, -, -, -⟩ := Piece.exists_consecutive hpair
  have hgap : '\n' ∉ b.gap := by
    obtain ⟨z, -, hz, -⟩ := hreads.split (List.cons_ne_nil _ _)
    refine (hz.sharesLineWith_iff ((⟨0, 0⟩ : Position).advance (Piece.flat fore)) ?_).mp
      (hfirst ▸ hshare)
    rw [hsecond, Piece.flat_concat, Position.advance_append, Position.advance_append]
  obtain ⟨hlength, hvisible⟩ := length_splitBetween hb hreads hgap hfirst hsecond
  obtain ⟨k, z, text, rest', hblank, hinline, htrims, hline, hsplit⟩ :=
    reads_splitBetween hb hreads hgap hfirst hsecond
  have hunbroken : (buffer.splitBetween first second).Unbroken := hb.of_mem Buffer.mem_splitBetween
  have hflags := htrims.map_declaresImport
  have htexts := htrims.forall₂_trimmedTo hblank hinline buffer.lastPosition
    ((⟨0, 0⟩ : Position).advance (Piece.flat (fore ++ [a])))
  rw [← Position.advance_append, hline] at htexts
  have hcount := htrims.countP_gap
  rw [List.countP_cons_of_pos (by simpa using hgap), List.countP_cons_of_pos (by simpa using hgap)]
    at hcount
  have hne : fore ++ [a] ≠ [] := by simp
  rw [List.append_cons] at hsplit
  rw [List.append_cons fore a (b :: rest)] at hreads ⊢
  generalize fore ++ [a] = front at hne hreads hsplit htexts ⊢
  refine ⟨_, hunbroken, hlength, hvisible,
    (statements_iff_reads hunbroken _).mpr ⟨_, hsplit, rfl⟩, ?_, ?_, ?_⟩
  · rw [map_isImport, map_isImport, Piece.map_text_placed, Piece.map_text_placed, List.map_append,
      List.map_append, List.map_append, List.map_append, ← hflags]
    rfl
  · rw [← List.forall₂_map_right_iff (f := Statement.text), Piece.map_text_placed, List.map_append,
      Piece.placed_append _ _ _ (List.cons_ne_nil _ _)]
    refine List.rel_append ?_ htexts
    rw [← Piece.map_text_spans ⟨0, 0⟩]
    exact forall₂_trimmedTo_self _ _
  · rw [hsplit.sharedPairs_placed, hreads.sharedPairs_placed, List.tail_append_of_ne_nil hne,
      List.tail_append_of_ne_nil hne, List.countP_append, List.countP_append,
      List.countP_cons_of_neg (by simp), List.countP_cons_of_pos (by simpa using hgap)]
    omega

end LintRepair
