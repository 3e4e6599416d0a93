import LintRepair.Proofs.Buffer.Text
import LintRepair.Proofs.Statement.Reader
import LintRepair.Statement.Scan

/-!
The ends of a statement, found in the text.

A statement ends at its delimiter, or at the end of a line comment behind it on the same line. Both
are found by searches through the lines of a buffer; here they are found by reading the buffer's
text.

* `sweepLine_describes`, `settles_delimiter`: the search for a delimiter is the run of a `Reader`.
* `delimiter_eq_ok`: a text that the reader closes has its delimiter there.
* `commentAhead`, `trailing`, `Leaves`: the comment behind a delimiter, as a part of the text.
* `includeTrailingComment_eq`: where a statement stops.
-/

namespace LintRepair

/-! ### The delimiter of a text -/

namespace Mode

/-- The reader that a search mode stands for. -/
def reader : Mode → Reader
  | code => .code
  | block _ => .block
  | literal quote => .literal quote

lemma live_reader (mode : Mode) : mode.reader.Live := by
  cases mode <;> simp [reader, Reader.Live]

end Mode

/-- What the search through the rest of a line means for a reader of that rest: the reader is
closed at the delimiter, or ends the line in the mode in which the next one begins. -/
def Sweep.Describes (s : Reader) (column : Nat) (l : Line) : Sweep → Prop
  | found k => ∃ x r, l = x ++ ';' :: r ∧ s.run (x ++ [';']) = .closed ∧ k = column + x.length
  | ended mode => s.run (l ++ ['\n']) = mode.reader

/-- A character goes in front if the reader past it does what the search past it does. -/
lemma Sweep.Describes.cons {s s' : Reader} {column : Nat} {c : Char} {rest : Line} {d : Sweep}
    (hstep : ∀ y, y ≠ [] → y <+: rest ++ ['\n'] → s.run (c :: y) = s'.run y)
    (h : d.Describes s' (column + 1) rest) : d.Describes s column (c :: rest) := by
  cases d with
  | found k =>
      obtain ⟨x, r, rfl, hx, rfl⟩ := h
      refine ⟨c :: x, r, rfl, ?_, by simp only [List.length_cons]; omega⟩
      rw [List.cons_append, hstep _ (by simp) ⟨r ++ ['\n'], by simp⟩, hx]
  | ended mode =>
      rw [Describes, List.cons_append, hstep _ (by simp) (List.prefix_refl _)]
      exact h

lemma Sweep.Describes.step {s : Reader} {column : Nat} {c : Char} {rest : Line} {d : Sweep}
    (h : d.Describes (s.step c) (column + 1) rest) : d.Describes s column (c :: rest) :=
  Describes.cons (fun _ _ _ => rfl) h

/-- A character that follows in a text in front of a line feed follows in the line. -/
lemma exists_of_prefix_cons {c : Char} (hc : c ≠ '\n') {y rest : List Char}
    (h : c :: y <+: rest ++ ['\n']) : ∃ t, rest = c :: t := by
  cases rest with
  | nil =>
      obtain ⟨z, hz⟩ := h
      simp only [List.cons_append, List.nil_append, List.cons.injEq] at hz
      exact absurd hz.1 hc
  | cons d rest =>
      obtain ⟨z, hz⟩ := h
      simp only [List.cons_append, List.cons.injEq] at hz
      exact ⟨rest, by rw [hz.1]⟩

/-- Only a line feed can follow at the end of a line. -/
lemma prefix_newline_eq {y rest : List Char} (hy : y ≠ []) (h : y <+: rest ++ ['\n'])
    (hrest : ∀ d t, rest ≠ d :: t) : y = ['\n'] := by
  cases rest with
  | nil =>
      rcases List.prefix_concat_iff.mp h with h | h
      · exact h
      · exact absurd (List.prefix_nil.mp h) hy
  | cons d t => exact absurd rfl (hrest d t)

lemma sweepLine_describes (index : Nat) (mode : Mode) (column : Nat) {l : Line} (hl : '\n' ∉ l) :
    (sweepLine index mode column l).Describes mode.reader column l := by
  fun_induction sweepLine index mode column l with
  | case1 | case2 => rfl
  | case3 => simp [Sweep.Describes, Mode.reader, Reader.step]
  | case4 column rest => exact ⟨[], rest, rfl, rfl, rfl⟩
  | case5 column rest =>
      have hrest : '\n' ∉ rest := by simp at hl; exact hl
      rw [Sweep.Describes, List.cons_append, List.cons_append]
      show Reader.comment.run (rest ++ ['\n']) = _
      rw [Reader.run_append, Reader.run_comment hrest]
      rfl
  | case6 column rest ih =>
      have hrest : '\n' ∉ rest := by simp at hl; exact hl
      exact Sweep.Describes.step (Sweep.Describes.step (ih hrest))
  | case7 column c rest h1 _ _ hquote ih =>
      rw [List.mem_cons, not_or] at hl
      refine Sweep.Describes.step ?_
      rcases hquote with rfl | rfl
      · exact ih hl.2
      · exact ih hl.2
  | case8 column c rest h1 hline hblock hquote ih =>
      rw [List.mem_cons, not_or] at hl
      refine Sweep.Describes.cons (fun y hy hpre => ?_) (ih hl.2)
      by_cases hslash : c = '/'
      · -- the reader waits for what follows the slash, which opens no comment
        rw [hslash]
        refine Reader.run_slash hy ?_ ?_
        · rintro t rfl
          obtain ⟨t, ht⟩ := exists_of_prefix_cons (by decide) hpre
          exact hline t hslash ht
        · rintro t rfl
          obtain ⟨t, ht⟩ := exists_of_prefix_cons (by decide) hpre
          exact hblock t hslash ht
      · have hcode : Reader.codeStep c = .code := by
          rw [Reader.codeStep, if_neg h1, if_neg hslash, if_neg hquote]
        rw [Mode.reader, Reader.run_cons, Reader.step, hcode]
  | case9 opened column rest ih =>
      have hrest : '\n' ∉ rest := by simp at hl; exact hl
      exact Sweep.Describes.step (Sweep.Describes.step (ih hrest))
  | case10 opened column c rest hclose ih =>
      rw [List.mem_cons, not_or] at hl
      refine Sweep.Describes.cons (fun y hy hpre => ?_) (ih hl.2)
      by_cases hstar : c = '*'
      · rw [hstar]
        refine Reader.run_star hy ?_
        rintro t rfl
        obtain ⟨t, ht⟩ := exists_of_prefix_cons (by decide) hpre
        exact hclose t hstar ht
      · rw [Mode.reader, Reader.run_cons, Reader.step, if_neg hstar]
  | case11 quote column c rest ih =>
      simp only [List.mem_cons, not_or] at hl
      refine Sweep.Describes.step (Sweep.Describes.step ?_)
      rw [Mode.reader, Reader.step, if_pos rfl, Reader.step, if_neg (Ne.symm hl.2.1)]
      exact ih hl.2.2
  | case12 column c rest hescape ih =>
      rw [List.mem_cons, not_or] at hl
      refine Sweep.Describes.cons (fun y hy hpre => ?_) (ih hl.2)
      by_cases hback : c = '\\'
      · rw [prefix_newline_eq hy hpre fun d t => hescape d t hback, hback]
        rfl
      · simp [Mode.reader, Reader.step, hback]
  | case13 quote column c rest hescape hquote ih =>
      rw [List.mem_cons, not_or] at hl
      refine Sweep.Describes.cons (fun y hy hpre => ?_) (ih hl.2)
      by_cases hback : c = '\\'
      · rw [prefix_newline_eq hy hpre fun d t => hescape d t hback, hback]
        simp [Mode.reader, Reader.step]
      · simp [Mode.reader, Reader.step, hback, hquote, Ne.symm hl.1]

/-- A line feed ends no search. -/
lemma live_run_newline {s : Reader} (h : s.Live) : (s.run ['\n']).Live := by
  cases s with
  | closed => exact absurd rfl h.1
  | past => exact absurd rfl h.2
  | _ => simp [Reader.step, Reader.codeStep, Reader.Live]

/-- What a search through a text means for a reader of it: the reader is closed at the delimiter,
or is not closed at all, even if the last line ends. -/
def Settles (s : Reader) (p : Position) (x : List Char) : Except ScanError Position → Prop
  | .ok d => ∃ y r, x = y ++ ';' :: r ∧ s.run (y ++ [';']) = .closed ∧ d = p.advance y
  | .error _ => (s.run (x ++ ['\n'])).Live

/-- The search through a line, and then through the lines below it. -/
lemma settles_of_sweep {start : Nat} {s : Reader} {p : Position} {l : Line} {rest : Buffer}
    {sweep : Sweep} {result : Except ScanError Position}
    (hfound : ∀ k, sweep = .found k → result = .ok ⟨p.line, k⟩)
    (hended : ∀ mode, sweep = .ended mode → result = searchLines start mode (p.line + 1) rest)
    (hl : '\n' ∉ l) (hsweep : sweep.Describes s p.column l)
    (hrest : ∀ mode, Settles mode.reader ⟨p.line + 1, 0⟩ (Buffer.text rest)
      (searchLines start mode (p.line + 1) rest)) :
    Settles s p (l ++ Buffer.below rest) result := by
  cases sweep with
  | found k =>
      rw [hfound k rfl]
      obtain ⟨x, r, rfl, hx, rfl⟩ := hsweep
      have hnl : '\n' ∉ x := fun hm => hl (List.mem_append_left _ hm)
      exact ⟨x, r ++ Buffer.below rest, by simp, hx, (Position.advance_of_not_mem hnl p).symm⟩
  | ended mode =>
      rw [hended mode rfl]
      have hrun : s.run (l ++ ['\n']) = mode.reader := hsweep
      rcases eq_or_ne rest [] with rfl | hne
      · have herror : ∃ e, searchLines start mode (p.line + 1) [] = .error e := by
          cases mode <;> exact ⟨_, rfl⟩
        obtain ⟨e, he⟩ := herror
        simp only [he, Settles, Buffer.below_nil, List.append_nil, hrun]
        exact mode.live_reader
      · have htext : l ++ Buffer.below rest = (l ++ ['\n']) ++ Buffer.text rest := by
          rw [Buffer.below_eq hne]
          simp
        have hbelow := hrest mode
        cases hsearch : searchLines start mode (p.line + 1) rest with
        | ok d =>
            rw [hsearch] at hbelow
            obtain ⟨y, r, hy, hclosed, rfl⟩ := hbelow
            refine ⟨l ++ ['\n'] ++ y, r, by rw [htext, hy]; simp, ?_, ?_⟩
            · rw [List.append_assoc, Reader.run_append, hrun, hclosed]
            · rw [Position.advance_append, Position.advance_append, Position.advance_of_not_mem hl]
              rfl
        | error e =>
            rw [hsearch] at hbelow
            rw [Settles, htext, List.append_assoc, Reader.run_append, hrun]
            exact hbelow

lemma settles_searchLines (start : Nat) {lines : Buffer} (hb : lines.Unbroken) (mode : Mode)
    (index : Nat) :
    Settles mode.reader ⟨index, 0⟩ lines.text (searchLines start mode index lines) := by
  induction lines generalizing mode index with
  | nil => cases mode <;> exact live_run_newline (Mode.live_reader _)
  | cons l rest ih =>
      have hl : '\n' ∉ l := hb l List.mem_cons_self
      have hrest : ∀ mode', Settles mode'.reader ⟨index + 1, 0⟩ (Buffer.text rest)
          (searchLines start mode' (index + 1) rest) := fun mode' =>
        ih (fun x hx => hb x (List.mem_cons_of_mem l hx)) mode' (index + 1)
      refine settles_of_sweep (p := ⟨index, 0⟩) (fun k hk => ?_) (fun mode' hmode => ?_) hl
        (sweepLine_describes index mode 0 hl) hrest
      · rw [searchLines, hk]
      · rw [searchLines, hmode]

/-- The delimiter that a buffer has from a position on is where its text is closed. -/
lemma settles_delimiter {buffer : Buffer} (hb : buffer.Unbroken) (p : Position) :
    Settles .code p (buffer.textFrom p) (delimiter buffer p) := by
  rw [delimiter, Buffer.textFrom]
  cases hdrop : buffer.drop p.line with
  | nil => exact live_run_newline (Mode.live_reader .code)
  | cons l rest =>
      have hlines : ∀ x ∈ l :: rest, '\n' ∉ x := fun x hx =>
        hb x (List.mem_of_mem_drop (hdrop ▸ hx))
      have hl : '\n' ∉ l.drop p.column := fun hm =>
        hlines l List.mem_cons_self (List.mem_of_mem_drop hm)
      have hrest : ∀ mode, Settles mode.reader ⟨p.line + 1, 0⟩ (Buffer.text rest)
          (searchLines p.line mode (p.line + 1) rest) := fun mode =>
        settles_searchLines _ (fun x hx => hlines x (List.mem_cons_of_mem l hx)) mode (p.line + 1)
      refine settles_of_sweep (fun k hk => ?_) (fun mode hmode => ?_) hl
        (sweepLine_describes p.line .code p.column hl) hrest
      · simp only [hk]
      · simp only [hmode]

lemma delimiter_eq_ok {buffer : Buffer} (hb : buffer.Unbroken) {p : Position} {x r : List Char}
    (h : buffer.textFrom p = x ++ ';' :: r) (hx : Reader.code.run (x ++ [';']) = .closed) :
    delimiter buffer p = .ok (p.advance x) := by
  have hsettles := settles_delimiter hb p
  rw [h] at hsettles
  cases hd : delimiter buffer p with
  | ok d =>
      rw [hd] at hsettles
      obtain ⟨y, r', hy, hclosed, rfl⟩ := hsettles
      rw [List.append_cons, List.append_cons y] at hy
      obtain ⟨hxy, -⟩ := Reader.closed_unique hx hclosed hy
      rw [List.append_cancel_right hxy]
  | error e =>
      have hsplit : x ++ ';' :: r ++ ['\n'] = (x ++ [';']) ++ (r ++ ['\n']) := by simp
      rw [hd, Settles, hsplit] at hsettles
      exact absurd hx hsettles.of_run.1

/-! ### Comments behind a delimiter -/

/-- A blank that does not end a line. -/
def inlineBlank (c : Char) : Bool := isBlank c && c != '\n'

/-- Whether a line comment follows on the same line. -/
def commentAhead (x : List Char) : Bool :=
  ['/', '/'].isPrefixOf (x.dropWhile inlineBlank)

/-- What a statement takes of the text behind its delimiter. -/
def trailing (x : List Char) : List Char :=
  if commentAhead x then x.takeWhile (· != '\n') else []

/-- A text is nothing, or goes on with a line feed. -/
def AtLineEnd (x : List Char) : Prop := x = [] ∨ ∃ r, x = '\n' :: r

/-- A statement takes the comment behind its delimiter and leaves the rest. -/
def Leaves (comment rest : List Char) : Prop :=
  comment = [] ∧ commentAhead rest = false ∨
    commentAhead comment = true ∧ '\n' ∉ comment ∧ AtLineEnd rest

lemma commentAhead_newline (x : List Char) : commentAhead ('\n' :: x) = false := by
  rw [commentAhead, List.dropWhile_cons_of_neg (by decide)]
  rfl

lemma commentAhead_cons_of_blank {c : Char} (hc : inlineBlank c = true) (x : List Char) :
    commentAhead (c :: x) = commentAhead x := by
  rw [commentAhead, List.dropWhile_cons_of_pos hc, commentAhead]

lemma commentAhead_cons_of_not_blank {c : Char} (hc : inlineBlank c = false) (x : List Char) :
    commentAhead (c :: x) = (c == '/' && ['/'].isPrefixOf x) := by
  rw [commentAhead, List.dropWhile_cons_of_neg (by simp [hc]), List.isPrefixOf_cons_cons,
    Bool.beq_comm]

/-- What stands on later lines does not matter. -/
lemma commentAhead_append_newline (x y : List Char) :
    commentAhead (x ++ '\n' :: y) = commentAhead x := by
  induction x with
  | nil => exact commentAhead_newline y
  | cons c x ih =>
      by_cases hc : inlineBlank c = true
      · rw [List.cons_append, commentAhead_cons_of_blank hc, commentAhead_cons_of_blank hc, ih]
      · rw [List.cons_append, commentAhead_cons_of_not_blank (by simpa using hc),
          commentAhead_cons_of_not_blank (by simpa using hc)]
        cases x <;> rfl

/-- On one line it is enough to look past the blanks. -/
lemma isPrefixOf_trimStart {l : Line} (hl : '\n' ∉ l) :
    ['/', '/'].isPrefixOf (trimStart l) = commentAhead l := by
  have hsame : l.dropWhile inlineBlank = l.dropWhile isBlank := by
    induction l with
    | nil => rfl
    | cons c l ih =>
        rw [List.mem_cons, not_or] at hl
        have hc : inlineBlank c = isBlank c := by simp [inlineBlank, Ne.symm hl.1]
        by_cases hb : isBlank c = true
        · rw [List.dropWhile_cons_of_pos (hc ▸ hb), List.dropWhile_cons_of_pos hb, ih hl.2]
        · rw [List.dropWhile_cons_of_neg (hc ▸ hb), List.dropWhile_cons_of_neg hb]
  rw [commentAhead, trimStart, hsame]

lemma commentAhead_append {x y : List Char} (hy : AtLineEnd y) :
    commentAhead (x ++ y) = commentAhead x := by
  rcases hy with rfl | ⟨y, rfl⟩
  · rw [List.append_nil]
  · exact commentAhead_append_newline x y

lemma atLineEnd_dropWhile (x : List Char) : AtLineEnd (x.dropWhile (· != '\n')) := by
  induction x with
  | nil => exact Or.inl rfl
  | cons c x ih =>
      by_cases hc : c = '\n'
      · exact Or.inr ⟨x, by simp [hc]⟩
      · simpa [hc] using ih

lemma not_mem_takeWhile (x : List Char) : '\n' ∉ x.takeWhile (· != '\n') := by
  intro h
  have hall := List.all_eq_true.mp (List.all_takeWhile (p := (· != '\n')) (l := x)) _ h
  simp at hall

lemma takeWhile_append_of_atLineEnd {x y : List Char} (hx : '\n' ∉ x) (hy : AtLineEnd y) :
    (x ++ y).takeWhile (· != '\n') = x := by
  have hall : ∀ c ∈ x, (c != '\n') = true := by
    intro c hc
    simpa using fun h : c = '\n' => hx (h ▸ hc)
  rw [List.takeWhile_append_of_pos hall]
  rcases hy with rfl | ⟨y, rfl⟩ <;> simp

/-- A text is what a statement takes of it and what it leaves. -/
lemma exists_leaves (x : List Char) :
    ∃ rest, x = trailing x ++ rest ∧ Leaves (trailing x) rest := by
  rw [trailing]
  by_cases h : commentAhead x = true
  · rw [if_pos h]
    refine ⟨x.dropWhile (· != '\n'), List.takeWhile_append_dropWhile.symm, Or.inr ?_⟩
    refine ⟨?_, not_mem_takeWhile x, atLineEnd_dropWhile x⟩
    rw [← commentAhead_append (atLineEnd_dropWhile x), List.takeWhile_append_dropWhile]
    exact h
  · rw [if_neg h]
    exact ⟨x, rfl, Or.inl ⟨rfl, by simpa using h⟩⟩

lemma trailing_append {comment rest : List Char} (h : Leaves comment rest) :
    trailing (comment ++ rest) = comment := by
  rcases h with ⟨rfl, h⟩ | ⟨hcomment, hnl, hrest⟩
  · simp [trailing, h]
  · rw [trailing, commentAhead_append hrest, if_pos hcomment,
      takeWhile_append_of_atLineEnd hnl hrest]

/-- A statement stops at its delimiter, or at the end of the comment behind it. -/
lemma includeTrailingComment_eq {buffer : Buffer} (hb : buffer.Unbroken) {d : Position}
    {x : List Char} (h : buffer.textFrom d = ';' :: x) :
    includeTrailingComment buffer d = ⟨d.line, d.column + (trailing x).length⟩ := by
  obtain ⟨l, rest, hdrop⟩ := Buffer.drop_of_textFrom_ne_nil (h ▸ List.cons_ne_nil _ _)
  have hget : buffer[d.line]? = some l := by
    rw [← List.head?_drop, hdrop, List.head?_cons]
  have hl : '\n' ∉ l := hb l (List.mem_of_mem_drop (hdrop ▸ List.mem_cons_self))
  have hrest : AtLineEnd (Buffer.below rest) := by
    cases rest with
    | nil => exact Or.inl rfl
    | cons next rest => exact Or.inr ⟨_, rfl⟩
  -- the delimiter is on its line, and the text behind it begins with the rest of the line
  rw [Buffer.textFrom, hdrop] at h
  obtain ⟨l', hl', hx⟩ : ∃ l', l.drop d.column = ';' :: l' ∧ x = l' ++ Buffer.below rest := by
    cases hcol : l.drop d.column with
    | nil =>
        simp only [hcol, List.nil_append] at h
        rcases hrest with hr | ⟨r, hr⟩ <;> simp [hr] at h
    | cons c l' =>
        simp only [hcol, List.cons_append, List.cons.injEq] at h
        exact ⟨l', by rw [h.1], h.2.symm⟩
  have htail : l.drop (d.column + 1) = l' := by
    rw [← List.tail_drop, hl', List.tail_cons]
  have hnl : '\n' ∉ l' := fun hm => hl (List.mem_of_mem_drop (htail ▸ hm))
  have hlength : l.length = d.column + 1 + l'.length := by
    have hlt : d.column < l.length := by
      by_contra hge
      rw [List.drop_eq_nil_of_le (not_lt.mp hge)] at hl'
      simp at hl'
    rw [← htail, List.length_drop]
    omega
  rw [includeTrailingComment, hget]
  simp only [htail]
  rw [hx, trailing, commentAhead_append hrest, ← isPrefixOf_trimStart hnl,
    takeWhile_append_of_atLineEnd hnl hrest]
  split
  · next t heq =>
      simp [heq, hlength]
  · next hno =>
      have hnone : ['/', '/'].isPrefixOf (trimStart l') = false := by
        rw [Bool.eq_false_iff, Ne, List.isPrefixOf_iff_prefix]
        rintro ⟨t, ht⟩
        exact hno t ht.symm
      simp [hnone]

end LintRepair
