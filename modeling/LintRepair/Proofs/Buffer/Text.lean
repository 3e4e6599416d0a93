import LintRepair.Position
import LintRepair.Proofs.Text.Blank

/-!
Buffers read as one text.

Joined by line feeds, the lines of a buffer make one text. As long as no line holds a line feed
itself (`Unbroken`), positions of the buffer and prefixes of the text are the same thing, and what
the buffer's functions find is found in the text.

* `Position.advance`: the position that is reached by reading a text from a position on.
* `textFrom`: the text of a buffer from a position on; `textFrom_advance` says that reading a part
  of it leads to the rest of it.
* `line_advance`: line feeds count lines.
* `text_split`, `locate`: the text around a line, and the line on which a prefix of the text ends.
* `firstVisible_eq`: the first visible character is past the leading blanks of the text.
* `excerpt_append`, `excerpt_eq`, `excerpt_lastPosition`: an excerpt is a part of the text.
-/

namespace LintRepair

namespace Position

/-- The position past a character that is read at `p`. -/
def step (p : Position) (c : Char) : Position :=
  if c = '\n' then ⟨p.line + 1, 0⟩ else p.next

/-- The position past a text that is read from `p` on. -/
def advance (p : Position) (text : List Char) : Position := text.foldl step p

@[simp] lemma advance_nil (p : Position) : p.advance [] = p := rfl

@[simp] lemma advance_cons (p : Position) (c : Char) (text : List Char) :
    p.advance (c :: text) = (p.step c).advance text := rfl

lemma advance_append (p : Position) (x y : List Char) :
    p.advance (x ++ y) = (p.advance x).advance y := by
  rw [advance, List.foldl_append]
  rfl

/-- Without a line feed the position moves along its line. -/
lemma advance_of_not_mem {x : List Char} (h : '\n' ∉ x) (p : Position) :
    p.advance x = ⟨p.line, p.column + x.length⟩ := by
  induction x generalizing p with
  | nil => rfl
  | cons c x ih =>
      rw [List.mem_cons, not_or] at h
      rw [advance_cons, step, if_neg (Ne.symm h.1), ih h.2, next, List.length_cons]
      simp only [mk.injEq, true_and]
      omega

/-- A line feed in front leads to the first column of the next line. -/
lemma advance_newline (p : Position) (x : List Char) :
    p.advance ('\n' :: x) = (⟨p.line + 1, 0⟩ : Position).advance x := rfl

/-- Every line feed leads to the next line. -/
lemma line_advance (p : Position) (x : List Char) :
    (p.advance x).line = p.line + x.count '\n' := by
  induction x generalizing p with
  | nil => rfl
  | cons c x ih =>
      rw [advance_cons, ih, List.count_cons, step]
      by_cases hc : c = '\n'
      · simp only [hc, beq_self_eq_true, if_true]
        omega
      · simp [hc, next]

/-- A text goes on on the line on which it began as long as there is no line feed. -/
lemma line_advance_append (p : Position) (x : List Char) {y : List Char} (hy : '\n' ∉ y) :
    (p.advance (x ++ y)).line = (p.advance x).line := by
  rw [advance_append, line_advance _ y, List.count_eq_zero_of_not_mem hy, Nat.add_zero]

lemma lt_step (p : Position) (c : Char) : p < p.step c := by
  rw [step, lt_def]
  split_ifs
  · exact Or.inl (Nat.lt_succ_self _)
  · exact Or.inr ⟨rfl, Nat.lt_succ_self _⟩

lemma lt_of_lt_of_le {p q r : Position} (hpq : p < q) (hqr : q ≤ r) : p < r := by
  rw [lt_def] at *
  rw [le_def] at hqr
  omega

lemma le_of_lt {p q : Position} (h : p < q) : p ≤ q := by
  rw [lt_def] at h
  rw [le_def]
  omega

lemma not_lt_of_le {p q : Position} (h : p ≤ q) : ¬ q < p := by
  rw [le_def] at h
  rw [lt_def]
  omega

/-- Reading never goes back. -/
lemma le_advance (p : Position) (x : List Char) : p ≤ p.advance x := by
  induction x generalizing p with
  | nil => exact le_refl p
  | cons c x ih => exact le_trans (le_of_lt (lt_step p c)) (ih _)

/-- Reading the last character of a text goes one step on. -/
lemma advance_dropLast {x : List Char} (h : x ≠ []) (p : Position) :
    (p.advance x.dropLast).step (x.getLast h) = p.advance x := by
  conv_rhs => rw [← List.dropLast_append_getLast h, advance_append]
  rfl

end Position

namespace Buffer

/-- No line of the buffer holds a line feed. -/
def Unbroken (buffer : Buffer) : Prop := ∀ l ∈ buffer, '\n' ∉ l

/-- The text of lines that stand above something. -/
def above (lines : Buffer) : List Char := lines.flatMap (· ++ ['\n'])

/-- The text of lines that stand below something. -/
def below (lines : Buffer) : List Char := lines.flatMap ('\n' :: ·)

/-- The text of a buffer, its lines joined by line feeds. -/
def text : Buffer → List Char
  | [] => []
  | line :: rest => line ++ below rest

/-- The text of a buffer from a position on. -/
def textFrom (buffer : Buffer) (p : Position) : List Char :=
  match buffer.drop p.line with
  | [] => []
  | line :: rest => line.drop p.column ++ below rest

@[simp] lemma below_nil : below [] = [] := rfl

@[simp] lemma below_cons (line : Line) (rest : Buffer) :
    below (line :: rest) = '\n' :: (line ++ below rest) := rfl

@[simp] lemma above_nil : above [] = [] := rfl

@[simp] lemma above_cons (line : Line) (rest : Buffer) :
    above (line :: rest) = line ++ '\n' :: above rest := by
  simp [above]

lemma above_append (x y : Buffer) : above (x ++ y) = above x ++ above y := by
  simp [above]

lemma below_append (x y : Buffer) : below (x ++ y) = below x ++ below y := by
  simp [below]

/-- A text that stands below another one begins with a line feed. -/
lemma below_eq {lines : Buffer} (h : lines ≠ []) : below lines = '\n' :: text lines := by
  cases lines with
  | nil => exact absurd rfl h
  | cons line rest => rfl

/-- A text that stands above another one ends with a line feed. -/
lemma above_eq {lines : Buffer} (h : lines ≠ []) : above lines = text lines ++ ['\n'] := by
  induction lines with
  | nil => exact absurd rfl h
  | cons line rest ih =>
      cases rest with
      | nil => simp [text]
      | cons next rest =>
          rw [above_cons, ih (List.cons_ne_nil _ _)]
          simp [text]

/-- The text of two buffers one above the other. -/
lemma text_append {lower : Buffer} (upper : Buffer) (h : lower ≠ []) :
    text (upper ++ lower) = above upper ++ text lower := by
  cases upper with
  | nil => rfl
  | cons line rest =>
      rw [above_eq (List.cons_ne_nil _ _), List.cons_append, text, text, below_append,
        below_eq h]
      simp

/-- The text around a line. -/
lemma text_split (upper : Buffer) (line : Line) (lower : Buffer) :
    text (upper ++ line :: lower) = above upper ++ (line ++ below lower) :=
  text_append upper (List.cons_ne_nil _ _)

lemma textFrom_line (buffer : Buffer) (index : Nat) :
    textFrom buffer ⟨index, 0⟩ = text (buffer.drop index) := by
  rw [textFrom]
  cases buffer.drop index <;> rfl

@[simp] lemma textFrom_zero (buffer : Buffer) : textFrom buffer ⟨0, 0⟩ = text buffer :=
  textFrom_line buffer 0

/-! ### Positions and prefixes -/

/-- One character of the text is read in one step. -/
lemma textFrom_step {buffer : Buffer} (hb : Unbroken buffer) {p : Position} {c : Char}
    {r : List Char} (h : textFrom buffer p = c :: r) : textFrom buffer (p.step c) = r := by
  rw [textFrom] at h
  split at h
  · simp at h
  · next line rest hdrop =>
      have htail : buffer.drop (p.line + 1) = rest := by
        rw [← List.tail_drop, hdrop, List.tail_cons]
      have hline : '\n' ∉ line :=
        hb line (List.mem_of_mem_drop (hdrop ▸ List.mem_cons_self))
      cases hcol : line.drop p.column with
      | nil =>
          -- the line is used up, so the character is the line feed behind it
          rw [hcol, List.nil_append] at h
          cases rest with
          | nil => simp at h
          | cons next rest =>
              rw [below_cons, List.cons.injEq] at h
              obtain ⟨rfl, rfl⟩ := h
              simp [Position.step, textFrom, htail]
      | cons d ds =>
          rw [hcol, List.cons_append, List.cons.injEq] at h
          obtain ⟨rfl, rfl⟩ := h
          have hd : d ≠ '\n' := by
            rintro rfl
            exact hline (List.mem_of_mem_drop (hcol ▸ List.mem_cons_self))
          have hnext : line.drop (p.column + 1) = ds := by
            rw [← List.tail_drop, hcol, List.tail_cons]
          simp [Position.step, if_neg hd, Position.next, textFrom, hdrop, hnext]

/-- Reading a part of the text leads to the rest of it. -/
lemma textFrom_advance {buffer : Buffer} (hb : Unbroken buffer) {p : Position}
    {x r : List Char} (h : textFrom buffer p = x ++ r) : textFrom buffer (p.advance x) = r := by
  induction x generalizing p with
  | nil => exact h
  | cons c x ih => exact ih (textFrom_step hb h)

/-- A position with text left is on a line of the buffer. -/
lemma drop_of_textFrom_ne_nil {buffer : Buffer} {p : Position} (h : textFrom buffer p ≠ []) :
    ∃ line rest, buffer.drop p.line = line :: rest := by
  cases hdrop : buffer.drop p.line with
  | nil => simp [textFrom, hdrop] at h
  | cons line rest => exact ⟨line, rest, rfl⟩

/-- The line on which a prefix of the text ends, with the parts of the buffer around it. -/
lemma locate {buffer : Buffer} (hb : Unbroken buffer) (hne : buffer ≠ []) {x r : List Char}
    (h : text buffer = x ++ r) :
    ∃ upper line lower, buffer = upper ++ line :: lower ∧
      ((⟨0, 0⟩ : Position).advance x).line = upper.length ∧
      ((⟨0, 0⟩ : Position).advance x).column ≤ line.length ∧
      x = above upper ++ line.take ((⟨0, 0⟩ : Position).advance x).column := by
  induction x using List.reverseRecOn generalizing r with
  | nil =>
      obtain ⟨line, lower, rfl⟩ := List.exists_cons_of_ne_nil hne
      exact ⟨[], line, lower, rfl, rfl, Nat.zero_le _, by simp⟩
  | append_singleton x c ih =>
      rw [List.append_assoc] at h
      obtain ⟨upper, line, lower, rfl, hl, hc, hx⟩ := ih h
      set q := (⟨0, 0⟩ : Position).advance x with hq
      have hline : '\n' ∉ line := hb line (by simp)
      have hrest : line.drop q.column ++ below lower = c :: r := by
        have h2 := h
        rw [text_split, hx, List.append_assoc, List.append_cancel_left_eq] at h2
        conv_lhs at h2 => rw [← List.take_append_drop q.column line]
        rw [List.append_assoc, List.append_cancel_left_eq] at h2
        exact h2
      rw [Position.advance_append, ← hq]
      cases hcol : line.drop q.column with
      | nil =>
          -- the line is used up, and the prefix goes on to the next one
          rw [hcol, List.nil_append] at hrest
          cases lower with
          | nil => simp at hrest
          | cons next lower =>
              rw [below_cons, List.cons.injEq] at hrest
              obtain ⟨rfl, -⟩ := hrest
              have hfull : line.take q.column = line :=
                List.take_of_length_le (List.drop_eq_nil_iff.mp hcol)
              refine ⟨upper ++ [line], next, lower, by simp, ?_, Nat.zero_le _, ?_⟩
              · simp [Position.step, hl]
              · rw [hx, hfull]
                simp [Position.step, above_append]
      | cons d ds =>
          rw [hcol, List.cons_append, List.cons.injEq] at hrest
          obtain ⟨rfl, -⟩ := hrest
          have hd : d ≠ '\n' := by
            rintro rfl
            exact hline (List.mem_of_mem_drop (hcol ▸ List.mem_cons_self))
          have hlt : q.column < line.length := by
            by_contra hge
            rw [List.drop_eq_nil_of_le (not_lt.mp hge)] at hcol
            simp at hcol
          have hget : List.take 1 (line.drop q.column) = [d] := by rw [hcol]; rfl
          have hstep : q.advance [d] = ⟨q.line, q.column + 1⟩ := by
            simp [Position.step, if_neg hd, Position.next]
          refine ⟨upper, line, lower, rfl, by rw [hstep]; exact hl, by rw [hstep]; exact hlt, ?_⟩
          rw [hstep, List.take_add, hget, ← List.append_assoc, ← hx]

/-! ### The first visible character -/

/-- Leading blanks of a line that has a visible character end in front of it. -/
lemma takeWhile_of_findIdx {l : Line} {k : Nat} (h : l.findIdx? (!isBlank ·) = some k)
    (x : List Char) :
    (l ++ x).takeWhile isBlank = l.take k ∧ allBlank (l ++ x) = false := by
  obtain ⟨hlt, hk⟩ := List.findIdx?_eq_some_iff_findIdx_eq.mp h
  have hvisible : isBlank l[k] = false := by
    obtain ⟨hlt', hp, -⟩ := List.findIdx?_eq_some_iff_getElem.mp h
    simpa using hp
  constructor
  · have htake : l.takeWhile isBlank = l.take k := by
      rw [List.takeWhile_eq_take_findIdx_not, hk]
    have hshort : (l.take k).length ≠ l.length := by
      rw [List.length_take]
      omega
    rw [List.takeWhile_append, htake, if_neg hshort]
  · rw [allBlank_append, Bool.and_eq_false_iff]
    left
    rw [allBlank, List.all_eq_false]
    exact ⟨l[k], List.getElem_mem hlt, by simp [hvisible]⟩

/-- A line without a visible character is skipped as a whole. -/
lemma takeWhile_of_findIdx_none {l : Line} (h : l.findIdx? (!isBlank ·) = none) (x : List Char) :
    (l ++ x).takeWhile isBlank = l ++ x.takeWhile isBlank ∧ allBlank (l ++ x) = allBlank x := by
  have hall : ∀ c ∈ l, isBlank c = true := by simpa using h
  constructor
  · exact List.takeWhile_append_of_pos hall
  · rw [allBlank_append, allBlank, List.all_eq_true.mpr hall, Bool.true_and]

lemma firstVisibleBelow_eq {lines : Buffer} (hb : Unbroken lines) (p : Position) :
    firstVisibleBelow (p.line + 1) lines =
      if allBlank (below lines) then none
      else some (p.advance ((below lines).takeWhile isBlank)) := by
  induction lines generalizing p with
  | nil => rfl
  | cons l rest ih =>
      have hl : '\n' ∉ l := hb l List.mem_cons_self
      have hblank : ∀ x, allBlank ('\n' :: x) = allBlank x := fun x => by
        simp [allBlank, isBlank_newline]
      have htake : ∀ x : List Char,
          ('\n' :: x).takeWhile isBlank = '\n' :: x.takeWhile isBlank := fun x => by
        simp [isBlank_newline]
      rw [firstVisibleBelow, below_cons, hblank, htake, Position.advance_newline]
      cases hfind : l.findIdx? (!isBlank ·) with
      | some k =>
          obtain ⟨htk, hab⟩ := takeWhile_of_findIdx hfind (below rest)
          obtain ⟨hlt, -⟩ := List.findIdx?_eq_some_iff_findIdx_eq.mp hfind
          rw [htk, hab, Position.advance_of_not_mem fun hm => hl (List.mem_of_mem_take hm)]
          simp [Nat.min_eq_left hlt.le]
      | none =>
          obtain ⟨htk, hab⟩ := takeWhile_of_findIdx_none hfind (below rest)
          have hrest := ih (fun x hx => hb x (List.mem_cons_of_mem l hx))
            ((⟨p.line + 1, 0⟩ : Position).advance l)
          rw [Position.advance_of_not_mem hl] at hrest
          rw [htk, hab, Position.advance_append, Position.advance_of_not_mem hl]
          exact hrest

/-- The first visible character is past the leading blanks of the text. -/
lemma firstVisible_eq {buffer : Buffer} (hb : Unbroken buffer) (p : Position) :
    buffer.firstVisible p =
      if allBlank (textFrom buffer p) then none
      else some (p.advance ((textFrom buffer p).takeWhile isBlank)) := by
  rw [firstVisible, textFrom]
  cases hdrop : buffer.drop p.line with
  | nil => rfl
  | cons l rest =>
      have hlines : ∀ x ∈ l :: rest, '\n' ∉ x := fun x hx =>
        hb x (List.mem_of_mem_drop (hdrop ▸ hx))
      have hl : '\n' ∉ l.drop p.column := fun hm =>
        hlines l List.mem_cons_self (List.mem_of_mem_drop hm)
      cases hfind : (l.drop p.column).findIdx? (!isBlank ·) with
      | some k =>
          obtain ⟨htk, hab⟩ := takeWhile_of_findIdx hfind (below rest)
          obtain ⟨hlt, -⟩ := List.findIdx?_eq_some_iff_findIdx_eq.mp hfind
          simp only [hfind, htk, hab]
          rw [Position.advance_of_not_mem fun hm => hl (List.mem_of_mem_take hm)]
          simp only [List.length_take, Nat.min_eq_left hlt.le]
          rfl
      | none =>
          obtain ⟨htk, hab⟩ := takeWhile_of_findIdx_none hfind (below rest)
          simp only [hfind, htk, hab]
          rw [Position.advance_append, Position.advance_of_not_mem hl]
          exact firstVisibleBelow_eq (fun x hx => hlines x (List.mem_cons_of_mem l hx))
            ⟨p.line, p.column + (l.drop p.column).length⟩

/-! ### Excerpts -/

/-- An excerpt that goes on past a line begins with the rest of that line. -/
lemma excerpt_of_lt {buffer : Buffer} {p q : Position} {l : Line} {rest : Buffer}
    (hdrop : buffer.drop p.line = l :: rest) (hq : q.line < buffer.length)
    (hpq : p.line < q.line) :
    buffer.excerpt p q = l.drop p.column ++ '\n' :: buffer.excerpt ⟨p.line + 1, 0⟩ q := by
  have htail : buffer.drop (p.line + 1) = rest := by
    rw [← List.tail_drop, hdrop, List.tail_cons]
  obtain ⟨k, hk⟩ : ∃ k, q.line = p.line + 1 + k := ⟨q.line - (p.line + 1), by omega⟩
  have hrest : rest.length = buffer.length - (p.line + 1) := by
    rw [← htail, List.length_drop]
  obtain ⟨l', rest', rfl⟩ : ∃ l' rest', rest = l' :: rest' :=
    List.exists_cons_of_length_pos (by omega)
  have hcount : q.line + 1 - p.line = k + 1 + 1 := by omega
  have hcount' : q.line + 1 - (p.line + 1) = k + 1 := by omega
  have hsame : ∀ entry ∈ (rest'.take k).zipIdx (p.line + 1 + 1),
      excerptLine p q entry.1 entry.2 = excerptLine ⟨p.line + 1, 0⟩ q entry.1 entry.2 := by
    intro entry hentry
    have hge := List.le_snd_of_mem_zipIdx hentry
    have hne : entry.2 ≠ p.line := by omega
    simp [excerptLine, hne]
  rw [excerpt, excerpt, hdrop, htail, hcount, hcount']
  simp only [List.take_succ_cons, List.zipIdx_cons, List.map_cons]
  rw [List.map_congr_left hsame, List.intercalate_cons_cons]
  simp [excerptLine, hpq.ne]

/-- An excerpt and the text past it make up the text from its start on. -/
lemma excerpt_append {buffer : Buffer} {p q : Position} (hq : q.line < buffer.length)
    (hle : p.line ≤ q.line) (hcol : p.line = q.line → p.column ≤ q.column + 1) :
    buffer.excerpt p q ++ textFrom buffer q.next = textFrom buffer p := by
  obtain ⟨k, hk⟩ : ∃ k, q.line = p.line + k := ⟨q.line - p.line, by omega⟩
  induction k generalizing p with
  | zero =>
      have hline : q.line = p.line := hk
      have hdrop : buffer.drop p.line = buffer[p.line] :: buffer.drop (p.line + 1) :=
        List.drop_eq_getElem_cons (by omega)
      have hcols : p.column ≤ q.column + 1 := hcol hline.symm
      rw [excerpt, textFrom, textFrom, Position.next, hline, hdrop,
        show p.line + 1 - p.line = 1 by omega]
      simp only [List.take_succ_cons, List.take_zero, List.zipIdx_cons, List.zipIdx_nil,
        List.map_cons, List.map_nil, List.intercalate_singleton, excerptLine, hline, if_true]
      have hrest : (buffer[p.line]).drop (q.column + 1) =
          ((buffer[p.line]).drop p.column).drop (q.column + 1 - p.column) := by
        rw [List.drop_drop, Nat.add_sub_cancel' hcols]
      rw [List.drop_take, hrest, ← List.append_assoc, List.take_append_drop]
  | succ k ih =>
      have hdrop : buffer.drop p.line = buffer[p.line] :: buffer.drop (p.line + 1) :=
        List.drop_eq_getElem_cons (by omega)
      have hnext : buffer.drop (p.line + 1) ≠ [] := by
        rw [Ne, List.drop_eq_nil_iff]
        omega
      have hrest := ih (p := ⟨p.line + 1, 0⟩) (by simp only; omega) (by simp) (by simp only; omega)
      rw [excerpt_of_lt hdrop hq (by omega), List.append_assoc, List.cons_append, hrest,
        textFrom_line, ← below_eq hnext, textFrom, hdrop]

lemma line_lt_of_textFrom_ne_nil {buffer : Buffer} {p : Position} (h : textFrom buffer p ≠ []) :
    p.line < buffer.length := by
  obtain ⟨l, rest, hdrop⟩ := drop_of_textFrom_ne_nil h
  by_contra hge
  rw [List.drop_eq_nil_of_le (not_lt.mp hge)] at hdrop
  simp at hdrop

/-- The excerpt over a part of the text is that part. -/
lemma excerpt_eq {buffer : Buffer} (hb : Unbroken buffer) {p : Position} {x r : List Char}
    {c : Char} (h : textFrom buffer p = x ++ c :: r) (hc : c ≠ '\n') :
    buffer.excerpt p (p.advance x) = x ++ [c] := by
  have hrest : textFrom buffer (p.advance x) = c :: r := textFrom_advance hb h
  have hnext : textFrom buffer (p.advance x).next = r := by
    have hstep := textFrom_step hb hrest
    rwa [Position.step, if_neg hc] at hstep
  have hlen : (p.advance x).line < buffer.length :=
    line_lt_of_textFrom_ne_nil (hrest ▸ List.cons_ne_nil c r)
  have hle := Position.le_def.mp (Position.le_advance p x)
  have happ := excerpt_append (p := p) hlen (by omega) (by omega)
  rw [hnext, h, List.append_cons] at happ
  exact List.append_cancel_right happ

/-- The excerpt up to the last position is all the text. -/
lemma excerpt_lastPosition {buffer : Buffer} {p : Position} (h : textFrom buffer p ≠ []) :
    buffer.excerpt p buffer.lastPosition = textFrom buffer p := by
  have hp := line_lt_of_textFrom_ne_nil h
  have hne : buffer ≠ [] := by
    rintro rfl
    simp at hp
  have hlast : buffer.drop (buffer.length - 1) = [buffer.getLast hne] :=
    List.drop_length_sub_one hne
  have hlen : buffer.length - 1 < buffer.length := by omega
  have hend : textFrom buffer buffer.lastPosition.next = [] := by
    rw [lastPosition, Position.next, textFrom, hlast, List.getLastD_eq_getLast?,
      List.getLast?_eq_getLast_of_ne_nil hne]
    simp only [Option.getD_some, below_nil, List.append_nil, List.drop_eq_nil_iff]
    omega
  have hcol : p.line = buffer.length - 1 → p.column ≤ buffer.lastPosition.column + 1 := by
    intro hline
    rw [textFrom, hline, hlast] at h
    simp only [below_nil, List.append_nil, ne_eq, List.drop_eq_nil_iff, not_le] at h
    rw [lastPosition, List.getLastD_eq_getLast?, List.getLast?_eq_getLast_of_ne_nil hne]
    simp only [Option.getD_some]
    omega
  have happ := excerpt_append (p := p) (q := buffer.lastPosition) hlen
    (by rw [lastPosition]; simp only; omega) hcol
  rwa [hend, List.append_nil] at happ

end Buffer

end LintRepair
