import LintRepair.Proofs.Statement.Search

/-!
The statements of a text.

A text that can be told apart is a list of pieces: statements, each with the blanks in front of it.
Everything up to the body is found by reading on from where the statement before stopped, so the
pieces of a text depend on nothing but the text, and the statements of a buffer are its pieces put
in their places.

* `Delimited`: a text from a visible character to its first delimiter.
* `Reads`: the pieces of a text, the last one being the body.
* `Piece.place`, `placed`: the statements that pieces make from a position on.
* `statementsFrom_of_reads`, `exists_reads`: the statements of a buffer are the pieces of
  its text; `statements_iff_reads` for whole buffers.
-/

namespace LintRepair

/-- A text that begins with a visible character and ends with its first delimiter. -/
structure Delimited (x : List Char) : Prop where
  visible : ∃ c t, x = c :: t ∧ isBlank c = false
  closed : Reader.code.run x = .closed

/-- A statement of a text with the blanks in front of it. -/
structure Piece where
  gap : List Char
  text : List Char

namespace Piece

/-- The part of a text that a piece takes up. -/
def source (piece : Piece) : List Char := piece.gap ++ piece.text

/-- The text that pieces make up. -/
def flat (pieces : List Piece) : List Char := pieces.flatMap source

/-- The statement that a piece makes at a position. -/
def place (p : Position) (piece : Piece) : Statement :=
  ⟨p.advance piece.gap, (p.advance piece.gap).advance piece.text.dropLast, piece.text⟩

/-- The statements that pieces make from a position on. -/
def spans (p : Position) : List Piece → List Statement
  | [] => []
  | piece :: rest => piece.place p :: spans (p.advance piece.source) rest

/-- The statements that pieces make from a position on, the last one being the body, which goes up
to the given position. -/
def placed (last : Position) : Position → List Piece → List Statement
  | _, [] => []
  | p, [body] => [{ body.place p with stop := last }]
  | p, piece :: rest => piece.place p :: placed last (p.advance piece.source) rest

@[simp] lemma flat_nil : flat [] = [] := rfl

@[simp] lemma flat_cons (piece : Piece) (rest : List Piece) :
    flat (piece :: rest) = piece.gap ++ (piece.text ++ flat rest) := by
  simp [flat, source]

lemma flat_append (x y : List Piece) : flat (x ++ y) = flat x ++ flat y := by
  simp [flat]

lemma placed_cons (last p : Position) (piece : Piece) {rest : List Piece} (h : rest ≠ []) :
    placed last p (piece :: rest) = piece.place p :: placed last (p.advance piece.source) rest := by
  cases rest with
  | nil => exact absurd rfl h
  | cons next rest => rfl

/-- In front of the body, statements do not depend on what follows. -/
lemma placed_append (last p : Position) (x : List Piece) {y : List Piece} (h : y ≠ []) :
    placed last p (x ++ y) = spans p x ++ placed last (p.advance (flat x)) y := by
  induction x generalizing p with
  | nil => rfl
  | cons piece x ih =>
      rw [List.cons_append, placed_cons last p piece (by simp [h]), ih, spans, List.cons_append,
        flat_cons, Position.advance_append, Position.advance_append, source,
        Position.advance_append]

lemma map_text_placed (last p : Position) (x : List Piece) :
    (placed last p x).map Statement.text = x.map Piece.text := by
  induction x generalizing p with
  | nil => rfl
  | cons piece x ih =>
      cases x with
      | nil => rfl
      | cons next x =>
          rw [placed_cons last p piece (by simp), List.map_cons, ih]
          rfl

end Piece

/-- The pieces of a text. `afterImport` says whether an import stands in front of it. The first
statement after an import that is none itself begins the body, which is the rest of the text. -/
inductive Reads : Bool → List Char → List Piece → Prop
  | body {gap core rest : List Char} (hgap : allBlank gap = true) (hcore : Delimited core)
      (himport : declaresImport core = false) :
      Reads true (gap ++ (core ++ rest)) [⟨gap, core ++ rest⟩]
  | next {afterImport : Bool} {gap core comment rest : List Char} {pieces : List Piece}
      (hgap : allBlank gap = true) (hcore : Delimited core)
      (himport : afterImport = true → declaresImport core = true) (hleaves : Leaves comment rest)
      (hrest : Reads (declaresImport core) rest pieces) :
      Reads afterImport (gap ++ (core ++ (comment ++ rest))) (⟨gap, core ++ comment⟩ :: pieces)

/-! ### One statement -/

lemma Delimited.exists_eq {core : List Char} (h : Delimited core) : ∃ x, core = x ++ [';'] :=
  Reader.exists_of_run_eq_closed (s := .code) (by simp [Reader.Live]) h.closed

/-- A statement is made of what is in front of its last character and that character, which is no
line feed. Its end is found from its delimiter. -/
lemma exists_last {core comment rest : List Char} (hcore : Delimited core)
    (hleaves : Leaves comment rest) (p : Position) :
    ∃ x c y, core ++ comment = x ++ [c] ∧ c ≠ '\n' ∧ core = y ++ [';'] ∧
      p.advance x = ⟨(p.advance y).line, (p.advance y).column + comment.length⟩ := by
  obtain ⟨y, rfl⟩ := hcore.exists_eq
  rcases List.eq_nil_or_concat comment with rfl | ⟨z, c, rfl⟩
  · exact ⟨y, ';', y, by simp, by decide, rfl, rfl⟩
  · have hnl : '\n' ∉ z ++ [c] := by
      rcases hleaves with ⟨h, -⟩ | ⟨-, h, -⟩
      · simp at h
      · simpa using h
    rw [List.mem_append, not_or, List.mem_singleton] at hnl
    refine ⟨y ++ ';' :: z, c, y, by simp, Ne.symm hnl.2, rfl, ?_⟩
    rw [Position.advance_append, Position.advance_cons, Position.step, if_neg (by decide),
      Position.advance_of_not_mem hnl.1, Position.next]
    simp only [List.concat_eq_append, List.length_append, List.length_singleton, Position.mk.injEq,
      true_and]
    omega

/-- A statement in front of others stops right in front of what follows it. -/
lemma stop_next_place {core comment rest : List Char} (hcore : Delimited core)
    (hleaves : Leaves comment rest) (gap : List Char) (p : Position) :
    (Piece.place p ⟨gap, core ++ comment⟩).stop.next = p.advance (gap ++ (core ++ comment)) := by
  obtain ⟨x, c, -, hx, hc, -⟩ := exists_last hcore hleaves p
  rw [Piece.place, hx, List.dropLast_concat, Position.advance_append, Position.advance_append,
    Position.advance_cons, Position.advance_nil, Position.step, if_neg hc]

/-- The first statement of a text, found in a buffer that has this text. -/
lemma nextSpan_eq_ok {buffer : Buffer} (hb : buffer.Unbroken) {p : Position}
    {gap core comment rest : List Char}
    (h : buffer.textFrom p = gap ++ (core ++ (comment ++ rest))) (hgap : allBlank gap = true)
    (hcore : Delimited core) (hleaves : Leaves comment rest) :
    ∃ s : Statement, s = Piece.place p ⟨gap, core ++ comment⟩ ∧
      nextSpan buffer p = .ok (s.start, s.stop) ∧
      Statement.between buffer s.start s.stop = s ∧
      s.stop.next = p.advance (gap ++ (core ++ comment)) := by
  obtain ⟨x, c, y, hx, hc, hy, hstop⟩ := exists_last hcore hleaves (p.advance gap)
  obtain ⟨v, t, hv, hvisible⟩ := hcore.visible
  have hgapall : ∀ d ∈ gap, isBlank d = true := List.all_eq_true.mp hgap
  have htake : (buffer.textFrom p).takeWhile isBlank = gap := by
    rw [h, hv, List.takeWhile_append_of_pos hgapall]
    simp [hvisible]
  have hblank : allBlank (buffer.textFrom p) = false := by
    rw [h, hv, allBlank_append]
    simp [allBlank, hvisible]
  have hstart : buffer.textFrom (p.advance gap) = core ++ (comment ++ rest) :=
    Buffer.textFrom_advance hb h
  have hdelimiter : delimiter buffer (p.advance gap) = .ok ((p.advance gap).advance y) := by
    refine delimiter_eq_ok hb (r := comment ++ rest) ?_ (hy ▸ hcore.closed)
    rw [hstart, hy]
    simp
  have htail : buffer.textFrom ((p.advance gap).advance y) = ';' :: (comment ++ rest) := by
    refine Buffer.textFrom_advance hb ?_
    rw [hstart, hy]
    simp
  have hend : includeTrailingComment buffer ((p.advance gap).advance y) =
      (p.advance gap).advance x := by
    rw [includeTrailingComment_eq hb htail, trailing_append hleaves, hstop]
  have hdrop : (core ++ comment).dropLast = x := by rw [hx, List.dropLast_concat]
  refine ⟨_, rfl, ?_, ?_, ?_⟩
  · rw [nextSpan, Buffer.firstVisible_eq hb, hblank, htake]
    simp only [Bool.false_eq_true, if_false, hdelimiter, hend, Piece.place, hdrop]
  · have hexcerpt := Buffer.excerpt_eq hb (p := p.advance gap) (x := x) (c := c) (r := rest)
      (by rw [hstart, ← List.append_assoc, hx]; simp) hc
    rw [Statement.between, Piece.place]
    simp only [hx, List.dropLast_concat, hexcerpt]
  · exact stop_next_place hcore hleaves gap p

/-- A statement that is found in a buffer is the first one of the text. -/
lemma exists_of_nextSpan {buffer : Buffer} (hb : buffer.Unbroken) {p start stop : Position}
    (h : nextSpan buffer p = .ok (start, stop)) :
    ∃ gap core comment rest, buffer.textFrom p = gap ++ (core ++ (comment ++ rest)) ∧
      allBlank gap = true ∧ Delimited core ∧ Leaves comment rest := by
  set x := buffer.textFrom p with hx
  rw [nextSpan, Buffer.firstVisible_eq hb, ← hx] at h
  by_cases hblank : allBlank x = true
  · simp [hblank] at h
  · simp only [hblank, Bool.false_eq_true, if_false] at h
    have hsplit : x = x.takeWhile isBlank ++ x.dropWhile isBlank :=
      List.takeWhile_append_dropWhile.symm
    have hstart : buffer.textFrom (p.advance (x.takeWhile isBlank)) = x.dropWhile isBlank :=
      Buffer.textFrom_advance hb (hx ▸ hsplit)
    have hsettles := settles_delimiter hb (p.advance (x.takeWhile isBlank))
    cases hd : delimiter buffer (p.advance (x.takeWhile isBlank)) with
    | error e => simp [hd] at h
    | ok d =>
        rw [hd, hstart] at hsettles
        obtain ⟨y, r, hy, hclosed, -⟩ := hsettles
        obtain ⟨rest, hrest, hleaves⟩ := exists_leaves r
        refine ⟨x.takeWhile isBlank, y ++ [';'], trailing r, rest, ?_, List.all_takeWhile,
          ⟨?_, hclosed⟩, hleaves⟩
        · rw [← hrest, List.append_assoc, List.singleton_append, ← hy]
          exact hsplit
        · have hhead := List.head?_dropWhile_not isBlank x
          rw [hy] at hhead
          cases y with
          | nil => exact ⟨';', [], rfl, by decide⟩
          | cons c y => exact ⟨c, y ++ [';'], rfl, by simpa using hhead⟩

/-! ### All statements -/

lemma Reads.ne_nil {afterImport : Bool} {x : List Char} {pieces : List Piece}
    (h : Reads afterImport x pieces) : pieces ≠ [] := by
  cases h <;> simp

/-- Whether a statement of the buffer is an import is decided by its text up to the delimiter. -/
lemma isImport_place {core : List Char} (hcore : Delimited core) (comment gap : List Char)
    (p : Position) :
    (Piece.place p ⟨gap, core ++ comment⟩).isImport = declaresImport core := by
  rw [Statement.isImport_eq, Piece.place]
  exact declaresImport_append hcore.closed comment

/-- Statements are imports if their texts are. -/
lemma map_isImport (found : List Statement) :
    found.map Statement.isImport = (found.map Statement.text).map declaresImport := by
  rw [List.map_map]
  exact List.map_congr_left fun s _ => Statement.isImport_eq s

lemma map_text_isImport (found : List Statement) :
    (found.map fun s => (s.text, s.isImport)) =
      (found.map Statement.text).map fun t => (t, declaresImport t) := by
  rw [List.map_map]
  exact List.map_congr_left fun s _ => by simp [Statement.isImport_eq]

/-- The statements from a position on, once the first one is known. -/
lemma statementsFrom_of_nextSpan {buffer : Buffer} {p : Position} {s : Statement}
    (hspan : nextSpan buffer p = .ok (s.start, s.stop))
    (hbetween : Statement.between buffer s.start s.stop = s) (afterImport : Bool) :
    statementsFrom buffer afterImport p =
      if afterImport && !s.isImport then
        .ok [Statement.between buffer s.start buffer.lastPosition]
      else (statementsFrom buffer s.isImport s.stop.next).map (s :: ·) := by
  rw [statementsFrom]
  split
  · next e he => simp [hspan] at he
  · next start stop he =>
      rw [hspan, Except.ok.injEq, Prod.mk.injEq] at he
      obtain ⟨rfl, rfl⟩ := he
      simp only [hbetween]
      by_cases hbody : (afterImport && !s.isImport) = true
      · rw [if_pos hbody, if_pos hbody]
      · rw [if_neg hbody, if_neg hbody]
        cases statementsFrom buffer s.isImport s.stop.next <;> rfl

/-- The pieces of the text are the statements of the buffer. -/
lemma statementsFrom_of_reads {buffer : Buffer} (hb : buffer.Unbroken) {afterImport : Bool}
    {p : Position} {x : List Char} {pieces : List Piece} (h : Reads afterImport x pieces)
    (hx : buffer.textFrom p = x) :
    statementsFrom buffer afterImport p = .ok (Piece.placed buffer.lastPosition p pieces) := by
  induction h generalizing p with
  | @body gap core rest hgap hcore himport =>
      obtain ⟨rest', hrest', hleaves⟩ := exists_leaves rest
      obtain ⟨s, hs, hspan, hbetween, -⟩ :=
        nextSpan_eq_ok hb (by rw [hx, ← hrest']) hgap hcore hleaves
      have himport' : s.isImport = false := by rw [hs, isImport_place hcore, himport]
      have htext : buffer.textFrom (p.advance gap) = core ++ rest :=
        Buffer.textFrom_advance hb hx
      have hne : buffer.textFrom (p.advance gap) ≠ [] := by
        obtain ⟨c, t, rfl, -⟩ := hcore.visible
        simp [htext]
      have hstart : s.start = p.advance gap := by rw [hs, Piece.place]
      rw [statementsFrom_of_nextSpan hspan hbetween, himport', hstart, Statement.between,
        Buffer.excerpt_lastPosition hne, htext]
      rfl
  | @next afterImport gap core comment rest pieces hgap hcore himport hleaves hrest ih =>
      obtain ⟨s, hs, hspan, hbetween, hnext⟩ := nextSpan_eq_ok hb hx hgap hcore hleaves
      have himport' : s.isImport = declaresImport core := by rw [hs, isImport_place hcore]
      have htext : buffer.textFrom s.stop.next = rest := by
        rw [hnext]
        refine Buffer.textFrom_advance hb ?_
        rw [hx]
        simp
      have hgo : ¬ (afterImport && !s.isImport) = true := by
        rw [himport']
        cases afterImport <;> simp_all
      rw [statementsFrom_of_nextSpan hspan hbetween, if_neg hgo, himport', ih htext,
        Piece.placed_cons _ _ _ hrest.ne_nil, hnext, hs]
      rfl

/-- A buffer with statements has a text with pieces. -/
lemma exists_reads {buffer : Buffer} (hb : buffer.Unbroken) {afterImport : Bool} {p : Position}
    {found : List Statement} (h : statementsFrom buffer afterImport p = .ok found) :
    ∃ pieces, Reads afterImport (buffer.textFrom p) pieces := by
  fun_induction statementsFrom buffer afterImport p generalizing found with
  | case1 | case3 => simp at h
  | case2 afterImport p start stop hspan s =>
      rename_i hbody
      obtain ⟨gap, core, comment, rest, htext, hgap, hcore, hleaves⟩ := exists_of_nextSpan hb hspan
      obtain ⟨t, ht, hspan', hbetween, -⟩ := nextSpan_eq_ok hb htext hgap hcore hleaves
      rw [hspan', Except.ok.injEq, Prod.mk.injEq] at hspan
      obtain ⟨rfl, rfl⟩ := hspan
      change (afterImport && !(Statement.between buffer t.start t.stop).isImport) = true at hbody
      rw [hbetween, ht, isImport_place hcore, Bool.and_eq_true, Bool.not_eq_true'] at hbody
      rw [htext, hbody.1]
      exact ⟨_, .body hgap hcore hbody.2⟩
  | case4 afterImport p start stop hspan s hgo found' hfound =>
      rename_i ih
      obtain ⟨gap, core, comment, rest, htext, hgap, hcore, hleaves⟩ := exists_of_nextSpan hb hspan
      obtain ⟨t, ht, hspan', hbetween, hnext⟩ := nextSpan_eq_ok hb htext hgap hcore hleaves
      rw [hspan', Except.ok.injEq, Prod.mk.injEq] at hspan
      obtain ⟨rfl, rfl⟩ := hspan
      have himport : (Statement.between buffer t.start t.stop).isImport = declaresImport core := by
        rw [hbetween, ht, isImport_place hcore]
      have hrest : buffer.textFrom t.stop.next = rest := by
        rw [hnext]
        refine Buffer.textFrom_advance hb ?_
        rw [htext]
        simp
      obtain ⟨pieces, hpieces⟩ := ih hfound
      change Reads (Statement.between buffer t.start t.stop).isImport _ _ at hpieces
      change ¬ (afterImport && !(Statement.between buffer t.start t.stop).isImport) = true at hgo
      rw [himport, hrest] at hpieces
      rw [himport] at hgo
      rw [htext]
      refine ⟨_, .next hgap hcore (fun hafter => ?_) hleaves hpieces⟩
      by_contra hno
      simp [hafter, hno] at hgo

/-- The statements of a buffer are the pieces of its text in their places. -/
lemma statements_iff_reads {buffer : Buffer} (hb : buffer.Unbroken) (found : List Statement) :
    statements buffer = .ok found ↔
      ∃ pieces, Reads false buffer.text pieces ∧
        found = Piece.placed buffer.lastPosition ⟨0, 0⟩ pieces := by
  rw [statements]
  constructor
  · intro h
    obtain ⟨pieces, hpieces⟩ := exists_reads hb h
    refine ⟨pieces, by simpa using hpieces, ?_⟩
    rw [statementsFrom_of_reads hb hpieces rfl, Except.ok.injEq] at h
    exact h.symm
  · rintro ⟨pieces, hpieces, rfl⟩
    exact statementsFrom_of_reads hb hpieces (Buffer.textFrom_zero buffer)

end LintRepair
