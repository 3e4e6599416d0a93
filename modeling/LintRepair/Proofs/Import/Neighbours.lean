import LintRepair.Proofs.Import.Cut

/-!
Statements that follow each other.

Two statements that follow each other share a line just if there is no line feed in the blanks
between them. So the line feeds between the pieces of a text say how many such pairs there are, and
where there are none each statement begins below the end of the one before it.

* `sharedPairs`: how many pairs share a line; `sharedPairs_placed` counts them in the pieces.
* `exists_consecutive`: the pieces of two statements that follow each other.
* `sharingPair_cases`: the pair at which a line is split.
* `Behind`, `movable_eq_some_iff`: the import that moves, and the one in front of it.
-/

namespace LintRepair

/-- How many pairs of consecutive statements share a line. -/
def sharedPairs (found : List Statement) : Nat :=
  (found.zip found.tail).countP fun pair => pair.1.sharesLineWith pair.2

lemma sharedPairs_cons_cons (s t : Statement) (found : List Statement) :
    sharedPairs (s :: t :: found) =
      sharedPairs (t :: found) + if s.sharesLineWith t = true then 1 else 0 :=
  List.countP_cons

lemma onSeparateLines_iff (found : List Statement) :
    onSeparateLines found = true ↔ sharedPairs found = 0 := by
  rw [onSeparateLines, firstSharedLine, Option.isNone_iff_eq_none, Option.map_eq_none_iff,
    List.findIdx?_eq_none_iff, sharedPairs, List.countP_eq_zero]
  simp only [Bool.not_eq_true]

/-! ### The pieces of consecutive statements -/

namespace Piece

/-- The first of the statements that pieces make. -/
lemma exists_placed_cons (last p : Position) (piece : Piece) (rest : List Piece) :
    ∃ s, placed last p (piece :: rest) = s :: placed last (p.advance piece.source) rest ∧
      s.start = p.advance piece.gap ∧ s.text = piece.text ∧ (rest ≠ [] → s = piece.place p) := by
  cases rest with
  | nil => exact ⟨_, rfl, rfl, rfl, fun hne => absurd rfl hne⟩
  | cons next rest => exact ⟨_, rfl, rfl, rfl, fun _ => rfl⟩

/-- The pieces around a place between statements. -/
lemma exists_of_placed_eq {last p : Position} {pieces : List Piece} {x y : List Statement}
    {s : Statement} (h : placed last p pieces = x ++ s :: y) :
    ∃ fore piece rest, pieces = fore ++ piece :: rest ∧ x = spans p fore ∧
      placed last (p.advance (flat fore)) (piece :: rest) = s :: y := by
  induction x generalizing p pieces with
  | nil =>
      cases pieces with
      | nil => simp [placed] at h
      | cons piece rest => exact ⟨[], piece, rest, rfl, rfl, h⟩
  | cons t x ih =>
      cases pieces with
      | nil => simp [placed] at h
      | cons first pieces =>
          cases pieces with
          | nil => simp [placed] at h
          | cons second pieces =>
              rw [placed_cons last p first (List.cons_ne_nil _ _), List.cons_append,
                List.cons.injEq] at h
              obtain ⟨rfl, h⟩ := h
              obtain ⟨fore, piece, rest, hpieces, rfl, hplaced⟩ := ih h
              refine ⟨first :: fore, piece, rest, by rw [hpieces]; rfl, rfl, ?_⟩
              rw [flat_cons, ← List.append_assoc, Position.advance_append]
              exact hplaced

lemma flat_concat (fore : List Piece) (a : Piece) : flat (fore ++ [a]) = flat fore ++ a.source := by
  rw [flat_append, flat_cons, flat_nil, List.append_nil, source]

/-- The pieces of two statements that follow each other. -/
lemma exists_consecutive {last : Position} {pieces : List Piece} {x y : List Statement}
    {s t : Statement} (h : placed last ⟨0, 0⟩ pieces = x ++ s :: t :: y) :
    ∃ fore a b rest, pieces = fore ++ a :: b :: rest ∧
      x.map Statement.text = fore.map Piece.text ∧
      s = a.place ((⟨0, 0⟩ : Position).advance (flat fore)) ∧
      t.start = (⟨0, 0⟩ : Position).advance (flat (fore ++ [a]) ++ b.gap) ∧ t.text = b.text ∧
      y.map Statement.text = rest.map Piece.text ∧
      (rest ≠ [] → t = b.place ((⟨0, 0⟩ : Position).advance (flat (fore ++ [a])))) := by
  obtain ⟨fore, a, others, rfl, rfl, hplaced⟩ := exists_of_placed_eq h
  cases others with
  | nil => simp [placed] at hplaced
  | cons b rest =>
      obtain ⟨t', ht', hstart, htext, hplace⟩ := exists_placed_cons last
        (((⟨0, 0⟩ : Position).advance (flat fore)).advance a.source) b rest
      rw [placed_cons _ _ _ (List.cons_ne_nil _ _), ht', List.cons.injEq,
        List.cons.injEq] at hplaced
      obtain ⟨rfl, rfl, rfl⟩ := hplaced
      refine ⟨fore, a, b, rest, rfl, map_text_spans _ _, rfl, ?_, htext, map_text_placed _ _ _, ?_⟩
      · rw [hstart, flat_concat, Position.advance_append, Position.advance_append]
      · rw [flat_concat, Position.advance_append]
        exact hplace

end Piece

/-- A statement with another one behind it stops right in front of what follows. -/
lemma Reads.stop_next {afterImport : Bool} {x : List Char} {a : Piece} {others : List Piece}
    (h : Reads afterImport x (a :: others)) (hothers : others ≠ []) (p : Position) :
    (a.place p).stop.next = p.advance a.source := by
  obtain ⟨gap, core, comment, r, rfl, -, -, hcore, -, hleaves, -⟩ := h.exists_next hothers
  exact stop_next_place hcore hleaves gap p

/-- What follows a statement goes on on the line on which it ends. -/
lemma Reads.stop_line {afterImport : Bool} {x : List Char} {a : Piece} {others : List Piece}
    (h : Reads afterImport x (a :: others)) (hothers : others ≠ []) (p : Position) :
    (a.place p).stop.line = (p.advance a.source).line := by
  rw [← h.stop_next hothers p, Position.next]

/-- Two statements that follow each other share a line just if there is no line feed in the blanks
between them. -/
lemma Reads.sharesLineWith_iff {afterImport : Bool} {x : List Char} {a b : Piece}
    {rest : List Piece} (h : Reads afterImport x (a :: b :: rest)) (p : Position) {t : Statement}
    (ht : t.start = (p.advance a.source).advance b.gap) :
    (a.place p).sharesLineWith t = true ↔ '\n' ∉ b.gap := by
  rw [Statement.sharesLineWith, beq_iff_eq, h.stop_line (List.cons_ne_nil _ _), ht,
    Position.line_advance _ b.gap, left_eq_add, List.count_eq_zero]

/-- The pairs that share a line are counted between the pieces. -/
lemma Reads.sharedPairs_placed {afterImport : Bool} {x : List Char} {pieces : List Piece}
    (h : Reads afterImport x pieces) (last p : Position) :
    sharedPairs (Piece.placed last p pieces) =
      pieces.tail.countP fun piece => decide ('\n' ∉ piece.gap) := by
  induction pieces generalizing afterImport x p with
  | nil => rfl
  | cons a pieces ih =>
      cases pieces with
      | nil => rfl
      | cons b rest =>
          obtain ⟨-, -, -, y, -, -, -, -, -, -, hrest⟩ := h.exists_next (List.cons_ne_nil _ _)
          have hcount := ih hrest (p.advance a.source)
          obtain ⟨t, ht, hstart, -, -⟩ :=
            Piece.exists_placed_cons last (p.advance a.source) b rest
          rw [Piece.placed_cons _ _ _ (List.cons_ne_nil _ _), ht, sharedPairs_cons_cons, ← ht,
            hcount, List.tail_cons, List.tail_cons, List.countP_cons]
          simp only [h.sharesLineWith_iff p hstart, decide_eq_true_iff]

/-- If no two statements share a line, there are line feeds between all of them. -/
lemma Reads.newline_mem_gap {afterImport : Bool} {x : List Char} {pieces : List Piece}
    (h : Reads afterImport x pieces) {last p : Position}
    (hapart : sharedPairs (Piece.placed last p pieces) = 0) :
    ∀ piece ∈ pieces.tail, '\n' ∈ piece.gap := by
  intro piece hpiece
  rw [h.sharedPairs_placed, List.countP_eq_zero] at hapart
  simpa using hapart piece hpiece

/-- Where no two statements share a line, each one begins below the end of those before it. -/
lemma Reads.pairwise_lines {afterImport : Bool} {x : List Char} {pieces : List Piece}
    (h : Reads afterImport x pieces) {last p : Position}
    (hapart : sharedPairs (Piece.placed last p pieces) = 0) :
    (Piece.placed last p pieces).Pairwise fun s t => s.stop.line < t.start.line := by
  induction pieces generalizing afterImport x p with
  | nil => exact List.Pairwise.nil
  | cons a pieces ih =>
      cases pieces with
      | nil => exact List.pairwise_singleton _ _
      | cons b rest =>
          obtain ⟨-, -, -, y, -, -, -, -, -, -, hrest⟩ := h.exists_next (List.cons_ne_nil _ _)
          obtain ⟨t, ht, hstart, -, -⟩ :=
            Piece.exists_placed_cons last (p.advance a.source) b rest
          have hgap : '\n' ∈ b.gap := h.newline_mem_gap hapart b List.mem_cons_self
          rw [Piece.placed_cons _ _ _ (List.cons_ne_nil _ _)] at hapart ⊢
          rw [List.pairwise_cons]
          constructor
          · intro u hu
            -- the line feed in front of the next statement is in front of all that follow
            have hle : (p.advance a.source).advance b.gap ≤ u.start := by
              rw [ht, List.mem_cons] at hu
              rcases hu with rfl | hu
              · exact hstart ▸ Position.le_refl _
              · refine Position.le_trans ?_ (Piece.le_start_of_mem_placed hu)
                rw [show b.source = b.gap ++ b.text from rfl, Position.advance_append]
                exact Position.le_advance _ _
            have hline := Position.line_advance (p.advance a.source) b.gap
            have hcount := List.count_pos_iff.mpr hgap
            rw [Position.le_def] at hle
            rw [h.stop_line (List.cons_ne_nil _ _)]
            omega
          · refine ih hrest ?_
            rw [ht, sharedPairs_cons_cons] at hapart
            rw [ht]
            omega

/-! ### The statements of a step -/

/-- Two elements of a list, one behind the other. -/
lemma exists_eq_append_of_getElem? {α : Type} {l : List α} {n : Nat} {a b : α}
    (ha : l[n]? = some a) (hb : l[n + 1]? = some b) : ∃ x y, l = x ++ a :: b :: y := by
  obtain ⟨hn, rfl⟩ := List.getElem?_eq_some_iff.mp ha
  obtain ⟨hn', rfl⟩ := List.getElem?_eq_some_iff.mp hb
  refine ⟨l.take n, l.drop (n + 2), ?_⟩
  rw [← List.drop_eq_getElem_cons hn', ← List.drop_eq_getElem_cons hn, List.take_append_drop]

/-- Either no two consecutive statements share a line, or there is a first pair that does. -/
lemma sharingPair_cases (found : List Statement) :
    sharingPair found = none ∧ sharedPairs found = 0 ∨
      0 < sharedPairs found ∧ ∃ x s t y, found = x ++ s :: t :: y ∧
        sharingPair found = some (s, t) ∧ s.sharesLineWith t = true := by
  rw [sharingPair, firstSharedLine]
  cases hfind : (found.zip found.tail).findIdx? fun pair => pair.1.sharesLineWith pair.2 with
  | none =>
      refine Or.inl ⟨rfl, (onSeparateLines_iff found).mp ?_⟩
      rw [onSeparateLines, firstSharedLine, hfind]
      rfl
  | some k =>
      obtain ⟨hk, hshare, -⟩ := List.findIdx?_eq_some_iff_getElem.mp hfind
      have hlength : k + 1 < found.length := by
        rw [List.length_zip, List.length_tail] at hk
        omega
      have hs : found[k]? = some found[k] := List.getElem?_eq_getElem (by omega)
      have ht : found[k + 1]? = some found[k + 1] := List.getElem?_eq_getElem hlength
      obtain ⟨x, y, hxy⟩ := exists_eq_append_of_getElem? hs ht
      refine Or.inr ⟨List.countP_pos_iff.mpr ⟨_, List.getElem_mem hk, hshare⟩, x, found[k],
        found[k + 1], y, hxy, by simp [hs, ht], ?_⟩
      simpa using hshare

/-- Of the statements `found`, the import `s` is on the line with the given index and right behind
the import `previous`. -/
structure Behind (found : List Statement) (index : Nat) (x : List Statement)
    (previous s : Statement) (y : List Statement) : Prop where
  eq : found = x ++ previous :: s :: y
  previous_isImport : previous.isImport = true
  isImport : s.isImport = true
  spansLine : s.spansLine index = true

/-- What moves is the import on the line, in front of the import before it. -/
lemma movable_eq_some_iff {found : List Statement}
    (hlines : found.Pairwise fun s t => s.stop.line < t.start.line)
    (hvisible : ∀ s ∈ found, s.isBlank = false) {index : Nat} {s previous : Statement} :
    movable found index = some (s, previous) ↔ ∃ x y, Behind found index x previous s y := by
  constructor
  · intro h
    rw [movable] at h
    split at h
    · next before hfind =>
        split at h
        · next previous' s' hprevious hs =>
            split_ifs at h with himport
            obtain ⟨rfl, rfl⟩ := Prod.mk.inj (Option.some.inj h)
            obtain ⟨x, y, hxy⟩ := exists_eq_append_of_getElem? hprevious hs
            simp only [Bool.and_eq_true] at himport
            obtain ⟨hlt, rfl⟩ := List.getElem?_eq_some_iff.mp hs
            obtain ⟨_, hspans, -⟩ := List.findIdx?_eq_some_iff_getElem.mp hfind
            exact ⟨x, y, hxy, himport.2, himport.1.2, hspans⟩
        · simp at h
    · simp at h
  · rintro ⟨x, y, h⟩
    have heq := h.eq
    rw [List.append_cons] at heq
    -- the statements in front end above the line
    have hnone : (x ++ [previous]).findIdx? (·.spansLine index) = none := by
      rw [List.findIdx?_eq_none_iff]
      intro t ht
      have hlt := (List.pairwise_append.mp (heq ▸ hlines)).2.2 t ht s List.mem_cons_self
      have hspans := h.spansLine
      simp only [Statement.spansLine, Bool.and_eq_true, decide_eq_true_iff, Bool.and_eq_false_iff,
        decide_eq_false_iff_not] at hspans ⊢
      omega
    have hfind : found.findIdx? (·.spansLine index) = some (x.length + 1) := by
      rw [heq, List.findIdx?_append, hnone, List.findIdx?_cons, if_pos h.spansLine]
      simp
    have hprevious : found[x.length]? = some previous := by rw [h.eq]; simp
    have hs : found[x.length + 1]? = some s := by rw [heq]; simp
    have hblank := hvisible s (List.mem_of_getElem? hs)
    simp only [movable, hfind, hprevious, hs, hblank, h.isImport, h.previous_isImport]
    rfl

end LintRepair
