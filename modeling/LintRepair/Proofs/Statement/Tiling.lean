import LintRepair.Proofs.Statement.Reading

/-!
Statements tile a buffer.

The statements of a buffer take up all of it but blanks, one after the other. Between two of them,
and in front of the first one, there is nothing to be seen; the last one, the body, goes up to the
end. Imports stand together, right in front of the body.

* `firstVisible_blank`: there are only blanks in front of the first visible character.
* `Tiles`: statements that take up a buffer from a position on. `Tiles.body` and `Tiles.cons` say
  how they are laid one in front of the other, and `tiles_statementsFrom` that this is how a buffer
  is scanned.
* `Reads.flags`: which of the pieces of a text are imports.
* `statements_tile`: the statements of a buffer.
-/

namespace LintRepair

namespace Buffer

/-! ### Blanks in front of a statement -/

/-- In front of its first visible character a line has only blanks, and everywhere if there is no
such character. -/
lemma isBlank_of_findIdx {l : Line} {k : Option Nat} (h : l.findIdx? (!isBlank ·) = k) {j : Nat}
    (hj : ∀ i ∈ k, j < i) {c : Char} (hc : l[j]? = some c) : isBlank c = true := by
  obtain ⟨hlt, rfl⟩ := List.getElem?_eq_some_iff.mp hc
  cases k with
  | none =>
      rw [List.findIdx?_eq_none_iff] at h
      simpa using h _ (List.getElem_mem hlt)
  | some i =>
      obtain ⟨hi, -, hbefore⟩ := List.findIdx?_eq_some_iff_getElem.mp h
      simpa using hbefore j (hj i rfl)

lemma firstVisibleBelow_blank {index : Nat} {lines : Buffer} {q : Position}
    (h : firstVisibleBelow index lines = some q) {r : Position} (hle : index ≤ r.line) (hlt : r < q)
    {c : Char} (hc : charAt lines ⟨r.line - index, r.column⟩ = some c) : isBlank c = true := by
  induction lines generalizing index with
  | nil => simp [firstVisibleBelow] at h
  | cons l rest ih =>
      rw [firstVisibleBelow] at h
      cases hfind : l.findIdx? (!isBlank ·) with
      | some column =>
          simp only [hfind, Option.some.injEq] at h
          rw [← h, Position.lt_def] at hlt
          have hline : r.line = index := by
            simp only at hlt
            omega
          rw [hline, Nat.sub_self] at hc
          refine isBlank_of_findIdx hfind (fun i hi => ?_) (show l[r.column]? = some c from hc)
          obtain rfl : column = i := Option.some.inj hi
          simp only at hlt
          omega
      | none =>
          simp only [hfind] at h
          rcases Nat.eq_or_lt_of_le hle with hline | hline
          · rw [← hline, Nat.sub_self] at hc
            exact isBlank_of_findIdx hfind (by simp) hc
          · refine ih h hline ?_
            rw [show r.line - index = r.line - (index + 1) + 1 by omega] at hc
            exact hc

/-- There are only blanks in front of the first visible character. -/
lemma firstVisible_blank {buffer : Buffer} {p q : Position} (h : buffer.firstVisible p = some q)
    {r : Position} (hle : p ≤ r) (hlt : r < q) {c : Char} (hc : buffer.charAt r = some c) :
    isBlank c = true := by
  obtain ⟨l, hl, hget⟩ := getElem?_of_charAt hc
  rw [Position.le_def] at hle
  rw [firstVisible] at h
  cases hdrop : buffer.drop p.line with
  | nil => simp [hdrop] at h
  | cons first rest =>
      obtain ⟨hfirst, hrest⟩ := of_drop_eq_cons hdrop
      rw [hdrop] at h
      -- a position on the line of the search is past its start by some columns
      have honLine : r.line = p.line →
          (first.drop p.column)[r.column - p.column]? = some c := by
        intro hline
        rw [hline, hfirst, Option.some.injEq] at hl
        rw [List.getElem?_drop, show p.column + (r.column - p.column) = r.column by omega, hl]
        exact hget
      cases hfind : (first.drop p.column).findIdx? (!isBlank ·) with
      | some offset =>
          simp only [hfind, Option.some.injEq] at h
          rw [← h, Position.lt_def] at hlt
          simp only at hlt
          refine isBlank_of_findIdx hfind (fun i hi => ?_) (honLine (by omega))
          obtain rfl : offset = i := Option.some.inj hi
          omega
      | none =>
          simp only [hfind] at h
          by_cases hline : r.line = p.line
          · exact isBlank_of_findIdx hfind (by simp) (honLine hline)
          · refine firstVisibleBelow_blank h (by omega) hlt ?_
            rw [hrest, charAt, List.getElem?_drop,
              show p.line + 1 + (r.line - (p.line + 1)) = r.line by omega]
            exact hc

/-- No character stands behind the last position. -/
lemma le_lastPosition {buffer : Buffer} {p : Position} {c : Char} (h : buffer.charAt p = some c) :
    p ≤ buffer.lastPosition := by
  obtain ⟨l, hl, hget⟩ := getElem?_of_charAt h
  obtain ⟨hline, rfl⟩ := List.getElem?_eq_some_iff.mp hl
  have hcolumn := (List.getElem?_eq_some_iff.mp hget).1
  rw [Position.le_def, lastPosition]
  by_cases hlast : p.line = buffer.length - 1
  · refine Or.inr ⟨hlast, ?_⟩
    have hne : buffer ≠ [] := List.ne_nil_of_length_pos (by omega)
    rw [List.getLastD_eq_getLast?, List.getLast?_eq_getLast_of_ne_nil hne, Option.getD_some,
      List.getLast_eq_getElem]
    simp only [← hlast]
    omega
  · exact Or.inl (by simp only; omega)

/-- The last position of a buffer with a character is on one of its lines. -/
lemma lastPosition_line_lt {buffer : Buffer} {p : Position} {c : Char}
    (h : buffer.charAt p = some c) : buffer.lastPosition.line < buffer.length := by
  have hlt := line_lt_of_charAt h
  rw [lastPosition]
  simp only
  omega

end Buffer

/-! ### Statements laid one in front of the other -/

/-- A stretch of a buffer that begins with a visible character. Its text is what stands between its
ends, which is a part of the buffer's text. -/
structure IsStretch (buffer : Buffer) (s : Statement) : Prop where
  bounds : s.start ≤ s.stop
  visible : ∃ c, buffer.charAt s.start = some c ∧ isBlank c = false
  text_eq : s.text = buffer.excerpt s.start s.stop
  part : buffer.textFrom s.start = s.text ++ buffer.textFrom s.stop.next

/-- Statements that take up all that is visible in a buffer from a position on, up to its last
position. -/
structure Tiles (buffer : Buffer) (cursor : Position) (found : List Statement) : Prop where
  apart : found.Pairwise fun s t => s.stop < t.start
  behind : ∀ s ∈ found, cursor ≤ s.start
  stretch : ∀ s ∈ found, IsStretch buffer s
  outside : ∀ p c, cursor ≤ p → buffer.charAt p = some c → (∀ s ∈ found, s.covers p = false) →
    isBlank c = true
  last : ∃ body, found.getLast? = some body ∧ body.stop = buffer.lastPosition

section Tiles

variable {buffer : Buffer} {cursor start stop : Position} {found : List Statement}

lemma isStretch_between (hvisible : ∃ c, buffer.charAt start = some c ∧ isBlank c = false)
    (hle : start ≤ stop) (hstop : stop.line < buffer.length) :
    IsStretch buffer (Statement.between buffer start stop) := by
  have hbounds := Position.le_def.mp hle
  have htext := Buffer.excerpt_append hstop (p := start) (by omega) (by omega)
  exact ⟨hle, hvisible, rfl, htext.symm⟩

/-- A position behind the start of a statement is past its end if the statement does not cover
it. -/
lemma next_le_of_not_covers {s : Statement} {p : Position} (h : s.covers p = false)
    (hle : s.start ≤ p) : s.stop.next ≤ p := by
  have hno : ¬ p ≤ s.stop := by
    intro hp
    rw [Statement.covers, decide_eq_true hle, decide_eq_true hp] at h
    simp at h
  rw [Position.le_def] at hno
  rw [Position.le_def]
  simp only [Position.next]
  omega

lemma Position.lt_next (p : Position) : p < p.next :=
  Position.lt_def.mpr (Or.inr ⟨rfl, Nat.lt_succ_self _⟩)

/-- Only blanks stand in front of a statement. -/
lemma blank_or_le_of_nextSpan (h : nextSpan buffer cursor = .ok (start, stop)) {p : Position}
    (hle : cursor ≤ p) {c : Char} (hc : buffer.charAt p = some c) :
    isBlank c = true ∨ start ≤ p := by
  have hfirst : buffer.firstVisible cursor = some start := by
    rw [nextSpan] at h
    cases hvisible : buffer.firstVisible cursor with
    | none => simp [hvisible] at h
    | some q =>
        simp only [hvisible] at h
        split at h
        · simp at h
        · rw [Except.ok.injEq, Prod.mk.injEq] at h
          rw [h.1]
  by_cases hlt : p < start
  · exact Or.inl (Buffer.firstVisible_blank hfirst hle hlt hc)
  · refine Or.inr ?_
    rw [Position.lt_def] at hlt
    rw [Position.le_def]
    omega

/-- The body takes up the rest of the buffer. -/
lemma Tiles.body (h : nextSpan buffer cursor = .ok (start, stop)) :
    Tiles buffer cursor [Statement.between buffer start buffer.lastPosition] := by
  obtain ⟨hcursor, -, ⟨c, hc, hvisible⟩, -⟩ := nextSpan_spec h
  have hlast := Buffer.lastPosition_line_lt hc
  refine ⟨List.pairwise_singleton _ _, fun s hs => ?_, fun s hs => ?_, fun p d hp hd hno => ?_,
    _, rfl, rfl⟩
  · rw [List.mem_singleton.mp hs]
    exact hcursor
  · rw [List.mem_singleton.mp hs]
    exact isStretch_between ⟨c, hc, hvisible⟩ (Buffer.le_lastPosition hc) hlast
  · rcases blank_or_le_of_nextSpan h hp hd with hblank | hle
    · exact hblank
    · -- a character behind the start of the body is in the body
      have hnext := next_le_of_not_covers (hno _ List.mem_cons_self) hle
      exact absurd (Position.lt_of_lt_of_le (Position.lt_next _) hnext)
        (Position.not_lt_of_le (Buffer.le_lastPosition hd))

/-- A statement is laid in front of those that are found from its end on. -/
lemma Tiles.cons (h : nextSpan buffer cursor = .ok (start, stop))
    (hrest : Tiles buffer stop.next found) :
    Tiles buffer cursor (Statement.between buffer start stop :: found) := by
  obtain ⟨hcursor, hle, hvisible, d, hd⟩ := nextSpan_spec h
  have hstop : stop.line < buffer.length := Buffer.line_lt_of_charAt hd
  have hbefore : ∀ s ∈ found, stop < s.start := fun s hs =>
    Position.lt_of_lt_of_le (Position.lt_next stop) (hrest.behind s hs)
  refine ⟨List.pairwise_cons.mpr ⟨hbefore, hrest.apart⟩, fun s hs => ?_, fun s hs => ?_,
    fun p c hp hc hno => ?_, ?_⟩
  · rcases List.mem_cons.mp hs with rfl | hs
    · exact hcursor
    · exact Position.le_trans (Position.le_trans hcursor hle) (Position.le_of_lt (hbefore s hs))
  · rcases List.mem_cons.mp hs with rfl | hs
    · exact isStretch_between hvisible hle hstop
    · exact hrest.stretch s hs
  · rcases blank_or_le_of_nextSpan h hp hc with hblank | hle'
    · exact hblank
    · exact hrest.outside p c (next_le_of_not_covers (hno _ List.mem_cons_self) hle') hc
        fun s hs => hno s (List.mem_cons_of_mem _ hs)
  · obtain ⟨body, hbody, hend⟩ := hrest.last
    exact ⟨body, by rw [List.getLast?_cons, hbody, Option.getD_some], hend⟩

/-- The statements that are found from a position on tile the buffer from there on. -/
lemma tiles_statementsFrom {afterImport : Bool}
    (h : statementsFrom buffer afterImport cursor = .ok found) : Tiles buffer cursor found := by
  fun_induction statementsFrom buffer afterImport cursor generalizing found with
  | case1 | case3 => simp at h
  | case2 afterImport cursor start stop hspan =>
      rw [Except.ok.injEq] at h
      exact h ▸ Tiles.body hspan
  | case4 afterImport cursor start stop hspan s hgo found' hfound =>
      rename_i ih
      rw [Except.ok.injEq] at h
      exact h ▸ Tiles.cons hspan (ih hfound)

end Tiles

/-! ### Imports among statements -/

/-- After an import there are imports and then the body; in front of the imports there may be other
statements, and there is an import. -/
lemma Reads.flags {afterImport : Bool} {x : List Char} {pieces : List Piece}
    (h : Reads afterImport x pieces) :
    ∃ m n, pieces.map (fun piece => declaresImport piece.text) =
        List.replicate m false ++ List.replicate n true ++ [false] ∧
      if afterImport then m = 0 else 0 < n := by
  induction h with
  | @body gap core rest hgap hcore himport =>
      refine ⟨0, 0, ?_, rfl⟩
      simp [declaresImport_append hcore.closed, himport]
  | @next afterImport gap core comment rest pieces hgap hcore himport hleaves hrest ih =>
      obtain ⟨m, n, hflags, hcount⟩ := ih
      rw [List.map_cons, hflags, declaresImport_append hcore.closed]
      cases hcase : declaresImport core with
      | true =>
          rw [hcase, if_pos rfl] at hcount
          refine ⟨0, n + 1, by simp [hcount, List.replicate_succ], ?_⟩
          split_ifs
          · rfl
          · exact Nat.succ_pos n
      | false =>
          rw [hcase] at hcount himport
          refine ⟨m + 1, n, by simp [List.replicate_succ], ?_⟩
          cases afterImport with
          | true => simp at himport
          | false => simpa using hcount

/-- The statements of a buffer whose lines hold no line feeds. They stand one after the other, each
begins with a visible character and has the text between its ends, and nothing but blanks stands
outside of them. The last one, the body, goes up to the last position. In front of it there are
other statements, then imports, and at least one of these. -/
theorem statements_tile {buffer : Buffer} (hb : buffer.Unbroken) {found : List Statement}
    (h : statements buffer = .ok found) :
    (found.Pairwise fun s t => s.stop < t.start) ∧
    (∀ s ∈ found, s.start ≤ s.stop ∧
      (∃ c, buffer.charAt s.start = some c ∧ isBlank c = false) ∧
      s.text = buffer.excerpt s.start s.stop ∧
      buffer.textFrom s.start = s.text ++ buffer.textFrom s.stop.next) ∧
    (∀ p c, buffer.charAt p = some c → (∀ s ∈ found, s.covers p = false) → isBlank c = true) ∧
    (∃ body, found.getLast? = some body ∧ body.stop = buffer.lastPosition) ∧
    ∃ m n, found.map Statement.isImport =
      List.replicate m false ++ List.replicate (n + 1) true ++ [false] := by
  have htiles : Tiles buffer ⟨0, 0⟩ found := tiles_statementsFrom h
  obtain ⟨pieces, hpieces, hfound⟩ := (statements_iff_reads hb found).mp h
  obtain ⟨m, n, hflags, hpos⟩ := hpieces.flags
  obtain ⟨k, rfl⟩ : ∃ k, n = k + 1 := ⟨n - 1, by simp at hpos; omega⟩
  refine ⟨htiles.apart, fun s hs => ?_, fun p c hc hno => ?_, htiles.last, m, k, ?_⟩
  · obtain ⟨hbounds, hvisible, htext, hpart⟩ := htiles.stretch s hs
    exact ⟨hbounds, hvisible, htext, hpart⟩
  · exact htiles.outside p c (Position.le_def.mpr (by simp only; omega)) hc hno
  · have hmap : found.map Statement.isImport =
        (found.map Statement.text).map declaresImport := by
      rw [List.map_map]
      exact List.map_congr_left fun s _ => s.isImport_eq
    rw [hmap, hfound, Piece.map_text_placed, List.map_map, ← hflags]
    rfl

/-- A package statement, an import with a comment behind it, an import over two lines, and a body
that ends with an empty line. -/
theorem statements_tile_commented_import :
    ∃ found,
      statements ["package p; import a. /* ; */ A; // x".toList, "import".toList, " b.B;".toList,
        "class X;".toList, [] ] = .ok found ∧
      (found.Pairwise fun s t => s.stop < t.start) ∧
      (∃ body, found.getLast? = some body ∧ body.stop = ⟨4, 0⟩) ∧
      found.map Statement.isImport = [false, true, true, false] := by
  have hfound : statements ["package p; import a. /* ; */ A; // x".toList, "import".toList,
        " b.B;".toList, "class X;".toList, [] ] =
      .ok [⟨⟨0, 0⟩, ⟨0, 9⟩, "package p;".toList⟩,
        ⟨⟨0, 11⟩, ⟨0, 35⟩, "import a. /* ; */ A; // x".toList⟩,
        ⟨⟨1, 0⟩, ⟨2, 4⟩, "import\n b.B;".toList⟩, ⟨⟨3, 0⟩, ⟨4, 0⟩, "class X;\n".toList⟩] := by cbv
  obtain ⟨hapart, -, -, hlast, -⟩ := statements_tile (by simp [Buffer.Unbroken]) hfound
  exact ⟨_, hfound, hapart, hlast, by decide⟩

end LintRepair
