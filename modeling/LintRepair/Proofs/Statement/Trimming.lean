import LintRepair.Proofs.Statement.Scanner

/-!
Blanks at the end of a line.

Blanks in front of a line end can go wherever they stand: between two statements, inside of one, in
a comment or in a literal. The text is read as the same pieces, of which one has lost the blanks.

* `Dangling`: blanks at the end of a line.
* `Delimited.trim`, `Leaves.trim`: a statement and the comment behind it without such blanks.
* `Dangling.cases`: where in a text they stand.
* `Trims`: pieces of which one loses the blanks; `Reads.trim` says that they are read again.
-/

namespace LintRepair

/-- Blanks at the end of a line, with the text behind them. -/
structure Dangling (k y : List Char) : Prop where
  blank : allBlank k = true
  inline : '\n' ∉ k
  lineEnd : AtLineEnd y

/-! ### One statement -/

lemma Reader.Proper.run {s : Reader} (h : s.Proper) (x : List Char) : (s.run x).Proper := by
  induction x generalizing s with
  | nil => exact h
  | cons c x ih => exact ih (h.step c)

lemma Keyword.Proper.run {k : Keyword} (h : k.Proper) (x : List Char) : (k.run x).Proper := by
  induction x generalizing k with
  | nil => exact h
  | cons c x ih => exact ih (h.step c)

/-- Blanks in front of a line feed do nothing to the two readings. -/
lemma run_blank_newline {reader : Reader} (hreader : reader.Proper) {keyword : Keyword}
    (hkeyword : keyword.Proper) {k : List Char} (hk : allBlank k = true) :
    reader.run (k ++ ['\n']) = reader.step '\n' ∧
      keyword.run (k ++ ['\n']) = keyword.step '\n' := by
  have hblank : allBlank (k ++ ['\n']) = true := by
    rw [allBlank_append, hk]
    rfl
  have hnewline : Scanner.blankOf (k ++ ['\n']) = '\n' := by simp [Scanner.blankOf]
  have hrun := Scanner.run_of_blank (s := .reading false reader keyword) ⟨hreader, hkeyword⟩ hblank
    (by simp)
  rw [Scanner.run_reading_of_blank _ _ _ hblank, hnewline,
    Scanner.step_reading_of_blank _ _ _ isBlank_newline, Scanner.reading.injEq] at hrun
  exact hrun.2

/-- Blanks in front of a line feed do not matter for where a text is closed and whether it declares
an import. -/
lemma run_trim {k : List Char} (hk : allBlank k = true) (x z : List Char) :
    Reader.code.run (x ++ (k ++ '\n' :: z)) = Reader.code.run (x ++ '\n' :: z) ∧
      Keyword.gap.run (x ++ (k ++ '\n' :: z)) = Keyword.gap.run (x ++ '\n' :: z) := by
  obtain ⟨hreader, hkeyword⟩ := run_blank_newline
    (Reader.Proper.run (s := .code) trivial x) (Keyword.Proper.run (k := .gap) trivial x) hk
  rw [List.append_cons k]
  simp only [Reader.run_append, Keyword.run_append]
  rw [← Reader.run_append _ k, ← Keyword.run_append _ k, hreader, hkeyword]
  exact ⟨rfl, rfl⟩

/-- A statement without the blanks at the end of one of its lines. -/
lemma Delimited.trim {x k z : List Char} (h : Delimited (x ++ (k ++ '\n' :: z))) (hx : x ≠ [])
    (hk : allBlank k = true) :
    Delimited (x ++ '\n' :: z) ∧
      declaresImport (x ++ '\n' :: z) = declaresImport (x ++ (k ++ '\n' :: z)) := by
  obtain ⟨hreader, hkeyword⟩ := run_trim hk x z
  refine ⟨⟨?_, hreader ▸ h.closed⟩, by rw [declaresImport, declaresImport, hkeyword]⟩
  obtain ⟨c, t, hct, hc⟩ := h.visible
  obtain ⟨d, x, rfl⟩ := List.exists_cons_of_ne_nil hx
  exact ⟨d, x ++ '\n' :: z, rfl, (List.cons.inj hct).1 ▸ hc⟩

/-! ### The comment behind a statement -/

/-- Blanks do not open a comment. -/
lemma commentAhead_append_blank {k : List Char} (hk : allBlank k = true) (hnl : '\n' ∉ k)
    (x : List Char) : commentAhead (x ++ k) = commentAhead x := by
  induction x with
  | nil =>
      have hall : ∀ c ∈ k, inlineBlank c = true := by
        intro c hc
        rw [inlineBlank, List.all_eq_true.mp hk c hc, Bool.true_and, bne_iff_ne]
        rintro rfl
        exact hnl hc
      rw [List.nil_append, commentAhead, List.dropWhile_eq_nil_iff.mpr hall]
      rfl
  | cons c x ih =>
      by_cases hc : inlineBlank c = true
      · rw [List.cons_append, commentAhead_cons_of_blank hc, commentAhead_cons_of_blank hc, ih]
      · rw [List.cons_append, commentAhead_cons_of_not_blank (by simpa using hc),
          commentAhead_cons_of_not_blank (by simpa using hc)]
        cases x with
        | cons d x => rfl
        | nil =>
            cases k with
            | nil => rfl
            | cons d k =>
                have hd : '/' ≠ d := by
                  rintro rfl
                  exact not_mem_of_allBlank hk (by decide) List.mem_cons_self
                simp [List.isPrefixOf_cons_cons, hd]

/-- What a statement takes of the text behind its delimiter does not depend on blanks at the end of
a line. -/
lemma Leaves.trim {comment x k y : List Char} (h : Leaves comment (x ++ (k ++ y)))
    (hk : Dangling k y) : Leaves comment (x ++ y) := by
  rcases h with ⟨hnil, hahead⟩ | ⟨hcomment, hnl, hend⟩
  · refine Or.inl ⟨hnil, ?_⟩
    rw [← List.append_assoc, commentAhead_append hk.lineEnd,
      commentAhead_append_blank hk.blank hk.inline] at hahead
    rw [commentAhead_append hk.lineEnd, hahead]
  · refine Or.inr ⟨hcomment, hnl, ?_⟩
    cases x with
    | cons c x => exact atLineEnd_cons.mpr (atLineEnd_cons.mp hend)
    | nil => exact hk.lineEnd

/-- A comment without the blanks at its end. -/
lemma Leaves.trim_comment {a k y : List Char} (h : Leaves (a ++ k) y) (hk : Dangling k y) :
    Leaves a y := by
  rcases h with ⟨hnil, hahead⟩ | ⟨hcomment, hnl, hend⟩
  · exact Or.inl ⟨(List.append_eq_nil_iff.mp hnil).1, hahead⟩
  · rw [commentAhead_append_blank hk.blank hk.inline] at hcomment
    exact Or.inr ⟨hcomment, fun hmem => hnl (List.mem_append_left k hmem), hend⟩

/-! ### Where the blanks stand -/

/-- What begins at a line end begins with a line feed. -/
lemma AtLineEnd.exists_of_ne_nil {c r : List Char} (h : AtLineEnd (c ++ r)) (hc : c ≠ []) :
    ∃ z, c = '\n' :: z := by
  obtain ⟨d, z, rfl⟩ := List.exists_cons_of_ne_nil hc
  exact ⟨z, by rw [atLineEnd_cons.mp h]⟩

/-- A statement does not begin with blanks, nor does it begin at a line end. -/
lemma Delimited.append_ne {core : List Char} (h : Delimited core) (r : List Char) {k y : List Char}
    (hk : allBlank k = true) (hy : AtLineEnd y) : core ++ r ≠ k ++ y := by
  obtain ⟨c, t, rfl, hc⟩ := h.visible
  intro heq
  cases k with
  | nil =>
      rw [List.nil_append] at heq
      rw [← heq] at hy
      rw [atLineEnd_cons.mp hy, isBlank_newline] at hc
      simp at hc
  | cons d k =>
      obtain rfl : c = d := (List.cons.inj heq).1
      exact not_mem_of_allBlank hk hc List.mem_cons_self

/-- A statement does not end with blanks. -/
lemma Delimited.not_allBlank {x y : List Char} (h : Delimited (x ++ y)) (hy : y ≠ []) :
    allBlank y = false := by
  obtain ⟨z, hz⟩ := h.exists_eq
  obtain ⟨y, c, rfl⟩ := (List.eq_nil_or_concat y).resolve_left hy
  have hc : c = ';' := by simpa using congrArg List.getLast? hz
  rw [List.concat_eq_append, allBlank_append, hc, Bool.and_eq_false_iff]
  exact Or.inr (by decide)

/-- Blanks at the end of a line stand in front of a statement, inside of it or behind it. -/
lemma Dangling.cases {x k y gap core r : List Char} (hk : Dangling k y) (hcore : Delimited core)
    (h : gap ++ (core ++ r) = x ++ (k ++ y)) :
    (∃ z, gap = x ++ (k ++ '\n' :: z) ∧ y = '\n' :: z ++ (core ++ r)) ∨
      (∃ a z, x = gap ++ a ∧ a ≠ [] ∧ core = a ++ (k ++ '\n' :: z) ∧ y = '\n' :: z ++ r) ∨
      ∃ a, x = gap ++ (core ++ a) ∧ r = a ++ (k ++ y) := by
  rcases List.append_eq_append_iff.mp h with ⟨a, rfl, hx⟩ | ⟨b, rfl, hy⟩
  · rcases List.append_eq_append_iff.mp hx with ⟨a, rfl, hr⟩ | ⟨b, rfl, hy⟩
    · exact Or.inr (Or.inr ⟨a, rfl, hr⟩)
    by_cases hb : b = []
    · exact Or.inr (Or.inr ⟨[], by simp [hb], by rw [hy, hb]; rfl⟩)
    -- the statement ends with its delimiter, so the blanks do not reach its end
    have hblank := hcore.not_allBlank hb
    rcases List.append_eq_append_iff.mp hy with ⟨c, rfl, rfl⟩ | ⟨c, rfl, -⟩
    · have hc : c ≠ [] := by
        rintro rfl
        rw [List.append_nil, hk.blank] at hblank
        simp at hblank
      obtain ⟨z, rfl⟩ := hk.lineEnd.exists_of_ne_nil hc
      refine Or.inr (Or.inl ⟨a, z, rfl, ?_, rfl, rfl⟩)
      rintro rfl
      exact hcore.append_ne r hk.blank hk.lineEnd (by simp)
    · have hall := hk.blank
      rw [allBlank_append, hblank] at hall
      simp at hall
  · -- nor do they reach its start
    rcases List.append_eq_append_iff.mp hy with ⟨c, rfl, rfl⟩ | ⟨c, rfl, hr⟩
    · have hc : c ≠ [] := by
        rintro rfl
        exact hcore.append_ne r (k := []) rfl hk.lineEnd rfl
      obtain ⟨z, rfl⟩ := hk.lineEnd.exists_of_ne_nil hc
      exact Or.inl ⟨z, rfl, rfl⟩
    · have hall := hk.blank
      rw [allBlank_append, Bool.and_eq_true] at hall
      exact absurd hr (hcore.append_ne r hall.2 hk.lineEnd)

/-! ### Pieces without the blanks -/

/-- Pieces of which one loses the blanks `k`, which stand behind the text `x`: between two
statements, where a line feed follows, or in a statement. -/
inductive Trims (k : List Char) : List Char → List Piece → List Piece → Prop
  | gap {x y text : List Char} {rest : List Piece} :
      Trims k x (⟨x ++ (k ++ '\n' :: y), text⟩ :: rest) (⟨x ++ '\n' :: y, text⟩ :: rest)
  | text {gap text text' x y : List Char} {rest : List Piece} (htext : text = x ++ (k ++ y))
      (htext' : text' = x ++ y) (hy : AtLineEnd y)
      (himport : declaresImport text' = declaresImport text) :
      Trims k (gap ++ x) (⟨gap, text⟩ :: rest) (⟨gap, text'⟩ :: rest)
  | later {x : List Char} {piece : Piece} {rest rest' : List Piece} (h : Trims k x rest rest') :
      Trims k (piece.source ++ x) (piece :: rest) (piece :: rest')

/-- Blanks less in front of a line feed. -/
lemma allBlank_trim {x k z : List Char} (h : allBlank (x ++ (k ++ '\n' :: z)) = true) :
    allBlank (x ++ '\n' :: z) = true := by
  rw [allBlank_append, allBlank_append_newline, Bool.and_eq_true, Bool.and_eq_true] at h
  rw [allBlank_append_newline, h.1, h.2.2]
  rfl

/-- The blanks behind a statement stand at the end of its comment or in the text that it leaves. -/
lemma Dangling.cases_comment {comment rest a k y : List Char} (hk : Dangling k y)
    (hleaves : Leaves comment rest) (h : comment ++ rest = a ++ (k ++ y)) :
    (comment = a ++ k ∧ rest = y) ∨ ∃ x, a = comment ++ x ∧ rest = x ++ (k ++ y) := by
  rcases List.append_eq_append_iff.mp h with ⟨x, rfl, hrest⟩ | ⟨b, rfl, hy⟩
  · exact Or.inr ⟨x, rfl, hrest⟩
  by_cases hb : b = []
  · exact Or.inr ⟨[], by simp [hb], by rw [hy, hb]; rfl⟩
  -- the comment goes on up to the end of its line
  obtain ⟨hnl, hend⟩ : '\n' ∉ a ++ b ∧ AtLineEnd rest := by
    rcases hleaves with ⟨hnil, -⟩ | ⟨-, hnl, hend⟩
    · exact absurd (List.append_eq_nil_iff.mp hnil).2 hb
    · exact ⟨hnl, hend⟩
  rcases List.append_eq_append_iff.mp hy with ⟨c, rfl, rfl⟩ | ⟨c, rfl, rfl⟩
  · obtain rfl : c = [] := by
      by_contra hc
      obtain ⟨z, rfl⟩ := hk.lineEnd.exists_of_ne_nil hc
      exact hnl (by simp)
    exact Or.inl ⟨by simp, rfl⟩
  · obtain rfl : c = [] := by
      by_contra hc
      obtain ⟨z, rfl⟩ := hend.exists_of_ne_nil hc
      exact hk.inline (by simp)
    exact Or.inl ⟨by simp, rfl⟩

/-- A text that can be told apart can be told apart without the blanks at the end of one of its
lines. -/
lemma Reads.trim {afterImport : Bool} {text x k y : List Char} {pieces : List Piece}
    (h : Reads afterImport text pieces) (htext : text = x ++ (k ++ y)) (hk : Dangling k y) :
    ∃ pieces', Trims k x pieces pieces' ∧ Reads afterImport (x ++ y) pieces' := by
  induction h generalizing x with
  | @body gap core rest hgap hcore himport =>
      rcases hk.cases hcore htext with ⟨z, rfl, rfl⟩ | ⟨a, z, rfl, ha, rfl, rfl⟩ | ⟨a, rfl, rfl⟩
      · refine ⟨_, .gap, ?_⟩
        rw [← List.append_assoc]
        exact .body (allBlank_trim hgap) hcore himport
      · obtain ⟨hcore', himport'⟩ := hcore.trim ha hk.blank
        refine ⟨[⟨gap, a ++ '\n' :: z ++ rest⟩],
          .text (y := '\n' :: z ++ rest) (by simp) (by simp) hk.lineEnd ?_, ?_⟩
        · rw [declaresImport_append hcore'.closed, declaresImport_append hcore.closed, himport']
        · have hbody : Reads true (gap ++ (a ++ '\n' :: z ++ rest))
              [⟨gap, a ++ '\n' :: z ++ rest⟩] := .body hgap hcore' (himport'.trans himport)
          simpa using hbody
      · refine ⟨[⟨gap, core ++ (a ++ y)⟩],
          .text (x := core ++ a) (y := y) (by simp) (by simp) hk.lineEnd ?_, ?_⟩
        · rw [declaresImport_append hcore.closed, declaresImport_append hcore.closed]
        · have hbody : Reads true (gap ++ (core ++ (a ++ y))) [⟨gap, core ++ (a ++ y)⟩] :=
            .body hgap hcore himport
          simpa using hbody
  | @next afterImport gap core comment rest pieces hgap hcore himport hleaves hrest ih =>
      rcases hk.cases hcore htext with ⟨z, rfl, rfl⟩ | ⟨a, z, rfl, ha, rfl, rfl⟩ | ⟨a, rfl, hr⟩
      · refine ⟨_, .gap, ?_⟩
        rw [← List.append_assoc]
        exact .next (allBlank_trim hgap) hcore himport hleaves hrest
      · obtain ⟨hcore', himport'⟩ := hcore.trim ha hk.blank
        refine ⟨⟨gap, a ++ '\n' :: z ++ comment⟩ :: pieces,
          .text (y := '\n' :: z ++ comment) (by simp) (by simp) (Or.inr ⟨_, rfl⟩) ?_, ?_⟩
        · rw [declaresImport_append hcore'.closed, declaresImport_append hcore.closed, himport']
        · have hnext := Reads.next hgap hcore' (fun hafter => himport'.trans (himport hafter))
            hleaves (himport' ▸ hrest)
          simpa using hnext
      · rcases hk.cases_comment hleaves hr with ⟨rfl, rfl⟩ | ⟨b, rfl, hrest'⟩
        · refine ⟨⟨gap, core ++ a⟩ :: pieces,
            .text (x := core ++ a) (y := []) (by simp) (by simp) (Or.inl rfl) ?_, ?_⟩
          · rw [declaresImport_append hcore.closed, declaresImport_append hcore.closed]
          · simpa using Reads.next hgap hcore himport (hleaves.trim_comment hk) hrest
        · obtain ⟨pieces', htrims, hreads⟩ := ih hrest'
          refine ⟨⟨gap, core ++ comment⟩ :: pieces', ?_, ?_⟩
          · have hlater : Trims k (Piece.source ⟨gap, core ++ comment⟩ ++ b) _ _ := .later htrims
            simpa [Piece.source] using hlater
          · have hnext := Reads.next hgap hcore himport ((hrest' ▸ hleaves).trim hk) hreads
            simpa using hnext

namespace Trims

variable {k x : List Char} {pieces pieces' : List Piece}

/-- Line feeds between the pieces stay where they are. -/
lemma countP_gap (h : Trims k x pieces pieces') :
    (pieces'.countP fun piece => decide ('\n' ∉ piece.gap)) =
      pieces.countP fun piece => decide ('\n' ∉ piece.gap) := by
  induction h with
  | gap => simp
  | text => rfl
  | later _ ih => rw [List.countP_cons, List.countP_cons, ih]

lemma map_declaresImport (h : Trims k x pieces pieces') :
    (pieces'.map Piece.text).map declaresImport = (pieces.map Piece.text).map declaresImport := by
  induction h with
  | gap => rfl
  | text _ _ _ himport => rw [List.map_cons, List.map_cons, List.map_cons, List.map_cons, himport]
  | later _ ih => rw [List.map_cons, List.map_cons, List.map_cons, List.map_cons, ih]

/-- The blanks in front of the first statement stay if there is no line feed in them. -/
lemma exists_cons {piece : Piece} {rest : List Piece} (h : Trims k x (piece :: rest) pieces')
    (hgap : '\n' ∉ piece.gap) : ∃ text rest', pieces' = ⟨piece.gap, text⟩ :: rest' := by
  cases h with
  | gap => simp at hgap
  | text => exact ⟨_, _, rfl⟩
  | later => exact ⟨_, _, rfl⟩

end Trims

end LintRepair
