import LintRepair.Proofs.Statement.Pieces

/-!
Whether the statements of a text can be told apart.

A machine that takes one character after the other finds out whether a text has statements up to
its body: it looks for the delimiter and tests for the keyword at the same time, and starts both
again behind each delimiter. Blanks move it only by whether there is a line feed among them, so a
text stays readable when its blanks are changed.

* `Scanner`: the machine; `exists_reads_iff` and `statements_ok_iff` say what it decides.
* `Scanner.Proper`: what holds of all its states.
* `Scanner.run_of_blank`: what blanks do to it.
* `Scanner.Alike`: texts that do the same to it.
-/

namespace LintRepair

/-! ### Blanks and the two readings -/

namespace Reader

/-- The quote of a literal is visible. -/
def Proper : Reader → Prop
  | literal quote => isBlank quote = false
  | escape quote => isBlank quote = false
  | _ => True

lemma proper_codeStep (c : Char) : (codeStep c).Proper := by
  rw [codeStep]
  split_ifs with h1 h2 h3
  · trivial
  · trivial
  · rcases h3 with rfl | rfl <;> rfl
  · trivial

lemma Proper.step {s : Reader} (h : s.Proper) (c : Char) : (s.step c).Proper := by
  cases s with
  | code => exact proper_codeStep c
  | slash =>
      simp only [Reader.step]
      split_ifs
      · trivial
      · trivial
      · exact proper_codeStep c
  | comment | block | star =>
      simp only [Reader.step]
      split_ifs <;> trivial
  | closed | past => trivial
  | literal quote | escape quote =>
      simp only [Reader.step]
      split_ifs <;> trivial

/-- All blanks but the line feed are the same to the reader. -/
lemma step_of_blank {s : Reader} (h : s.Proper) {c : Char} (hc : isBlank c = true)
    (hnl : c ≠ '\n') : s.step c = s.step ' ' := by
  have hcode : codeStep c = codeStep ' ' := by
    rw [codeStep_of_blank hc, codeStep_of_blank (by decide)]
  have hslash : c ≠ '/' := by rintro rfl; revert hc; decide
  have hstar : c ≠ '*' := by rintro rfl; revert hc; decide
  have hback : c ≠ '\\' := by rintro rfl; revert hc; decide
  cases s with
  | code => exact hcode
  | slash => simp [step, hslash, hstar, hcode]
  | comment | escape => simp [step, hnl]
  | block => simp [step, hstar]
  | star => simp [step, hslash, hstar]
  | literal quote =>
      have hquote : ∀ d, isBlank d = true → d ≠ quote := by
        rintro d hd rfl
        rw [Proper, hd] at h
        simp at h
      simp [step, hback, hnl, hquote c hc, hquote ' ' (by decide)]
  | closed | past => rfl

/-- Behind a line feed a blank does nothing. -/
lemma step_newline_step {s : Reader} (h : s.Proper) {c : Char} (hc : isBlank c = true) :
    (s.step '\n').step c = s.step '\n' := by
  have hcode := codeStep_of_blank hc
  have hstar : c ≠ '*' := by rintro rfl; revert hc; decide
  have hnl : codeStep '\n' = code := codeStep_of_blank isBlank_newline
  cases s with
  | code | slash | comment | escape => simp [step, hnl, hcode]
  | block | star => simp [step, hstar]
  | literal quote => simp [step, hcode]
  | closed | past => rfl

/-- A space in front of a blank does nothing. -/
lemma step_space_step {s : Reader} (h : s.Proper) {c : Char} (hc : isBlank c = true) :
    (s.step ' ').step c = s.step c := by
  have hspace : codeStep ' ' = code := codeStep_of_blank (by decide)
  have hcode := codeStep_of_blank hc
  have hslash : c ≠ '/' := by rintro rfl; revert hc; decide
  have hstar : c ≠ '*' := by rintro rfl; revert hc; decide
  have hback : c ≠ '\\' := by rintro rfl; revert hc; decide
  cases s with
  | code | slash => simp [step, hspace, hcode, hslash, hstar]
  | comment => simp [step]
  | block | star => simp [step, hslash, hstar]
  | literal quote | escape quote =>
      have hquote : ∀ d, isBlank d = true → d ≠ quote := by
        rintro d hd rfl
        rw [Proper, hd] at h
        simp at h
      simp [step, hback, hquote c hc, hquote ' ' (by decide)]
  | closed | past => rfl

end Reader

namespace Keyword

/-- The letters to come are visible. -/
def Proper : Keyword → Prop
  | word left => ∀ c ∈ left, isBlank c = false
  | _ => True

lemma Proper.step {k : Keyword} (h : k.Proper) (c : Char) : (k.step c).Proper := by
  cases k with
  | gap =>
      simp only [Keyword.step]
      split_ifs
      · trivial
      · trivial
      · intro d hd
        have hvisible : keywordTail.all (!isBlank ·) = true := by decide
        simpa using List.all_eq_true.mp hvisible d hd
      · trivial
  | word left =>
      cases left with
      | nil =>
          simp only [Keyword.step]
          split_ifs <;> trivial
      | cons d left =>
          simp only [Keyword.step]
          split_ifs
          · exact fun e he => h e (List.mem_cons_of_mem d he)
          · trivial
  | slash | block | star | comment =>
      simp only [Keyword.step]
      split_ifs <;> trivial
  | yes | no => trivial

/-- All blanks but the line feed are the same to the test. -/
lemma step_of_blank {k : Keyword} (h : k.Proper) {c : Char} (hc : isBlank c = true)
    (hnl : c ≠ '\n') : k.step c = k.step ' ' := by
  have hslash : c ≠ '/' := by rintro rfl; revert hc; decide
  have hstar : c ≠ '*' := by rintro rfl; revert hc; decide
  cases k with
  | gap => simp [step, hc, isBlank_space]
  | slash => simp [step, hslash, hstar]
  | block => simp [step, hstar]
  | star => simp [step, hslash, hstar]
  | comment => simp [step, hnl]
  | word left =>
      cases left with
      | nil => simp [step, hc, isBlank_space]
      | cons d left =>
          have hd : ∀ e, isBlank e = true → e ≠ d := by
            rintro e he rfl
            rw [h e List.mem_cons_self] at he
            simp at he
          simp [step, hd c hc, hd ' ' isBlank_space]
  | yes | no => rfl

/-- Behind a line feed a blank does nothing. -/
lemma step_newline_step {k : Keyword} (h : k.Proper) {c : Char} (hc : isBlank c = true) :
    (k.step '\n').step c = k.step '\n' := by
  have hstar : c ≠ '*' := by rintro rfl; revert hc; decide
  cases k with
  | gap | comment => simp [step, isBlank_newline, hc]
  | slash => simp [step]
  | block | star => simp [step, hstar]
  | word left =>
      cases left with
      | nil => simp [step, isBlank_newline]
      | cons d left =>
          have hd : '\n' ≠ d := by
            rintro rfl
            have hblank := h '\n' List.mem_cons_self
            rw [isBlank_newline] at hblank
            simp at hblank
          simp [step, hd]
  | yes | no => rfl

/-- A space in front of a blank does nothing. -/
lemma step_space_step {k : Keyword} (h : k.Proper) {c : Char} (hc : isBlank c = true) :
    (k.step ' ').step c = k.step c := by
  have hslash : c ≠ '/' := by rintro rfl; revert hc; decide
  have hstar : c ≠ '*' := by rintro rfl; revert hc; decide
  cases k with
  | gap => simp [step, isBlank_space]
  | slash => simp [step, hslash, hstar]
  | block | star => simp [step, hslash, hstar]
  | comment => simp [step]
  | word left =>
      cases left with
      | nil => simp [step, isBlank_space, hc]
      | cons d left =>
          have hd : ∀ e, isBlank e = true → e ≠ d := by
            rintro e he rfl
            rw [h e List.mem_cons_self] at he
            simp at he
          simp [step, hd c hc, hd ' ' isBlank_space]
  | yes | no => rfl

end Keyword

/-! ### The machine -/

/-- How far the reading of a text has come. -/
inductive Scanner where
  /-- Inside a statement or in front of one. The flag says whether it follows an import. -/
  | reading (afterImport : Bool) (reader : Reader) (keyword : Keyword)
  /-- Inside the body. -/
  | done
deriving DecidableEq

namespace Scanner

/-- In front of a statement. -/
def fresh (afterImport : Bool) : Scanner := reading afterImport .code .gap

/-- Reads one character. -/
def step : Scanner → Char → Scanner
  | reading afterImport reader keyword, c =>
      if reader.step c = .closed then
        if afterImport = true ∧ keyword.step c ≠ .yes then done
        else fresh (decide (keyword.step c = .yes))
      else reading afterImport (reader.step c) (keyword.step c)
  | done, _ => done

/-- Reads a text. -/
def run (s : Scanner) (x : List Char) : Scanner := x.foldl step s

@[simp] lemma run_nil (s : Scanner) : s.run [] = s := rfl

@[simp] lemma run_cons (s : Scanner) (c : Char) (x : List Char) :
    s.run (c :: x) = (s.step c).run x := rfl

lemma run_append (s : Scanner) (x y : List Char) : s.run (x ++ y) = (s.run x).run y := by
  rw [run, List.foldl_append]
  rfl

@[simp] lemma run_done (x : List Char) : done.run x = done := by
  induction x with
  | nil => rfl
  | cons c x ih => exact ih

/-- Both readings are in a state that they can come to. -/
def Proper : Scanner → Prop
  | reading _ reader keyword => reader.Proper ∧ keyword.Proper
  | done => True

lemma proper_fresh (afterImport : Bool) : (fresh afterImport).Proper := ⟨trivial, trivial⟩

lemma Proper.step {s : Scanner} (h : s.Proper) (c : Char) : (s.step c).Proper := by
  cases s with
  | reading afterImport reader keyword =>
      rw [Scanner.step]
      split_ifs
      · trivial
      · exact proper_fresh _
      · exact ⟨h.1.step c, h.2.step c⟩
  | done => trivial

lemma Proper.run {s : Scanner} (h : s.Proper) (x : List Char) : (s.run x).Proper := by
  induction x generalizing s with
  | nil => exact h
  | cons c x ih => exact ih (h.step c)

/-! ### Blanks -/

/-- A blank does not end a statement. -/
lemma step_reading_of_blank (afterImport : Bool) (reader : Reader) (keyword : Keyword) {c : Char}
    (hc : isBlank c = true) :
    (reading afterImport reader keyword).step c =
      reading afterImport (reader.step c) (keyword.step c) := by
  rw [step, if_neg]
  intro h
  rw [Reader.step_eq_closed h] at hc
  revert hc
  decide

lemma run_reading_of_blank (afterImport : Bool) (reader : Reader) (keyword : Keyword)
    {x : List Char} (hx : allBlank x = true) :
    (reading afterImport reader keyword).run x =
      reading afterImport (reader.run x) (keyword.run x) := by
  induction x generalizing reader keyword with
  | nil => rfl
  | cons c x ih =>
      rw [allBlank, List.all_cons, Bool.and_eq_true] at hx
      rw [run_cons, step_reading_of_blank _ _ _ hx.1, ih _ _ hx.2]
      rfl

lemma run_fresh_of_blank (afterImport : Bool) {x : List Char} (hx : allBlank x = true) :
    (fresh afterImport).run x = fresh afterImport := by
  rw [fresh, run_reading_of_blank _ _ _ hx, Reader.run_code_of_blank hx,
    Keyword.run_gap_of_blank hx]

/-- Blanks do not end a text that is not at its body. -/
lemma run_append_blank {s : Scanner} {x k : List Char} (hk : allBlank k = true) :
    s.run (x ++ k) = done ↔ s.run x = done := by
  rw [run_append]
  cases s.run x with
  | done => simp
  | reading afterImport reader keyword => simp [run_reading_of_blank _ _ _ hk]

/-- All blanks but the line feed are the same to the machine. -/
lemma step_of_blank {s : Scanner} (hs : s.Proper) {c : Char} (hc : isBlank c = true)
    (hnl : c ≠ '\n') : s.step c = s.step ' ' := by
  cases s with
  | done => rfl
  | reading afterImport reader keyword =>
      rw [step_reading_of_blank _ _ _ hc, step_reading_of_blank _ _ _ (by decide),
        Reader.step_of_blank hs.1 hc hnl, Keyword.step_of_blank hs.2 hc hnl]

/-- Behind a line feed a blank does nothing. -/
lemma step_newline_step {s : Scanner} (hs : s.Proper) {c : Char} (hc : isBlank c = true) :
    (s.step '\n').step c = s.step '\n' := by
  cases s with
  | done => rfl
  | reading afterImport reader keyword =>
      rw [step_reading_of_blank _ _ _ isBlank_newline, step_reading_of_blank _ _ _ hc,
        Reader.step_newline_step hs.1 hc, Keyword.step_newline_step hs.2 hc]

/-- A space in front of a blank does nothing. -/
lemma step_space_step {s : Scanner} (hs : s.Proper) {c : Char} (hc : isBlank c = true) :
    (s.step ' ').step c = s.step c := by
  cases s with
  | done => rfl
  | reading afterImport reader keyword =>
      rw [step_reading_of_blank _ _ _ (by decide), step_reading_of_blank _ _ _ hc,
        step_reading_of_blank _ _ _ hc, Reader.step_space_step hs.1 hc,
        Keyword.step_space_step hs.2 hc]

/-- The character that stands for blanks: a line feed if there is one among them. -/
def blankOf (x : List Char) : Char := if '\n' ∈ x then '\n' else ' '

lemma isBlank_blankOf (x : List Char) : isBlank (blankOf x) = true := by
  rw [blankOf]
  split_ifs <;> decide

/-- Blanks do to the machine what a line feed or a space does. -/
lemma run_of_blank {s : Scanner} (hs : s.Proper) {x : List Char} (hx : allBlank x = true)
    (hne : x ≠ []) : s.run x = s.step (blankOf x) := by
  induction x generalizing s with
  | nil => exact absurd rfl hne
  | cons c x ih =>
      rw [allBlank, List.all_cons, Bool.and_eq_true] at hx
      by_cases hnl : c = '\n'
      · have hblank : blankOf (c :: x) = '\n' := by simp [blankOf, hnl]
        cases x with
        | nil => rw [run_cons, run_nil, hblank, hnl]
        | cons d x =>
            rw [run_cons, ih (hs.step c) hx.2 (List.cons_ne_nil d x), hblank, hnl,
              step_newline_step hs (isBlank_blankOf _)]
      · have hblank : blankOf (c :: x) = blankOf x := by simp [blankOf, Ne.symm hnl]
        cases x with
        | nil =>
            rw [run_cons, run_nil, hblank, step_of_blank hs hx.1 hnl]
            rfl
        | cons d x =>
            rw [run_cons, ih (hs.step c) hx.2 (List.cons_ne_nil d x), hblank,
              step_of_blank hs hx.1 hnl, step_space_step hs (isBlank_blankOf _)]

/-! ### Texts that are read alike -/

/-- Two texts do the same to the machine, whatever was read before. -/
def Alike (x y : List Char) : Prop := ∀ s : Scanner, s.Proper → s.run x = s.run y

lemma Alike.refl (x : List Char) : Alike x x := fun _ _ => rfl

lemma Alike.append {x y x' y' : List Char} (h : Alike x y) (h' : Alike x' y') :
    Alike (x ++ x') (y ++ y') := by
  intro s hs
  rw [run_append, run_append, h s hs, h' _ (hs.run y)]

/-- Blanks are read alike if there is a line feed in both of them or in none. -/
lemma alike_of_blank {x y : List Char} (hx : allBlank x = true) (hy : allBlank y = true)
    (hxne : x ≠ []) (hyne : y ≠ []) (h : '\n' ∈ x ↔ '\n' ∈ y) : Alike x y := by
  intro s hs
  rw [run_of_blank hs hx hxne, run_of_blank hs hy hyne]
  simp only [blankOf, h]

end Scanner

/-! ### What the machine decides -/

namespace Scanner

/-- As long as no delimiter comes, both readings go on. -/
lemma run_reading_of_live {reader : Reader} {x : List Char} (h : (reader.run x).Live)
    (afterImport : Bool) (keyword : Keyword) :
    (reading afterImport reader keyword).run x =
      reading afterImport (reader.run x) (keyword.run x) := by
  induction x generalizing reader keyword with
  | nil => rfl
  | cons c x ih =>
      have hlive : (reader.step c).Live := Reader.Live.of_run (x := [c]) (y := x) h
      rw [run_cons, step, if_neg hlive.1, ih h]
      rfl

/-- A statement up to its delimiter. -/
lemma run_fresh_of_delimited {core : List Char} (hcore : Delimited core) (afterImport : Bool) :
    (fresh afterImport).run core =
      if afterImport = true ∧ declaresImport core = false then done
      else fresh (declaresImport core) := by
  obtain ⟨x, rfl⟩ := hcore.exists_eq
  have hclosed := hcore.closed
  rw [Reader.run_append, Reader.run_cons, Reader.run_nil] at hclosed
  have hlive : (Reader.code.run x).Live := by
    constructor
    · intro hx
      rw [hx] at hclosed
      simp [Reader.step] at hclosed
    · intro hx
      rw [hx] at hclosed
      simp [Reader.step] at hclosed
  have hkeyword : declaresImport (x ++ [';']) = decide ((Keyword.gap.run x).step ';' = .yes) := by
    rw [declaresImport, Keyword.run_append]
    rfl
  rw [run_append, fresh, run_reading_of_live hlive, run_cons, run_nil, step, if_pos hclosed,
    hkeyword]
  simp

/-- A line comment is read up to the end of its line. -/
lemma run_fresh_of_comment {x : List Char} (h : commentAhead x = true) (hnl : '\n' ∉ x)
    (afterImport : Bool) :
    (fresh afterImport).run x = reading afterImport .comment .comment := by
  obtain ⟨t, ht⟩ := List.isPrefixOf_iff_prefix.mp h
  have hx : x = x.takeWhile inlineBlank ++ '/' :: '/' :: t := by
    conv_lhs => rw [← List.takeWhile_append_dropWhile (p := inlineBlank) (l := x), ← ht]
    rfl
  have hblank : allBlank (x.takeWhile inlineBlank) = true := by
    refine List.all_eq_true.mpr fun c hc => ?_
    have hc' := List.all_eq_true.mp (List.all_takeWhile (p := inlineBlank) (l := x)) c hc
    rw [inlineBlank, Bool.and_eq_true] at hc'
    exact hc'.1
  have ht : '\n' ∉ t := fun hm => hnl (by rw [hx]; simp [hm])
  have hstart : (fresh afterImport).run ['/', '/'] = reading afterImport .comment .comment := rfl
  have hend : (Reader.comment.run t).Live := by
    rw [Reader.run_comment ht]
    exact ⟨by simp, by simp⟩
  rw [hx, run_append, run_fresh_of_blank _ hblank]
  change ((fresh afterImport).run ['/', '/']).run t = _
  rw [hstart, run_reading_of_live hend, Reader.run_comment ht, Keyword.run_comment ht]

/-- A text behind a line comment is read as if the comment were not there. -/
lemma run_fresh_of_leaves {comment rest : List Char} (h : Leaves comment rest) (hne : rest ≠ [])
    (afterImport : Bool) :
    (fresh afterImport).run (comment ++ rest) = (fresh afterImport).run rest := by
  rcases h with ⟨rfl, -⟩ | ⟨hcomment, hnl, hend⟩
  · rfl
  · rcases hend with rfl | ⟨r, rfl⟩
    · exact absurd rfl hne
    · rw [run_append, run_fresh_of_comment hcomment hnl]
      rfl

/-- The pieces of a text lead the machine to its body. -/
lemma run_of_reads {afterImport : Bool} {x : List Char} {pieces : List Piece}
    (h : Reads afterImport x pieces) : (fresh afterImport).run x = done := by
  induction h with
  | @body gap core rest hgap hcore himport =>
      rw [run_append, run_fresh_of_blank _ hgap, run_append, run_fresh_of_delimited hcore,
        if_pos ⟨rfl, himport⟩, run_done]
  | @next afterImport gap core comment rest pieces hgap hcore himport hleaves hrest ih =>
      have hgo : ¬ (afterImport = true ∧ declaresImport core = false) := by
        rintro ⟨htrue, hfalse⟩
        rw [himport htrue] at hfalse
        simp at hfalse
      rw [run_append, run_fresh_of_blank _ hgap, run_append, run_fresh_of_delimited hcore,
        if_neg hgo, run_fresh_of_leaves hleaves hrest.text_ne_nil, ih]

/-- If the machine gets to the body, there is a first delimiter. -/
lemma exists_delimited_of_run {afterImport : Bool} {x : List Char}
    (h : (fresh afterImport).run x = done) :
    ∃ gap core rest, x = gap ++ (core ++ rest) ∧ allBlank gap = true ∧ Delimited core := by
  have hblank : allBlank (x.takeWhile isBlank) = true := List.all_takeWhile
  have hsplit : x.takeWhile isBlank ++ x.dropWhile isBlank = x := List.takeWhile_append_dropWhile
  have hclosed : ¬ (Reader.code.run (x.dropWhile isBlank)).Live := by
    intro hlive
    rw [← hsplit, run_append, run_fresh_of_blank _ hblank, fresh, run_reading_of_live hlive] at h
    simp at h
  obtain ⟨core, rest, hcore, hrun⟩ :=
    Reader.exists_closed_of_not_live (by simp [Reader.Live]) hclosed
  refine ⟨x.takeWhile isBlank, core, rest, by rw [← hcore, hsplit], hblank, ?_, hrun⟩
  have hhead := List.head?_dropWhile_not isBlank x
  rw [hcore] at hhead
  cases core with
  | nil => simp at hrun
  | cons c core => exact ⟨c, core, rfl, by simpa using hhead⟩

/-- A line comment alone does not lead to the body. -/
lemma ne_nil_of_run_trailing {afterImport : Bool} {x rest : List Char}
    (h : (fresh afterImport).run x = done) (hx : x = trailing x ++ rest) : rest ≠ [] := by
  rintro rfl
  rw [List.append_nil, trailing] at hx
  split_ifs at hx with hcomment
  · have hnl : '\n' ∉ x := by
      rw [hx]
      exact not_mem_takeWhile x
    rw [run_fresh_of_comment hcomment hnl] at h
    simp at h
  · rw [hx] at h
    simp [fresh] at h

end Scanner

/-- A text has pieces just if the machine gets to its body. -/
lemma exists_reads_iff (afterImport : Bool) (x : List Char) :
    (∃ pieces, Reads afterImport x pieces) ↔ (Scanner.fresh afterImport).run x = .done := by
  constructor
  · rintro ⟨pieces, h⟩
    exact Scanner.run_of_reads h
  · intro h
    obtain ⟨n, hn⟩ : ∃ n, x.length = n := ⟨_, rfl⟩
    induction n using Nat.strong_induction_on generalizing afterImport x with
    | _ n ih =>
        obtain ⟨gap, core, rest, rfl, hgap, hcore⟩ := Scanner.exists_delimited_of_run h
        rw [Scanner.run_append, Scanner.run_fresh_of_blank _ hgap, Scanner.run_append,
          Scanner.run_fresh_of_delimited hcore] at h
        by_cases hbody : afterImport = true ∧ declaresImport core = false
        · obtain ⟨rfl, himport⟩ := hbody
          exact ⟨_, .body hgap hcore himport⟩
        · rw [if_neg hbody] at h
          obtain ⟨rest', hrest', hleaves⟩ := exists_leaves rest
          have hne : rest' ≠ [] := Scanner.ne_nil_of_run_trailing h hrest'
          have hlt : rest'.length < n := by
            obtain ⟨c, t, rfl, -⟩ := hcore.visible
            have hlength := congrArg List.length hrest'
            simp only [List.length_append, List.length_cons] at hn hlength
            omega
          rw [hrest', Scanner.run_fresh_of_leaves hleaves hne] at h
          obtain ⟨pieces, hpieces⟩ := ih _ hlt _ _ h rfl
          rw [hrest']
          refine ⟨_, .next hgap hcore (fun htrue => ?_) hleaves hpieces⟩
          by_contra hno
          exact hbody ⟨htrue, by simpa using hno⟩

/-- The statements of a buffer can be told apart just if the machine gets to the body. -/
lemma statements_ok_iff {buffer : Buffer} (hb : buffer.Unbroken) :
    (∃ found, statements buffer = .ok found) ↔
      (Scanner.fresh false).run buffer.above = .done := by
  have hreads : (∃ found, statements buffer = .ok found) ↔
      ∃ pieces, Reads false buffer.text pieces := by
    constructor
    · rintro ⟨found, hfound⟩
      obtain ⟨pieces, hpieces, -⟩ := (statements_iff_reads hb found).mp hfound
      exact ⟨pieces, hpieces⟩
    · rintro ⟨pieces, hpieces⟩
      exact ⟨_, (statements_iff_reads hb _).mpr ⟨pieces, hpieces, rfl⟩⟩
  rw [hreads, exists_reads_iff]
  cases buffer with
  | nil => rfl
  | cons l rest =>
      rw [Buffer.above_eq (List.cons_ne_nil l rest),
        Scanner.run_append_blank (by simp [allBlank, isBlank_newline])]

end LintRepair
