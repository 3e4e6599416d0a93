import Mathlib.Tactic
import LintRepair.Statement

/-!
Reading a text one character at a time.

The search for a delimiter and the test for the keyword `import` look one character ahead. As
machines that take one character after the other they need no look-ahead, and what they do on a
text is composed from what they do on its parts.

* `Reader`: the search for a delimiter. `Reader.run_append` composes runs, and `closed_unique` says
  that a text is closed at one place at most.
* `Keyword`: the test for the keyword; `Statement.isImport_eq` says that it decides `isImport`.
* `keyword_decided`: the keyword is decided when the delimiter is read, so nothing that follows the
  delimiter matters (`declaresImport_append`).
-/

namespace LintRepair

/-! ### The search for a delimiter -/

/-- What the reader of a text stands in. -/
inductive Reader where
  | code
  /-- Just past a slash in code. -/
  | slash
  | comment
  | block
  /-- Just past a star in a block comment. -/
  | star
  | literal (quote : Char)
  /-- Just past a backslash in a literal. -/
  | escape (quote : Char)
  /-- Just past the delimiter. -/
  | closed
  /-- Further on. -/
  | past
deriving DecidableEq

namespace Reader

/-- A character read in code. -/
def codeStep (c : Char) : Reader :=
  if c = ';' then closed
  else if c = '/' then slash
  else if c = '\x22' ∨ c = '\x27' then literal c
  else code

/-- Reads one character. -/
def step : Reader → Char → Reader
  | code, c => codeStep c
  | slash, c => if c = '/' then comment else if c = '*' then block else codeStep c
  | comment, c => if c = '\n' then code else comment
  | block, c => if c = '*' then star else block
  | star, c => if c = '/' then code else if c = '*' then star else block
  | literal quote, c =>
      if c = '\\' then escape quote else if c = quote ∨ c = '\n' then code else literal quote
  | escape quote, c => if c = '\n' then code else literal quote
  | closed, _ => past
  | past, _ => past

/-- Reads a text. -/
def run (s : Reader) (x : List Char) : Reader := x.foldl step s

@[simp] lemma run_nil (s : Reader) : s.run [] = s := rfl

@[simp] lemma run_cons (s : Reader) (c : Char) (x : List Char) :
    s.run (c :: x) = (s.step c).run x := rfl

lemma run_append (s : Reader) (x y : List Char) : s.run (x ++ y) = (s.run x).run y := by
  rw [run, List.foldl_append]
  rfl

/-- The reader is still looking for the delimiter. -/
def Live (s : Reader) : Prop := s ≠ closed ∧ s ≠ past

@[simp] lemma run_past (x : List Char) : past.run x = past := by
  induction x with
  | nil => rfl
  | cons c x ih => exact ih

/-- Past the delimiter the reader does not come back. -/
lemma run_closed {x : List Char} (h : x ≠ []) : closed.run x = past := by
  cases x with
  | nil => exact absurd rfl h
  | cons c x => exact run_past x

/-- A reader that still looks for the delimiter has looked for it all the time. -/
lemma Live.of_run {s : Reader} {x y : List Char} (h : (s.run (x ++ y)).Live) :
    (s.run x).Live := by
  rw [run_append] at h
  refine ⟨fun hc => ?_, fun hp => ?_⟩
  · rw [hc] at h
    cases y with
    | nil => exact h.1 rfl
    | cons c y => exact h.2 (run_closed (List.cons_ne_nil c y))
  · rw [hp, run_past] at h
    exact h.2 rfl

lemma codeStep_eq_closed {c : Char} (h : codeStep c = closed) : c = ';' := by
  rw [codeStep] at h
  split_ifs at h with h1
  exact h1

/-- Only a semicolon closes. -/
lemma step_eq_closed {s : Reader} {c : Char} (h : s.step c = closed) : c = ';' := by
  cases s with
  | code => exact codeStep_eq_closed h
  | slash =>
      simp only [step] at h
      split_ifs at h
      exact codeStep_eq_closed h
  | comment | block | star | literal | escape =>
      simp only [step] at h
      split_ifs at h
  | closed | past => simp [step] at h

/-- A closed text ends with its semicolon. -/
lemma exists_of_run_eq_closed {s : Reader} (hs : s.Live) {x : List Char}
    (h : s.run x = closed) : ∃ y, x = y ++ [';'] := by
  induction x using List.reverseRecOn with
  | nil => exact absurd h hs.1
  | append_singleton y c _ =>
      rw [run_append] at h
      exact ⟨y, by rw [step_eq_closed (s := s.run y) h]⟩

/-- A reader that does not look for the delimiter any more has come across it. -/
lemma exists_closed_of_not_live {s : Reader} (hs : s.Live) {x : List Char}
    (h : ¬ (s.run x).Live) : ∃ y r, x = y ++ r ∧ s.run y = closed := by
  induction x generalizing s with
  | nil => exact absurd hs h
  | cons c x ih =>
      by_cases hclosed : s.step c = closed
      · exact ⟨[c], x, rfl, hclosed⟩
      · have hpast : s.step c ≠ past := by
          cases s with
          | closed => exact absurd rfl hs.1
          | past => exact absurd rfl hs.2
          | code | slash =>
              simp only [step, codeStep]
              split_ifs <;> simp
          | comment | block | star | literal | escape =>
              simp only [step]
              split_ifs <;> simp
        obtain ⟨y, r, rfl, hy⟩ := ih ⟨hclosed, hpast⟩ h
        exact ⟨c :: y, r, rfl, hy⟩

/-- A text is closed at one place at most. -/
lemma closed_unique {s : Reader} {x₁ x₂ r₁ r₂ : List Char} (h₁ : s.run x₁ = closed)
    (h₂ : s.run x₂ = closed) (h : x₁ ++ r₁ = x₂ ++ r₂) : x₁ = x₂ ∧ r₁ = r₂ := by
  rcases List.append_eq_append_iff.mp h with ⟨z, rfl, rfl⟩ | ⟨z, rfl, rfl⟩
  · cases z with
    | nil => simp
    | cons c z =>
        rw [run_append, h₁, run_closed (List.cons_ne_nil c z)] at h₂
        exact absurd h₂ (by simp)
  · cases z with
    | nil => simp
    | cons c z =>
        rw [run_append, h₂, run_closed (List.cons_ne_nil c z)] at h₁
        exact absurd h₁ (by simp)

/-- After a slash that opens no comment the reader is in code. -/
lemma run_slash {x : List Char} (hne : x ≠ []) (hline : ∀ t, x ≠ '/' :: t)
    (hblock : ∀ t, x ≠ '*' :: t) : slash.run x = code.run x := by
  cases x with
  | nil => exact absurd rfl hne
  | cons c x =>
      have h1 : c ≠ '/' := fun h => hline x (by rw [h])
      have h2 : c ≠ '*' := fun h => hblock x (by rw [h])
      simp [step, h1, h2]

/-- After a star that closes no comment the reader is in the comment. -/
lemma run_star {x : List Char} (hne : x ≠ []) (hclose : ∀ t, x ≠ '/' :: t) :
    star.run x = block.run x := by
  cases x with
  | nil => exact absurd rfl hne
  | cons c x =>
      have h1 : c ≠ '/' := fun h => hclose x (by rw [h])
      simp [step, h1]

/-- A line comment without a line feed goes on. -/
lemma run_comment {x : List Char} (h : '\n' ∉ x) : comment.run x = comment := by
  induction x with
  | nil => rfl
  | cons c x ih =>
      rw [List.mem_cons, not_or] at h
      rw [run_cons, step, if_neg (Ne.symm h.1)]
      exact ih h.2

lemma codeStep_of_blank {c : Char} (h : isBlank c = true) : codeStep c = code := by
  have h1 : c ≠ ';' := by rintro rfl; revert h; decide
  have h2 : c ≠ '/' := by rintro rfl; revert h; decide
  have h3 : c ≠ '\x22' := by rintro rfl; revert h; decide
  have h4 : c ≠ '\x27' := by rintro rfl; revert h; decide
  simp [codeStep, h1, h2, h3, h4]

/-- Blanks are passed over in code. -/
lemma run_code_of_blank {x : List Char} (h : allBlank x = true) : code.run x = code := by
  induction x with
  | nil => rfl
  | cons c x ih =>
      rw [allBlank, List.all_cons, Bool.and_eq_true] at h
      rw [run_cons, step, codeStep_of_blank h.1]
      exact ih h.2

end Reader

/-! ### The test for the keyword -/

/-- The letters of the keyword after the first one. -/
def keywordTail : List Char := ['m', 'p', 'o', 'r', 't']

/-- How far the test for the keyword has come. -/
inductive Keyword where
  /-- In blanks in front of the keyword. -/
  | gap
  | slash
  | block
  | star
  | comment
  /-- Inside the keyword, with these letters to come. -/
  | word (left : List Char)
  | yes
  | no
deriving DecidableEq

namespace Keyword

/-- Reads one character. -/
def step : Keyword → Char → Keyword
  | gap, c =>
      if isBlank c then gap
      else if c = '/' then slash
      else if c = 'i' then word keywordTail
      else no
  | slash, c => if c = '/' then comment else if c = '*' then block else no
  | block, c => if c = '*' then star else block
  | star, c => if c = '/' then gap else if c = '*' then star else block
  | comment, c => if c = '\n' then gap else comment
  | word [], c => if isBlank c then yes else no
  | word (d :: left), c => if c = d then word left else no
  | yes, _ => yes
  | no, _ => no

/-- Reads a text. -/
def run (k : Keyword) (x : List Char) : Keyword := x.foldl step k

@[simp] lemma run_nil (k : Keyword) : k.run [] = k := rfl

@[simp] lemma run_cons (k : Keyword) (c : Char) (x : List Char) :
    k.run (c :: x) = (k.step c).run x := rfl

lemma run_append (k : Keyword) (x y : List Char) : k.run (x ++ y) = (k.run x).run y := by
  rw [run, List.foldl_append]
  rfl

@[simp] lemma run_yes (x : List Char) : yes.run x = yes := by
  induction x with
  | nil => rfl
  | cons c x ih => exact ih

@[simp] lemma run_no (x : List Char) : no.run x = no := by
  induction x with
  | nil => rfl
  | cons c x ih => exact ih

/-- Blanks in front of the keyword are passed over. -/
lemma run_gap_of_blank {x : List Char} (h : allBlank x = true) : gap.run x = gap := by
  induction x with
  | nil => rfl
  | cons c x ih =>
      rw [allBlank, List.all_cons, Bool.and_eq_true] at h
      rw [run_cons, step, if_pos h.1]
      exact ih h.2

lemma run_comment {x : List Char} (h : '\n' ∉ x) : comment.run x = comment := by
  induction x with
  | nil => rfl
  | cons c x ih =>
      rw [List.mem_cons, not_or] at h
      rw [run_cons, step, if_neg (Ne.symm h.1)]
      exact ih h.2

/-- The keyword is read if its letters come and then a blank. -/
lemma run_word_iff (left x : List Char) :
    (word left).run x = yes ↔ ∃ c r, x = left ++ c :: r ∧ isBlank c = true := by
  induction left generalizing x with
  | nil =>
      cases x with
      | nil => simp
      | cons c x =>
          by_cases h : isBlank c = true
          · simp [step, h]
          · simp [step, h]
  | cons d left ih =>
      cases x with
      | nil => simp
      | cons c x =>
          by_cases h : c = d
          · simp [step, h, ih]
          · simp [step, h]

lemma startsWithImport_iff (x : List Char) :
    startsWithImport x = true ↔
      ∃ c r, x = 'i' :: (keywordTail ++ c :: r) ∧ isBlank c = true := by
  constructor
  · intro h
    unfold startsWithImport at h
    split at h
    · next c r => exact ⟨c, r, rfl, h⟩
    · simp at h
  · rintro ⟨c, r, rfl, h⟩
    exact h

/-- The reading that a lead stands for. -/
def ofLead : Lead → Keyword
  | .gap => gap
  | .blockComment => block
  | .lineComment => comment

/-- The test decides whether a text begins with the keyword past its lead. -/
lemma run_ofLead_iff (lead : Lead) (x : List Char) :
    (ofLead lead).run x = yes ↔ (afterLead lead x).any startsWithImport = true := by
  fun_induction afterLead lead x with
  | case1 => simp [ofLead, startsWithImport]
  | case2 rest ih => exact ih
  | case3 rest ih => exact ih
  | case4 c rest _ _ hblank ih =>
      rw [ofLead, run_cons, step, if_pos hblank]
      exact ih
  | case5 c rest hblock hline hblank =>
      rw [ofLead, run_cons, step, if_neg hblank, Option.any_some, startsWithImport_iff]
      by_cases hslash : c = '/'
      · -- a slash that opens no comment is no keyword
        rw [if_pos hslash]
        cases rest with
        | nil => simp [hslash]
        | cons d rest =>
            have h1 : d ≠ '/' := fun h => hline rest hslash (by rw [h])
            have h2 : d ≠ '*' := fun h => hblock rest hslash (by rw [h])
            simp [step, h1, h2, hslash]
      · rw [if_neg hslash]
        by_cases hi : c = 'i'
        · rw [if_pos hi, run_word_iff]
          simp [hi]
        · simp [hi]
  | case6 => simp [ofLead]
  | case7 rest ih => exact ih
  | case8 c rest hclose ih =>
      rw [ofLead, run_cons, step]
      by_cases hstar : c = '*'
      · rw [if_pos hstar, ← ih, ofLead]
        cases rest with
        | nil => simp
        | cons d rest =>
            have h1 : d ≠ '/' := fun h => hclose rest hstar (by rw [h])
            simp [step, h1]
      · rw [if_neg hstar]
        exact ih
  | case9 => simp [ofLead]
  | case10 rest ih => exact ih
  | case11 c rest hc ih =>
      rw [ofLead, run_cons, step, if_neg hc]
      exact ih

end Keyword

/-- Whether a text declares an import. -/
def declaresImport (x : List Char) : Bool := decide (Keyword.gap.run x = .yes)

lemma Statement.isImport_eq (s : Statement) : s.isImport = declaresImport s.text := by
  rw [Bool.eq_iff_iff, declaresImport, decide_eq_true_iff, isImport, ← Keyword.run_ofLead_iff]
  rfl

/-! ### Both at once -/

/-- The search and the test stand in the same place until the keyword is decided. -/
def Agrees (s : Reader) : Keyword → Prop
  | .gap => s = .code
  | .slash => s = .slash
  | .block => s = .block
  | .star => s = .star
  | .comment => s = .comment
  | .word left => s = .code ∧ left <:+ keywordTail
  | .yes => True
  | .no => True

/-- Reading a character keeps the two together. -/
lemma Agrees.step {s : Reader} {k : Keyword} (h : Agrees s k) (c : Char) :
    Agrees (s.step c) (k.step c) := by
  cases k with
  | gap =>
      cases h
      by_cases hblank : isBlank c = true
      · simpa [Keyword.step, hblank, Agrees, Reader.step] using Reader.codeStep_of_blank hblank
      · by_cases hslash : c = '/'
        · simp [Keyword.step, hslash, Agrees, Reader.step, Reader.codeStep, isBlank, blankRanges]
        · by_cases hi : c = 'i'
          · simp [Keyword.step, hi, Agrees, Reader.step, Reader.codeStep, isBlank, blankRanges]
          · simp [Keyword.step, hblank, hslash, hi, Agrees]
  | slash =>
      cases h
      simp only [Keyword.step, Reader.step]
      split_ifs <;> simp [Agrees]
  | block =>
      cases h
      simp only [Keyword.step, Reader.step]
      split_ifs <;> simp [Agrees]
  | star =>
      cases h
      simp only [Keyword.step, Reader.step]
      split_ifs <;> simp [Agrees]
  | comment =>
      cases h
      simp only [Keyword.step, Reader.step]
      split_ifs <;> simp [Agrees]
  | word left =>
      obtain ⟨rfl, hleft⟩ := h
      cases left with
      | nil =>
          simp only [Keyword.step]
          split_ifs <;> simp [Agrees]
      | cons d left =>
          by_cases hc : c = d
          · -- a letter of the keyword is plain code
            have hmem : d ∈ keywordTail := hleft.subset List.mem_cons_self
            have hcode : Reader.codeStep d = .code := by
              revert hmem
              simp only [keywordTail, List.mem_cons, List.not_mem_nil, or_false]
              rintro (rfl | rfl | rfl | rfl | rfl) <;> rfl
            rw [hc, Keyword.step, if_pos rfl]
            exact ⟨hcode, (List.suffix_cons d left).trans hleft⟩
          · simp [Keyword.step, hc, Agrees]
  | yes => trivial
  | no => trivial

lemma Agrees.run {s : Reader} {k : Keyword} (h : Agrees s k) (x : List Char) :
    Agrees (s.run x) (k.run x) := by
  induction x generalizing s k with
  | nil => exact h
  | cons c x ih => exact ih (h.step c)

/-- The keyword is decided when the delimiter is read. -/
lemma keyword_decided {x : List Char} (h : Reader.code.run x = .closed) :
    Keyword.gap.run x = .yes ∨ Keyword.gap.run x = .no := by
  have hagrees : Agrees (Reader.code.run x) (Keyword.gap.run x) :=
    Agrees.run (s := .code) (k := .gap) rfl x
  rw [h] at hagrees
  cases hk : Keyword.gap.run x <;> simp [hk, Agrees] at hagrees ⊢

/-- Nothing that follows the delimiter matters for the keyword. -/
lemma declaresImport_append {x : List Char} (h : Reader.code.run x = .closed) (y : List Char) :
    declaresImport (x ++ y) = declaresImport x := by
  rw [declaresImport, declaresImport, Keyword.run_append]
  rcases keyword_decided h with hk | hk <;> simp [hk]

end LintRepair
