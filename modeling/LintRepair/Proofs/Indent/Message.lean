import Mathlib.Tactic
import Mathlib.Data.Nat.Digits.Defs
import LintRepair.Fix.Indent

/-!
The levels that a message names.

A message is a text with numbers in it. The numbers are read off one character after the other, and
the level to move to is chosen among them. Here both are said without the reading and without the
choosing: the numbers are the values of the maximal runs of digits, and the level is the earliest
one of the nearest.

* `DigitRuns`, `digitsValue`: the maximal runs of digits of a text, and the value of a run.
* `numbersFrom_eq`: the numbers of a text are the values of its runs.
* `exists_digitRuns`, `DigitRuns.unique`: every text has runs of digits, and no others.
* `Unclear`, `Tells`: numbers that tell no level beside the actual one, and the level that others
  tell.
* `exists_fault_of_unclear`, `exists_chooseLevel`: when a level is chosen, and which one.
* `expectedLevel_decided`: what a message says.
-/

namespace LintRepair

/-! ### Runs of digits -/

/-- The maximal runs of digits of a text, in order. -/
inductive DigitRuns : List Char → List (List Char) → Prop
  /-- A text without digits has no run. -/
  | none {text : List Char} (htext : ∀ c ∈ text, isDigit c = false) : DigitRuns text []
  /-- The first run begins at the first digit and ends in front of the next other character. -/
  | run {gap digits rest : List Char} {runs : List (List Char)}
      (hgap : ∀ c ∈ gap, isDigit c = false) (hne : digits ≠ [])
      (hdigits : ∀ c ∈ digits, isDigit c = true)
      (hend : ∀ c, rest.head? = some c → isDigit c = false) (hrest : DigitRuns rest runs) :
      DigitRuns (gap ++ (digits ++ rest)) (digits :: runs)

/-- The number that a run of digits stands for in base ten. -/
def digitsValue (digits : List Char) : Nat :=
  Nat.ofDigits 10 (digits.reverse.map fun c => c.toNat - '0'.toNat)

/-- Digits that are read one after the other make up their value. -/
lemma foldl_appendDigit (digits : List Char) : digits.foldl appendDigit 0 = digitsValue digits := by
  induction digits using List.reverseRecOn with
  | nil => rfl
  | append_singleton digits c ih =>
      have hvalue :
          digitsValue (digits ++ [c]) = (c.toNat - '0'.toNat) + 10 * digitsValue digits := by
        rw [digitsValue, List.reverse_append, List.reverse_singleton, List.singleton_append,
          List.map_cons, Nat.ofDigits_cons]
        rfl
      rw [List.foldl_append, ih, hvalue, Nat.add_comm]
      rfl

lemma numbersFrom_gap {gap : List Char} (hgap : ∀ c ∈ gap, isDigit c = false) (rest : List Char) :
    numbersFrom none (gap ++ rest) = numbersFrom none rest := by
  induction gap with
  | nil => rfl
  | cons c gap ih =>
      have hc := hgap c List.mem_cons_self
      rw [List.cons_append, numbersFrom, hc]
      exact ih fun d hd => hgap d (List.mem_cons_of_mem c hd)

/-- A number ends with the last one of its digits. -/
lemma numbersFrom_some {digits rest : List Char} (hdigits : ∀ c ∈ digits, isDigit c = true)
    (hend : ∀ c, rest.head? = some c → isDigit c = false) (n : Nat) :
    numbersFrom (some n) (digits ++ rest) =
      digits.foldl appendDigit n :: numbersFrom none rest := by
  induction digits generalizing n with
  | nil =>
      cases rest with
      | nil => rfl
      | cons c rest =>
          have hc := hend c rfl
          rw [List.nil_append, numbersFrom, numbersFrom, hc]
          rfl
  | cons c digits ih =>
      have hc := hdigits c List.mem_cons_self
      rw [List.cons_append, numbersFrom, hc]
      exact ih (fun d hd => hdigits d (List.mem_cons_of_mem c hd)) (appendDigit n c)

lemma numbersFrom_digits {digits rest : List Char} (hne : digits ≠ [])
    (hdigits : ∀ c ∈ digits, isDigit c = true)
    (hend : ∀ c, rest.head? = some c → isDigit c = false) :
    numbersFrom none (digits ++ rest) = digitsValue digits :: numbersFrom none rest := by
  obtain ⟨c, digits, rfl⟩ := List.exists_cons_of_ne_nil hne
  have hc := hdigits c List.mem_cons_self
  rw [List.cons_append, numbersFrom, hc, ← foldl_appendDigit]
  exact numbersFrom_some (fun d hd => hdigits d (List.mem_cons_of_mem c hd)) hend _

/-- The numbers of a text are the values of its runs of digits. -/
lemma numbersFrom_eq {text : List Char} {runs : List (List Char)} (h : DigitRuns text runs) :
    numbersFrom none text = runs.map digitsValue := by
  induction h with
  | @none text htext =>
      have hgap := numbersFrom_gap htext []
      rwa [List.append_nil] at hgap
  | run hgap hne hdigits hend _ ih =>
      rw [numbersFrom_gap hgap, numbersFrom_digits hne hdigits hend, ih, List.map_cons]

/-- Every text has runs of digits. -/
lemma exists_digitRuns (text : List Char) : ∃ runs, DigitRuns text runs := by
  induction text with
  | nil => exact ⟨[], .none (by simp)⟩
  | cons c text ih =>
      obtain ⟨runs, h⟩ := ih
      cases hc : isDigit c with
      | false =>
          -- one more character in the first gap
          cases h with
          | none htext => exact ⟨[], .none (List.forall_mem_cons.mpr ⟨hc, htext⟩)⟩
          | run hgap hne hdigits hend hrest =>
              rw [← List.cons_append]
              exact ⟨_, .run (List.forall_mem_cons.mpr ⟨hc, hgap⟩) hne hdigits hend hrest⟩
      | true =>
          -- a run of its own, unless the text begins with a digit
          have hsingle : (∀ d, text.head? = some d → isDigit d = false) →
              ∃ runs, DigitRuns (c :: text) runs := fun hend =>
            ⟨_, @DigitRuns.run [] [c] text runs (by simp) (by simp) (by simpa using hc) hend h⟩
          cases h with
          | none htext => exact hsingle fun d hd => htext d (List.mem_of_mem_head? hd)
          | @run gap digits rest runs hgap hne hdigits hend hrest =>
              cases gap with
              | nil =>
                  exact ⟨_, @DigitRuns.run [] (c :: digits) rest runs (by simp) (by simp)
                    (List.forall_mem_cons.mpr ⟨hc, hdigits⟩) hend hrest⟩
              | cons g gap =>
                  refine hsingle fun d hd => hgap d ?_
                  rw [← Option.some.inj hd]
                  exact List.mem_cons_self

lemma exists_digit {digits : List Char} (hne : digits ≠ [])
    (hdigits : ∀ c ∈ digits, isDigit c = true) (gap rest : List Char) :
    ∃ c ∈ gap ++ (digits ++ rest), isDigit c = true := by
  obtain ⟨c, hc⟩ := List.exists_mem_of_ne_nil digits hne
  exact ⟨c, by simp [hc], hdigits c hc⟩

/-- The first run of a text and what follows it are found by looking for digits. -/
lemma dropWhile_gap {gap digits : List Char} (hgap : ∀ c ∈ gap, isDigit c = false)
    (hne : digits ≠ []) (hdigits : ∀ c ∈ digits, isDigit c = true) (rest : List Char) :
    (gap ++ (digits ++ rest)).dropWhile (!isDigit ·) = digits ++ rest := by
  obtain ⟨c, digits, rfl⟩ := List.exists_cons_of_ne_nil hne
  have hc := hdigits c List.mem_cons_self
  rw [List.dropWhile_append_of_pos (by simpa using hgap), List.cons_append,
    List.dropWhile_cons_of_neg (by simp [hc])]

lemma span_digits {digits rest : List Char} (hdigits : ∀ c ∈ digits, isDigit c = true)
    (hend : ∀ c, rest.head? = some c → isDigit c = false) :
    (digits ++ rest).takeWhile isDigit = digits ∧ (digits ++ rest).dropWhile isDigit = rest := by
  rw [List.takeWhile_append_of_pos hdigits, List.dropWhile_append_of_pos hdigits]
  cases rest with
  | nil => simp
  | cons c rest => simp [hend c rfl]

/-- A text has no more than one list of runs. -/
lemma DigitRuns.unique {text : List Char} {runs runs' : List (List Char)}
    (h : DigitRuns text runs) (h' : DigitRuns text runs') : runs = runs' := by
  -- both lists begin with what is found by looking for digits
  induction h generalizing runs' with
  | @none text htext =>
      cases h' with
      | none => rfl
      | @run gap _ rest _ _ hne hdigits =>
          obtain ⟨c, hc, hdigit⟩ := exists_digit hne hdigits gap rest
          simp [htext c hc] at hdigit
  | @run gap digits rest runs hgap hne hdigits hend _ ih =>
      generalize htext : gap ++ (digits ++ rest) = text at h'
      cases h' with
      | none hnone =>
          obtain ⟨c, hc, hdigit⟩ := exists_digit hne hdigits gap rest
          simp [hnone c (htext ▸ hc)] at hdigit
      | @run gap' digits' rest' runs' hgap' hne' hdigits' hend' hrest' =>
          have hsplit : digits ++ rest = digits' ++ rest' := by
            rw [← dropWhile_gap hgap hne hdigits rest, htext,
              dropWhile_gap hgap' hne' hdigits' rest']
          obtain ⟨htake, hdrop⟩ := span_digits hdigits hend
          obtain ⟨htake', hdrop'⟩ := span_digits hdigits' hend'
          rw [hsplit] at htake hdrop
          obtain rfl : digits = digits' := htake.symm.trans htake'
          obtain rfl : rest = rest' := hdrop.symm.trans hdrop'
          rw [ih hrest']

/-! ### The level that is chosen -/

/-- Numbers that do not tell a level beside the actual one. -/
def Unclear (found : List Nat) (actual : Nat) : Prop :=
  (∃ n ∈ found, 2 ^ 64 ≤ n) ∨ found.length < 2 ∨ actual ∉ found ∨
    3 ≤ found.length ∧ ∀ n ∈ found, n = actual

/-- The earliest one of the numbers that differ from the actual level and are nearest to it. -/
def FirstNearest (found : List Nat) (actual level : Nat) : Prop :=
  ∃ before after, found = before ++ level :: after ∧ level ≠ actual ∧
    (∀ n ∈ before, n ≠ actual → levelDistance level actual < levelDistance n actual) ∧
    ∀ n ∈ after, n ≠ actual → levelDistance level actual ≤ levelDistance n actual

/-- The level that numbers tell beside the actual one: of two numbers the other one, and of more the
earliest one of the nearest. -/
def Tells (found : List Nat) (actual level : Nat) : Prop :=
  found = [actual, level] ∨ found = [level, actual] ∨
    3 ≤ found.length ∧ FirstNearest found actual level

/-- The nearest level, with those that come before it further away. -/
lemma exists_nearestLevel {actual : Nat} {found : List Nat} (hne : found ≠ []) :
    ∃ before level after, found = before ++ level :: after ∧
      nearestLevel actual found = some level ∧
      (∀ n ∈ before, levelDistance level actual < levelDistance n actual) ∧
      ∀ n ∈ after, levelDistance level actual ≤ levelDistance n actual := by
  induction found with
  | nil => exact absurd rfl hne
  | cons first rest ih =>
      rw [nearestLevel]
      by_cases hrest : rest = []
      · rw [hrest]
        exact ⟨[], first, [], rfl, rfl, by simp, by simp⟩
      · obtain ⟨before, level, after, heq, hnearest, hbefore, hafter⟩ := ih hrest
        rw [hnearest]
        by_cases hle : levelDistance first actual ≤ levelDistance level actual
        · -- the first number is as near as the nearest of the others
          refine ⟨[], first, rest, rfl, if_pos hle, by simp, ?_⟩
          rw [heq]
          intro n hn
          rw [List.mem_append, List.mem_cons] at hn
          rcases hn with hn | rfl | hn
          · exact hle.trans (hbefore n hn).le
          · exact hle
          · exact hle.trans (hafter n hn)
        · refine ⟨first :: before, level, after, by rw [heq]; rfl, if_neg hle, ?_, hafter⟩
          exact List.forall_mem_cons.mpr ⟨not_le.mp hle, hbefore⟩

/-- The actual level does not come back among the others. -/
lemma filter_erase (found : List Nat) (actual : Nat) :
    (found.erase actual).filter (· ≠ actual) = found.filter (· ≠ actual) := by
  induction found with
  | nil => rfl
  | cons n found ih =>
      by_cases hn : n = actual
      · rw [hn, List.erase_cons_head, List.filter_cons_of_neg (by simp)]
      · rw [List.erase_cons_tail (by simpa using hn), List.filter_cons_of_pos (by simpa using hn),
          List.filter_cons_of_pos (by simpa using hn), ih]

/-- Of three numbers or more the nearest one is chosen. -/
lemma chooseLevel_of_three_le {found : List Nat} {actual : Nat} (hlength : 3 ≤ found.length)
    (hactual : actual ∈ found) :
    chooseLevel found actual =
      (nearestLevel actual (found.filter (· ≠ actual))).elim (.error .noOtherLevel) .ok := by
  rw [chooseLevel, if_neg (by omega), if_neg (not_not.mpr hactual), ← filter_erase]
  have herase := List.length_erase_of_mem hactual
  obtain ⟨a, b, rest, hothers⟩ : ∃ a b rest, found.erase actual = a :: b :: rest := by
    match hothers : found.erase actual with
    | [] | [_] =>
        rw [hothers] at herase
        simp only [List.length_nil, List.length_singleton] at herase
        omega
    | a :: b :: rest => exact ⟨a, b, rest, rfl⟩
  simp only [hothers]
  cases nearestLevel actual ((a :: b :: rest).filter (· ≠ actual)) <;> rfl

/-- Nothing is chosen from unclear numbers. -/
lemma exists_fault_of_unclear {found : List Nat} {actual : Nat} (h : Unclear found actual)
    (hbound : ∀ n ∈ found, n < 2 ^ 64) : ∃ fault, chooseLevel found actual = .error fault := by
  rcases h with ⟨n, hn, hlarge⟩ | hshort | hmissing | ⟨hlength, hall⟩
  · exact absurd (hbound n hn) (not_lt.mpr hlarge)
  · exact ⟨_, if_pos hshort⟩
  · rw [chooseLevel, if_pos hmissing]
    split_ifs
    · exact ⟨_, rfl⟩
    · exact ⟨_, rfl⟩
  · obtain ⟨n, hn⟩ := List.exists_mem_of_length_pos (show 0 < found.length by omega)
    have hfilter : found.filter (· ≠ actual) = [] := by simpa using hall
    rw [chooseLevel_of_three_le hlength (hall n hn ▸ hn), hfilter]
    exact ⟨_, rfl⟩

/-- Of two numbers the other one is chosen. -/
lemma exists_chooseLevel_of_two {found : List Nat} {actual : Nat} (hlength : found.length = 2)
    (hactual : actual ∈ found) :
    ∃ level, chooseLevel found actual = .ok level ∧
      (found = [actual, level] ∨ found = [level, actual]) := by
  obtain ⟨a, b, rfl⟩ := List.length_eq_two.mp hlength
  rw [chooseLevel, if_neg (by simp), if_neg (not_not.mpr hactual)]
  by_cases ha : a = actual
  · rw [ha, List.erase_cons_head]
    exact ⟨b, rfl, Or.inl rfl⟩
  · obtain rfl : actual = b := by simpa [Ne.symm ha] using hactual
    rw [List.erase_cons_tail (by simpa using ha), List.erase_cons_head]
    exact ⟨a, rfl, Or.inr rfl⟩

/-- Of more numbers the earliest one of the nearest is chosen. -/
lemma exists_chooseLevel_of_three {found : List Nat} {actual : Nat} (hlength : 3 ≤ found.length)
    (hactual : actual ∈ found) (hother : ∃ n ∈ found, n ≠ actual) :
    ∃ level, chooseLevel found actual = .ok level ∧ FirstNearest found actual level := by
  obtain ⟨n, hn, hne⟩ := hother
  have hnonempty : found.filter (· ≠ actual) ≠ [] :=
    List.ne_nil_of_mem (List.mem_filter.mpr ⟨hn, by simpa using hne⟩)
  obtain ⟨before, level, after, hsplit, hnearest, hbefore, hafter⟩ :=
    exists_nearestLevel hnonempty
  refine ⟨level, by rw [chooseLevel_of_three_le hlength hactual, hnearest]; rfl, ?_⟩
  -- the numbers that are passed over are the actual level
  obtain ⟨front, back, rfl, rfl, hback⟩ := List.filter_eq_append_iff.mp hsplit
  obtain ⟨skipped, last, rfl, hskipped, hlevel, rfl⟩ := List.filter_eq_cons_iff.mp hback
  refine ⟨front ++ skipped, last, by rw [List.append_assoc], by simpa using hlevel, ?_, ?_⟩
  · intro m hm hmne
    rcases List.mem_append.mp hm with hm | hm
    · exact hbefore m (List.mem_filter.mpr ⟨hm, by simpa using hmne⟩)
    · exact absurd (by simpa using hmne) (hskipped m hm)
  · intro m hm hmne
    exact hafter m (List.mem_filter.mpr ⟨hm, by simpa using hmne⟩)

/-- From clear numbers the level that they tell is chosen. -/
lemma exists_chooseLevel {found : List Nat} {actual : Nat} (h : ¬ Unclear found actual) :
    ∃ level, chooseLevel found actual = .ok level ∧ Tells found actual level := by
  simp only [Unclear, not_or, not_and, not_exists, not_lt, not_not] at h
  obtain ⟨-, hlength, hactual, hother⟩ := h
  rcases Nat.eq_or_lt_of_le hlength with htwo | hthree
  · obtain ⟨level, hchosen, hpair⟩ := exists_chooseLevel_of_two htwo.symm hactual
    exact ⟨level, hchosen, hpair.imp_right Or.inl⟩
  · have hexists : ∃ n ∈ found, n ≠ actual := by simpa using hother hthree
    obtain ⟨level, hchosen, hnearest⟩ := exists_chooseLevel_of_three hthree hactual hexists
    exact ⟨level, hchosen, Or.inr (Or.inr ⟨hthree, hnearest⟩)⟩

/-- No other number is nearer than the level that is told. -/
lemma Tells.nearest {found : List Nat} {actual level : Nat} (h : Tells found actual level) :
    level ∈ found ∧
      ∀ n ∈ found, n ≠ actual → level ≠ actual ∧
        levelDistance level actual ≤ levelDistance n actual := by
  rcases h with rfl | rfl | ⟨-, before, after, rfl, hlevel, hbefore, hafter⟩
  · simp
  · simp
  · refine ⟨by simp, fun n hn hne => ⟨hlevel, ?_⟩⟩
    rw [List.mem_append, List.mem_cons] at hn
    rcases hn with hn | rfl | hn
    · exact (hbefore n hn hne).le
    · exact Nat.le_refl _
    · exact hafter n hn hne

/-! ### Messages -/

lemma levels_eq_ok_iff {message : String} {found : List Nat} :
    levels message = .ok found ↔ found = numbers message ∧ ∀ n ∈ found, n < 2 ^ 64 := by
  have hbound : ((numbers message).all (· < levelBound) = true) ↔
      ∀ n ∈ numbers message, n < 2 ^ 64 := by
    simp only [List.all_eq_true, decide_eq_true_eq]
    rfl
  rw [levels]
  split_ifs with hall
  · rw [Except.ok.injEq]
    constructor
    · rintro rfl
      exact ⟨rfl, hbound.mp hall⟩
    · rintro ⟨rfl, -⟩
      rfl
  · refine iff_of_false (by simp) ?_
    rintro ⟨rfl, hsmall⟩
    exact hall (hbound.mpr hsmall)

/-- A message tells the level that is chosen among its levels. -/
lemma expectedLevel_of_levels {message : String} {found : List Nat}
    (h : levels message = .ok found) (actual : Nat) :
    expectedLevel message actual =
      (chooseLevel found actual).mapError (.unexpectedMessage · message) := by
  rw [expectedLevel, h]
  dsimp only
  cases chooseLevel found actual <;> rfl

/-- A message without levels tells none. -/
lemma exists_fault_of_no_levels {message : String} (h : ∀ found, levels message ≠ .ok found)
    (actual : Nat) :
    ∃ fault, expectedLevel message actual = .error (.unexpectedMessage fault message) := by
  rw [expectedLevel]
  rw [levels] at h ⊢
  split_ifs at h ⊢
  · exact absurd rfl (h _)
  · exact ⟨_, rfl⟩

/-- A message with clear numbers tells a level. -/
lemma exists_expectedLevel {message : String} {actual : Nat}
    (h : ¬ Unclear (numbers message) actual) :
    ∃ level, expectedLevel message actual = .ok level ∧ Tells (numbers message) actual level := by
  obtain ⟨level, hchosen, htells⟩ := exists_chooseLevel h
  have hsmall : ∀ n ∈ numbers message, n < 2 ^ 64 := fun n hn =>
    not_le.mp fun hlarge => h (Or.inl ⟨n, hn, hlarge⟩)
  refine ⟨level, ?_, htells⟩
  rw [expectedLevel_of_levels (levels_eq_ok_iff.mpr ⟨rfl, hsmall⟩), hchosen]
  rfl

/-- A message with unclear numbers is at fault. -/
lemma exists_fault {message : String} {actual : Nat} (h : Unclear (numbers message) actual) :
    ∃ fault, expectedLevel message actual = .error (.unexpectedMessage fault message) := by
  by_cases hsmall : ∀ n ∈ numbers message, n < 2 ^ 64
  · obtain ⟨fault, hfault⟩ := exists_fault_of_unclear h hsmall
    rw [expectedLevel_of_levels (levels_eq_ok_iff.mpr ⟨rfl, hsmall⟩), hfault]
    exact ⟨fault, rfl⟩
  · refine exists_fault_of_no_levels (fun found hfound => hsmall ?_) actual
    obtain ⟨rfl, hfound⟩ := levels_eq_ok_iff.mp hfound
    exact hfound

/-- What a message says. Its levels are the values of the maximal runs of digits, and there are none
if one of them needs more than 64 bits. It tells no level beside the actual one if the numbers are
unclear, and only then: of two numbers it tells the other one, and of more numbers the earliest one
of those that differ from the actual level and are nearest to it. -/
theorem expectedLevel_decided (message : String) :
    ∃ runs, (∀ other, DigitRuns message.toList other ↔ other = runs) ∧
      (∀ found, levels message = .ok found ↔
        found = runs.map digitsValue ∧ ∀ n ∈ found, n < 2 ^ 64) ∧
      ∀ actual,
        ((∃ fault, expectedLevel message actual = .error (.unexpectedMessage fault message)) ↔
          Unclear (runs.map digitsValue) actual) ∧
        (¬ Unclear (runs.map digitsValue) actual →
          ∃ level, expectedLevel message actual = .ok level ∧
            Tells (runs.map digitsValue) actual level) := by
  obtain ⟨runs, hruns⟩ := exists_digitRuns message.toList
  have hnumbers : numbers message = runs.map digitsValue := numbersFrom_eq hruns
  refine ⟨runs, fun other => ⟨fun h => h.unique hruns, ?_⟩, fun found => ?_, fun actual => ?_⟩
  · rintro rfl
    exact hruns
  · rw [levels_eq_ok_iff, hnumbers]
  · rw [← hnumbers]
    refine ⟨⟨?_, exists_fault⟩, exists_expectedLevel⟩
    rintro ⟨fault, hfault⟩
    by_contra hclear
    obtain ⟨level, hlevel, -⟩ := exists_expectedLevel hclear
    rw [hlevel] at hfault
    simp at hfault

example : expectedLevel "level 007 is not one of 10, 4 and 7" 7 = .ok 10 := by decide

end LintRepair
