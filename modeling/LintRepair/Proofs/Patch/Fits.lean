import LintRepair.Proofs.Import.Order
import LintRepair.Proofs.Line.ColumnEdit

/-!
Violations that fit a buffer.

A fix can be refused only for what the violation says and for a few facts about the buffer: the
reported line has to be there and, depending on the rule, long enough for the reported column; a
rule about statements needs a buffer whose statements can be told apart.

* `Rule.editLine`: what a rule makes of the reported line; `fix_eq_ok_iff_editLine` and
  `fix_of_reportedLine` for the fix.
* `Rule.room`: how much of a line a rule needs from the reported column on.
* `Rule.FitsLine`, `Rule.Fits`: a violation fits a line and a buffer; `fits_iff` says that these are
  the violations that are fixed.
-/

namespace LintRepair

/-! ### The edit of the reported line -/

namespace Rule

/-- Whether the rule edits the reported line. -/
def editsLine : Rule → Bool
  | importOrder => false
  | importGroups => false
  | importSeparation => false
  | removeImport _ => false
  | _ => true

/-- Whether the rule looks at the statements of the buffer. -/
def scans : Rule → Bool
  | importOrder => true
  | removeImport _ => true
  | _ => false

/-- What a rule makes of the reported line. -/
def editLine (tabWidth : Nat) (rule : Rule) (v : Violation) (l : Line) : Option Line :=
  match rule with
  | indentation =>
      if l.length < v.columnIndex then none
      else
        match expectedLevel v.message v.columnIndex with
        | .error _ => none
        | .ok expected => l.stepIndent v.columnIndex expected
  | trailingSpaces => some (trimEnd l)
  | tabs _ =>
      if l.length < v.columnIndex then none else some (l.expandTabs v.columnIndex tabWidth)
  | _ => rule.editAt l v.columnIndex

/-- What a rule makes of the lines below the reported one. -/
def spread (tabWidth : Nat) (rule : Rule) (v : Violation) (buffer : Buffer) : Buffer :=
  match rule with
  | tabs .file => buffer.take v.line ++ (buffer.drop v.line).map (·.expandTabs 0 tabWidth)
  | _ => buffer

variable {tabWidth : Nat} {rule : Rule} {v : Violation} {buffer buffer' : Buffer} {l l' : Line}

/-- Next to a column a rule edits the line as before. -/
lemma editLine_of_atColumn (h : rule.atColumn = true) :
    rule.editLine tabWidth v l = rule.editAt l v.columnIndex := by
  cases rule with
  | requireThis | finalParameter | whitespace => rfl
  | indentation | importOrder | importGroups | importSeparation | removeImport | trailingSpaces
  | tabs => simp [atColumn] at h

/-- A rule that edits the reported line does so if the line is there and the edit fits it. -/
lemma fix_eq_ok_iff_editLine (h : rule.editsLine = true) :
    rule.fix tabWidth v buffer = .ok buffer' ↔
      1 ≤ v.line ∧ ∃ l l', buffer[v.lineIndex]? = some l ∧ rule.editLine tabWidth v l = some l' ∧
        buffer' = rule.spread tabWidth v (buffer.set v.lineIndex l') := by
  cases rule with
  | requireThis | finalParameter | whitespace =>
      rw [fix_eq_onLine rfl, onLine_eq_ok_iff]
      simp only [orColumnError_eq_ok_iff]
      rfl
  | indentation =>
      rw [fix, Fix.indent, onLine_eq_ok_iff]
      simp only [editLine, spread]
      refine and_congr_right fun _ => exists₂_congr fun l l' => and_congr_right fun _ =>
        and_congr_left fun _ => ?_
      split_ifs
      · simp
      · cases expectedLevel v.message v.columnIndex with
        | error e => simp
        | ok expected => exact orColumnError_eq_ok_iff
  | trailingSpaces =>
      rw [fix, Fix.stripTrailing, onLine_eq_ok_iff]
      simp [editLine, spread]
  | tabs scope =>
      have hedit : ∀ l l', (if l.length < v.columnIndex then
          (Except.error (columnError v l) : Except FixError Line)
          else .ok (l.expandTabs v.columnIndex tabWidth)) = .ok l' ↔
            (tabs scope).editLine tabWidth v l = some l' := by
        intro l l'
        rw [editLine]
        split_ifs <;> simp
      rw [fix, Fix.expandTabs]
      cases honLine : Fix.onLine (fun v line =>
          if line.length < v.columnIndex then .error (columnError v line)
          else .ok (line.expandTabs v.columnIndex tabWidth)) v buffer with
      | error e =>
          simp only [reduceCtorEq, false_iff]
          rintro ⟨hline, l, l', hl, hl', -⟩
          rw [onLine_eq_ok_iff.mpr ⟨hline, l, l', hl, (hedit l l').mpr hl', rfl⟩] at honLine
          simp at honLine
      | ok expanded =>
          obtain ⟨hline, l, l', hl, hl', rfl⟩ := onLine_eq_ok_iff.mp honLine
          rw [hedit] at hl'
          cases scope with
          | line => simp [TabScope.reachesBelow, spread, hline, hl, hl', eq_comm]
          | file => simp [TabScope.reachesBelow, spread, hline, hl, hl', eq_comm]
  | importOrder | importGroups | importSeparation | removeImport => simp [editsLine] at h

/-- A rule that edits the reported line blames the column if the edit does not fit. Only an
indentation can also be refused for its message. -/
lemma fix_of_reportedLine (h : rule.editsLine = true) (hlevel : rule ≠ indentation)
    (hl : reportedLine buffer v = .ok l) :
    rule.fix tabWidth v buffer = (orColumnError v l (rule.editLine tabWidth v l)).map fun l' =>
      rule.spread tabWidth v (buffer.set v.lineIndex l') := by
  cases rule with
  | requireThis | finalParameter | whitespace =>
      rw [fix_eq_onLine rfl, onLine_of_reportedLine hl]
      rfl
  | indentation => exact absurd rfl hlevel
  | trailingSpaces =>
      rw [fix, Fix.stripTrailing, onLine_of_reportedLine hl]
      rfl
  | tabs scope =>
      rw [fix, Fix.expandTabs, onLine_of_reportedLine hl, editLine]
      by_cases hlength : l.length < v.columnIndex
      · rw [if_pos hlength, if_pos hlength]
        rfl
      · rw [if_neg hlength, if_neg hlength]
        cases scope with
        | line => rfl
        | file => rfl
  | importOrder | importGroups | importSeparation | removeImport => simp [editsLine] at h

end Rule

/-! ### Violations that fit a line -/

namespace Line

/-- A character that is blank is there. -/
lemma lt_length_of_blankAt {l : Line} {k : Nat} (h : l.blankAt k = true) : k < l.length := by
  by_contra hge
  rw [blankAt, charAt, List.getElem?_eq_none (not_lt.mp hge)] at h
  simp at h

lemma exists_insertAt_iff {l : Line} {k : Nat} {text : List Char} :
    (∃ l', l.insertAt k text = some l') ↔ k ≤ l.length := by
  rw [insertAt_eq]
  split_ifs with h
  · simp [h]
  · simp [h]

/-- A qualifier fits in front of every character and behind the last one. -/
lemma exists_qualify_iff (qualifier : Qualifier) {l : Line} {k : Nat} :
    (∃ l', l.qualify qualifier k = some l') ↔ k ≤ l.length := by
  rw [qualify]
  split_ifs with h
  · -- a qualifier that stands there already is a part of the line
    have hlength := congrArg List.length h
    rw [slice_eq, List.length_drop, List.length_take] at hlength
    have hpos : 0 < qualifier.text.length := by cases qualifier <;> decide
    exact iff_of_true ⟨l, rfl⟩ (by omega)
  · exact exists_insertAt_iff

/-- A space behind a token fits unless the token is a blank at the end of the line. -/
lemma exists_notFollowed_iff {l : Line} {k : Nat} (hk : k < l.length) :
    (∃ l', l.respace .notFollowed k = some l') ↔ k + 1 < l.length ∨ l.blankAt k = false := by
  rw [respace, tokenColumn]
  cases hblank : l.blankAt k with
  | false =>
      refine iff_of_true ?_ (Or.inr rfl)
      simp only [Bool.false_eq_true, if_false]
      split_ifs
      · exact ⟨l, rfl⟩
      · exact exists_insertAt_iff.mpr hk
  | true =>
      simp only [if_true, reduceCtorEq, or_false]
      split_ifs with hnext
      · have hlt := lt_length_of_blankAt hnext
        exact iff_of_true ⟨l, rfl⟩ (by omega)
      · exact exists_insertAt_iff

lemma exists_respace {spacing : Spacing} (hspacing : spacing ≠ .notFollowed) {l : Line} {k : Nat}
    (hk : k < l.length) : ∃ l', l.respace spacing k = some l' := by
  cases spacing with
  | notPreceded =>
      rw [respace]
      split_ifs
      · exact ⟨l, rfl⟩
      · exact exists_insertAt_iff.mpr hk.le
  | notFollowed => exact absurd rfl hspacing
  | preceded =>
      cases k with
      | zero => exact ⟨l, rfl⟩
      | succ k =>
          rw [respace, removeAt_eq, if_pos (by omega : k < l.length)]
          split_ifs
          · exact ⟨_, rfl⟩
          · exact ⟨l, rfl⟩
  | followed =>
      rw [respace, removeAt_eq]
      split_ifs with hspace hlt
      · exact ⟨_, rfl⟩
      · rw [charAt, List.getElem?_eq_none (not_lt.mp hlt)] at hspace
        simp at hspace
      · exact ⟨l, rfl⟩

/-- An indentation moves if the line reaches up to it. -/
lemma exists_stepIndent {l : Line} {actual : Nat} (h : actual ≤ l.length) (expected : Nat) :
    ∃ l', l.stepIndent actual expected = some l' := by
  rw [stepIndent]
  split_ifs with hmore hless
  · exact exists_insertAt_iff.mpr h
  · rw [removeAt_eq, if_pos (by omega)]
    exact ⟨_, rfl⟩
  · exact ⟨l, rfl⟩

end Line

namespace Rule

/-- How many characters a rule needs from the reported column on, if it looks at the column. -/
def room : Rule → Option Nat
  | requireThis => some 0
  | finalParameter => some 0
  | whitespace _ => some 1
  | indentation => some 0
  | tabs _ => some 0
  | _ => none

/-- A violation of the rule fits a line. -/
structure FitsLine (rule : Rule) (v : Violation) (l : Line) : Prop where
  column : ∀ n, rule.room = some n → v.columnIndex + n ≤ l.length
  behind : rule = whitespace .notFollowed →
    v.columnIndex + 1 < l.length ∨ l.blankAt v.columnIndex = false
  level : rule = indentation → ∃ level, expectedLevel v.message v.columnIndex = .ok level

/-- A violation of the rule fits a buffer. -/
structure Fits (rule : Rule) (v : Violation) (buffer : Buffer) : Prop where
  line : 1 ≤ v.line
  onLine : ∃ l, buffer[v.lineIndex]? = some l ∧ rule.FitsLine v l
  readable : rule.scans = true → buffer.Readable

variable {tabWidth : Nat} {rule : Rule} {v : Violation} {buffer buffer' : Buffer} {l l' : Line}

/-- A rule that does not look at the column fits every line. -/
lemma fitsLine_of_room (h : rule.room = none) : rule.FitsLine v l := by
  refine ⟨fun n hn => ?_, ?_, ?_⟩
  · rw [h] at hn
    simp at hn
  · rintro rfl
    simp [room] at h
  · rintro rfl
    simp [room] at h

/-- Most rules that look at the column need nothing but the room. -/
lemma fitsLine_iff {n : Nat} (hroom : rule.room = some n)
    (hbehind : rule ≠ whitespace .notFollowed) (hlevel : rule ≠ indentation) :
    rule.FitsLine v l ↔ v.columnIndex + n ≤ l.length := by
  constructor
  · intro h
    exact h.column n hroom
  · intro hle
    refine ⟨fun m hm => ?_, fun h => absurd h hbehind, fun h => absurd h hlevel⟩
    obtain rfl : n = m := Option.some.inj (hroom.symm.trans hm)
    exact hle

/-- The edit of the reported line succeeds for the violations that fit it. -/
lemma exists_editLine_iff (h : rule.editsLine = true) :
    (∃ l', rule.editLine tabWidth v l = some l') ↔ rule.FitsLine v l := by
  cases rule with
  | requireThis =>
      rw [fitsLine_iff rfl (by simp) (by simp)]
      exact Line.exists_qualify_iff .this
  | finalParameter =>
      rw [fitsLine_iff rfl (by simp) (by simp)]
      exact Line.exists_qualify_iff .final
  | whitespace spacing =>
      rw [editLine_of_atColumn rfl, editAt]
      by_cases hle : l.length ≤ v.columnIndex
      · rw [if_pos hle]
        refine iff_of_false (by simp) fun hfits => ?_
        have hroom := hfits.column 1 rfl
        omega
      · rw [if_neg hle]
        by_cases hspacing : spacing = .notFollowed
        · rw [hspacing, Line.exists_notFollowed_iff (not_le.mp hle)]
          refine ⟨fun hbehind => ⟨fun n hn => ?_, fun _ => hbehind, by simp⟩,
            fun hfits => hfits.behind rfl⟩
          obtain rfl : 1 = n := Option.some.inj hn
          omega
        · rw [fitsLine_iff rfl (by simpa using hspacing) (by simp)]
          exact iff_of_true (Line.exists_respace hspacing (not_le.mp hle)) (by omega)
  | indentation =>
      rw [editLine]
      constructor
      · rintro ⟨l', hl'⟩
        split_ifs at hl' with hlt
        refine ⟨fun n hn => ?_, by simp, fun _ => ?_⟩
        · obtain rfl : 0 = n := Option.some.inj hn
          omega
        · cases hlevel : expectedLevel v.message v.columnIndex with
          | error e => simp [hlevel] at hl'
          | ok level => exact ⟨level, rfl⟩
      · intro hfits
        have hle : v.columnIndex ≤ l.length := hfits.column 0 rfl
        obtain ⟨level, hlevel⟩ := hfits.level rfl
        rw [if_neg (not_lt.mpr hle)]
        simp only [hlevel]
        exact Line.exists_stepIndent hle level
  | trailingSpaces => exact iff_of_true ⟨_, rfl⟩ (fitsLine_of_room rfl)
  | tabs scope =>
      rw [fitsLine_iff rfl (by simp) (by simp), editLine]
      split_ifs with hlt
      · exact iff_of_false (by simp) (by omega)
      · exact iff_of_true ⟨_, rfl⟩ (by omega)
  | importOrder | importGroups | importSeparation | removeImport => simp [editsLine] at h

/-- A rule that does not look at the column needs the line, and the statements if it scans. -/
lemma fits_iff_of_room (h : rule.room = none) :
    rule.Fits v buffer ↔
      (1 ≤ v.line ∧ v.lineIndex < buffer.length) ∧ (rule.scans = true → buffer.Readable) := by
  constructor
  · rintro ⟨hline, ⟨l, hl, -⟩, hreadable⟩
    exact ⟨⟨hline, (List.getElem?_eq_some_iff.mp hl).1⟩, hreadable⟩
  · rintro ⟨⟨hline, hlt⟩, hreadable⟩
    exact ⟨hline, ⟨_, List.getElem?_eq_getElem hlt, fitsLine_of_room h⟩, hreadable⟩

/-- The violations that fit a buffer are those that are fixed. -/
theorem fits_iff (tabWidth : Nat) :
    rule.Fits v buffer ↔ ∃ buffer', rule.fix tabWidth v buffer = .ok buffer' := by
  have hedits : rule.editsLine = true → rule.scans = false →
      (rule.Fits v buffer ↔ ∃ buffer', rule.fix tabWidth v buffer = .ok buffer') := by
    intro hrule hscans
    simp only [fix_eq_ok_iff_editLine hrule]
    constructor
    · rintro ⟨hline, ⟨l, hl, hfits⟩, -⟩
      obtain ⟨l', hl'⟩ := (exists_editLine_iff hrule).mpr hfits
      exact ⟨_, hline, l, l', hl, hl', rfl⟩
    · rintro ⟨buffer', hline, l, l', hl, hl', -⟩
      exact ⟨hline, ⟨l, hl, (exists_editLine_iff hrule).mp ⟨l', hl'⟩⟩, by simp [hscans]⟩
  cases rule with
  | requireThis | finalParameter | whitespace | indentation | trailingSpaces | tabs =>
      exact hedits rfl rfl
  | importOrder =>
      rw [fits_iff_of_room rfl]
      simp [fix, Fix.reorderImport, onStatements_eq_ok_iff, scans, Buffer.Readable]
  | removeImport redundancy =>
      rw [fits_iff_of_room rfl]
      simp [fix, Fix.removeImport, onStatements_eq_ok_iff, scans, Buffer.Readable]
  | importGroups =>
      rw [fits_iff_of_room rfl]
      simp [fix, joinGroup_eq_ok_iff, scans]
  | importSeparation =>
      rw [fits_iff_of_room rfl]
      simp [fix, separateGroup_eq_ok_iff, scans]

end Rule

end LintRepair
