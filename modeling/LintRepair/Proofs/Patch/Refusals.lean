import LintRepair.Proofs.Indent.Message
import LintRepair.Proofs.Line.TabStops
import LintRepair.Proofs.Patch.Fits

/-!
Violations that are refused.

A fix is refused for one of four reasons, and they are looked at in this order: the buffer has no
such line, the line has no such column, the message tells no level, the statements cannot be told
apart. Which columns a line has is a matter of the rule. The edits further inside can fail too, but
whenever one does, the column has been found missing before.

Reported numbers are words of 64 bits, and a fix that adds to one of them may wrap around. It does
so for a qualifier that is looked for behind all lines only, and then finds as little as without
the wrap. The display columns of tabs are words in any case: they decide how many spaces are
written, and never whether there is a fix.

* `Rule.OffLine`: the reported column is not on the line.
* `Rule.Ending`: how a fix on an existing line ends, with a lemma for each reason; `fix_ending` says
  that it ends so.
* `Rule.fixWord`: the fix with the sums of reported columns in words of 64 bits; `fixWord_eq` for
  its agreement.
* `Rule.fix_refused_iff`: which violations are refused, and for which reason.
-/

namespace LintRepair

variable {v : Violation} {buffer : Buffer} {l : Line}

/-! ### Lines and columns that are not there -/

lemma reportedLine_eq_error_iff {e : FixError} :
    reportedLine buffer v = .error e ↔
      (v.line = 0 ∨ buffer.length < v.line) ∧ e = .lineOutOfRange v.line buffer.length := by
  rw [reportedLine]
  split_ifs with hzero
  · simp [hzero, eq_comm]
  · cases hl : buffer[v.lineIndex]? with
    | none =>
        have hlength : buffer.length < v.line := by
          rw [List.getElem?_eq_none_iff, Violation.lineIndex] at hl
          omega
        simp [hlength, eq_comm]
    | some l =>
        have hlength : v.line ≤ buffer.length := by
          have hlt := (List.getElem?_eq_some_iff.mp hl).1
          rw [Violation.lineIndex] at hlt
          omega
        simp [hzero, hlength]

lemma exists_fault_of_error {message : String} {actual : Nat} {e : FixError}
    (h : expectedLevel message actual = .error e) :
    ∃ fault, e = .unexpectedMessage fault message := by
  by_cases hclear : Unclear (numbers message) actual
  · obtain ⟨fault, hfault⟩ := exists_fault hclear
    exact ⟨fault, Except.error.inj (h.symm.trans hfault)⟩
  · obtain ⟨level, hlevel, -⟩ := exists_expectedLevel hclear
    rw [hlevel] at h
    cases h

namespace Rule

variable {rule : Rule}

/-- The reported column is not on the line, as far as the rule needs it there. A qualifier, an
indentation and a tab may also stand behind the last character. A space needs a token, and none is
found behind a blank at the end of the line. -/
def OffLine (rule : Rule) (v : Violation) (l : Line) : Prop :=
  match rule with
  | requireThis | finalParameter | indentation | tabs _ => l.length < v.columnIndex
  | whitespace spacing => l.length ≤ v.columnIndex ∨
      (spacing = .notFollowed ∧ v.columnIndex + 1 = l.length ∧ l.blankAt v.columnIndex = true)
  | trailingSpaces | importOrder | importGroups | importSeparation | removeImport _ => False

/-- Rules about statements do not look at the column. -/
lemma not_offLine_of_scans (h : rule.scans = true) : ¬ rule.OffLine v l := by
  cases rule with
  | importOrder | removeImport => exact not_false
  | requireThis | finalParameter | whitespace | indentation | importGroups | importSeparation
  | trailingSpaces | tabs => simp [scans] at h

lemma ne_indentation_of_scans (h : rule.scans = true) : rule ≠ indentation := by
  rintro rfl
  simp [scans] at h

/-- A violation fits a line if its column is there and its message, if the rule reads it, tells a
level. -/
lemma fitsLine_iff_offLine :
    rule.FitsLine v l ↔ ¬ rule.OffLine v l ∧
      (rule = indentation → ∃ level, expectedLevel v.message v.columnIndex = .ok level) := by
  cases rule with
  | requireThis | finalParameter | tabs =>
      rw [fitsLine_iff rfl (by simp) (by simp)]
      simp [OffLine]
  | whitespace spacing =>
      by_cases hspacing : spacing = .notFollowed
      · subst hspacing
        constructor
        · intro hfits
          have hroom := hfits.column 1 rfl
          refine ⟨?_, by simp⟩
          rintro (hle | ⟨-, hlast, hblank⟩)
          · omega
          · rcases hfits.behind rfl with hlt | hvisible
            · omega
            · rw [hblank] at hvisible
              cases hvisible
        · rintro ⟨hon, -⟩
          rw [OffLine, not_or, not_le] at hon
          refine ⟨fun n hn => ?_, fun _ => ?_, by simp⟩
          · obtain rfl : 1 = n := Option.some.inj hn
            omega
          · by_cases hlast : v.columnIndex + 1 = l.length
            · exact Or.inr (Bool.eq_false_of_not_eq_true fun hblank => hon.2 ⟨rfl, hlast, hblank⟩)
            · exact Or.inl (by omega)
      · rw [fitsLine_iff rfl (by simpa using hspacing) (by simp)]
        simp [OffLine, hspacing]
  | indentation =>
      constructor
      · intro hfits
        exact ⟨not_lt.mpr (hfits.column 0 rfl), hfits.level⟩
      · rintro ⟨hon, hlevel⟩
        refine ⟨fun n hn => ?_, by simp, hlevel⟩
        obtain rfl : 0 = n := Option.some.inj hn
        exact not_lt.mp hon
  | trailingSpaces | importOrder | importGroups | importSeparation | removeImport =>
      exact iff_of_true (fitsLine_of_room rfl) ⟨not_false, by simp⟩

/-! ### How a fix ends -/

/-- A line that is not there is all that a fix looks at. -/
lemma fix_of_no_line {e : FixError} (h : reportedLine buffer v = .error e) (rule : Rule)
    (tabWidth : Nat) : rule.fix tabWidth v buffer = .error e := by
  cases rule with
  | requireThis | finalParameter | whitespace | indentation | trailingSpaces =>
      simp only [fix, Fix.qualify, Fix.respace, Fix.indent, Fix.stripTrailing, Fix.onLine, h]
  | tabs => simp only [fix, Fix.expandTabs, Fix.onLine, h]
  | importOrder | removeImport =>
      simp only [fix, Fix.reorderImport, Fix.removeImport, Fix.onStatements, h]
  | importGroups | importSeparation => simp only [fix, Fix.joinGroup, Fix.separateGroup, h]

/-- How the fix of a violation on an existing line ends. -/
inductive Ending (rule : Rule) (v : Violation) (buffer : Buffer) (l : Line) :
    Except FixError Buffer → Prop where
  | column : rule.OffLine v l → Ending rule v buffer l (.error (columnError v l))
  | message {fault : MessageFault} : rule = indentation → ¬ rule.OffLine v l →
      expectedLevel v.message v.columnIndex = .error (.unexpectedMessage fault v.message) →
      Ending rule v buffer l (.error (.unexpectedMessage fault v.message))
  | malformed {cause : ScanError} : rule.scans = true → statements buffer = .error cause →
      Ending rule v buffer l (.error (.malformed cause))
  | fixed {buffer' : Buffer} : ¬ rule.OffLine v l →
      (rule = indentation → ∃ level, expectedLevel v.message v.columnIndex = .ok level) →
      (rule.scans = true → ∃ found, statements buffer = .ok found) →
      Ending rule v buffer l (.ok buffer')

namespace Ending

variable {result : Except FixError Buffer}

lemma eq_columnOutOfRange_iff (h : rule.Ending v buffer l result) (line column width : Nat) :
    result = .error (.columnOutOfRange line column width) ↔
      rule.OffLine v l ∧ line = v.line ∧ column = v.column ∧ width = l.length := by
  cases h with
  | column hoff => simp [columnError, hoff, eq_comm]
  | message hrule hon hfault => simp [hon]
  | malformed hscans hcause => simp [not_offLine_of_scans hscans]
  | fixed hon hlevel hfound => simp [hon]

lemma eq_unexpectedMessage_iff (h : rule.Ending v buffer l result) (fault : MessageFault)
    (text : String) :
    result = .error (.unexpectedMessage fault text) ↔
      rule = indentation ∧ ¬ rule.OffLine v l ∧
        expectedLevel v.message v.columnIndex = .error (.unexpectedMessage fault text) := by
  cases h with
  | column hoff => simp [columnError, hoff]
  | message hrule hon hfault =>
      subst hrule
      simp [hon, hfault]
  | malformed hscans hcause => simp [ne_indentation_of_scans hscans]
  | fixed hon hlevel hfound =>
      refine iff_of_false (by simp) ?_
      rintro ⟨hrule, -, herror⟩
      obtain ⟨level, hok⟩ := hlevel hrule
      rw [hok] at herror
      cases herror

lemma eq_malformed_iff (h : rule.Ending v buffer l result) (cause : ScanError) :
    result = .error (.malformed cause) ↔
      rule.scans = true ∧ statements buffer = .error cause := by
  cases h with
  | column hoff =>
      exact iff_of_false (by simp [columnError]) fun h => not_offLine_of_scans h.1 hoff
  | message hrule hon hfault =>
      exact iff_of_false (by simp) fun h => ne_indentation_of_scans h.1 hrule
  | malformed hscans hcause => simp [hscans, hcause]
  | fixed hon hlevel hfound =>
      refine iff_of_false (by simp) ?_
      rintro ⟨hscans, herror⟩
      obtain ⟨found, hok⟩ := hfound hscans
      rw [hok] at herror
      cases herror

lemma exists_eq_ok_iff (h : rule.Ending v buffer l result) :
    (∃ buffer', result = .ok buffer') ↔
      ¬ rule.OffLine v l ∧
        (rule = indentation → ∃ level, expectedLevel v.message v.columnIndex = .ok level) ∧
        (rule.scans = true → ∃ found, statements buffer = .ok found) := by
  cases h with
  | column hoff => simp [hoff]
  | message hrule hon hfault => simp [hrule, hfault]
  | malformed hscans hcause => simp [hscans, hcause]
  | fixed hon hlevel hfound => exact iff_of_true ⟨_, rfl⟩ ⟨hon, hlevel, hfound⟩

/-- On an existing line no other line is missed. -/
lemma ne_lineOutOfRange (h : rule.Ending v buffer l result) (line lines : Nat) :
    result ≠ .error (.lineOutOfRange line lines) := by
  cases h with
  | column | message | malformed | fixed => simp [columnError]

end Ending

/-- A rule that edits the line and reads no message blames the column, or succeeds. -/
lemma ending_of_editsLine (hedits : rule.editsLine = true) (hlevel : rule ≠ indentation)
    (tabWidth : Nat) (hl : reportedLine buffer v = .ok l) :
    rule.Ending v buffer l (rule.fix tabWidth v buffer) := by
  have hscans : rule.scans = false := by
    cases rule with
    | importOrder | removeImport => simp [editsLine] at hedits
    | requireThis | finalParameter | whitespace | indentation | importGroups | importSeparation
    | trailingSpaces | tabs => rfl
  have hfits : (∃ l', rule.editLine tabWidth v l = some l') ↔ rule.FitsLine v l :=
    exists_editLine_iff hedits
  rw [fitsLine_iff_offLine] at hfits
  rw [fix_of_reportedLine hedits hlevel hl]
  cases hedit : rule.editLine tabWidth v l with
  | none =>
      refine .column (not_not.mp fun hon => ?_)
      obtain ⟨l', hl'⟩ := hfits.mpr ⟨hon, fun h => absurd h hlevel⟩
      rw [hedit] at hl'
      cases hl'
  | some l' =>
      have hon := hfits.mp ⟨l', hedit⟩
      exact .fixed hon.1 hon.2 (by simp [hscans])

/-- An indentation looks at the column first, and then at the message. -/
lemma ending_indentation (tabWidth : Nat) (hl : reportedLine buffer v = .ok l) :
    indentation.Ending v buffer l (indentation.fix tabWidth v buffer) := by
  rw [fix, Fix.indent, onLine_of_reportedLine hl]
  by_cases hoff : l.length < v.columnIndex
  · rw [if_pos hoff]
    exact .column hoff
  · rw [if_neg hoff]
    cases hexpected : expectedLevel v.message v.columnIndex with
    | error e =>
        obtain ⟨fault, rfl⟩ := exists_fault_of_error hexpected
        exact .message rfl hoff hexpected
    | ok level =>
        -- the column is on the line, so the step towards the level fits
        obtain ⟨l', hl'⟩ := Line.exists_stepIndent (not_lt.mp hoff) level
        simp only [hl']
        exact .fixed hoff (fun _ => ⟨level, hexpected⟩) (by simp [scans])

lemma ending_of_scans (hscans : rule.scans = true) (tabWidth : Nat)
    (hl : reportedLine buffer v = .ok l) :
    rule.Ending v buffer l (rule.fix tabWidth v buffer) := by
  cases hfound : statements buffer with
  | error cause =>
      have hfix : rule.fix tabWidth v buffer = .error (.malformed cause) := by
        cases rule with
        | importOrder | removeImport =>
            simp only [fix, Fix.reorderImport, Fix.removeImport, Fix.onStatements, hl, hfound]
        | requireThis | finalParameter | whitespace | indentation | importGroups | importSeparation
        | trailingSpaces | tabs => simp [scans] at hscans
      rw [hfix]
      exact .malformed hscans hfound
  | ok found =>
      cases rule with
      | importOrder | removeImport =>
          simp only [fix, Fix.reorderImport, Fix.removeImport, Fix.onStatements, hl, hfound]
          exact .fixed not_false (by simp) fun _ => ⟨found, hfound⟩
      | requireThis | finalParameter | whitespace | indentation | importGroups | importSeparation
      | trailingSpaces | tabs => simp [scans] at hscans

/-- A fix on an existing line ends in one of the four ways. -/
lemma fix_ending (rule : Rule) (tabWidth : Nat) (hl : reportedLine buffer v = .ok l) :
    rule.Ending v buffer l (rule.fix tabWidth v buffer) := by
  cases rule with
  | requireThis | finalParameter | whitespace | trailingSpaces | tabs =>
      exact ending_of_editsLine rfl (by simp) tabWidth hl
  | indentation => exact ending_indentation tabWidth hl
  | importOrder | removeImport => exact ending_of_scans rfl tabWidth hl
  | importGroups | importSeparation =>
      simp only [fix, Fix.joinGroup, Fix.separateGroup, hl]
      split_ifs
      · exact .fixed not_false (by simp) (by simp [scans])
      · exact .fixed not_false (by simp) (by simp [scans])

end Rule

/-! ### Sums in words -/

namespace Line

variable {column : Nat}

/-- Puts a qualifier in front of a column, with the end of the place to look at as a word. -/
def qualifyWord (qualifier : Qualifier) (l : Line) (column : Nat) : Option Line :=
  if l.slice column (wordAdd column qualifier.text.length) = qualifier.text then some l
  else l.insertAt column qualifier.text

/-- Puts the spaces next to the token at a column right, with the columns behind it as words. -/
def respaceWord (spacing : Spacing) (l : Line) (column : Nat) : Option Line :=
  match spacing with
  | .notFollowed =>
      let next := wordAdd (if l.blankAt column then wordAdd column 1 else column) 1
      if l.blankAt next then some l else l.insertAt next [' ']
  | .followed =>
      let next := wordAdd column 1
      if l.charAt next = some ' ' then l.removeAt next else some l
  | _ => l.respace spacing column

/-- A qualifier is not found in a place that wraps around, nor in one behind all lines. -/
lemma qualifyWord_eq (qualifier : Qualifier) (hcolumn : column < 2 ^ 64)
    (hlength : l.length < 2 ^ 64) :
    l.qualifyWord qualifier column = l.qualify qualifier column := by
  have hpos : 0 < qualifier.text.length := by cases qualifier <;> decide
  have hsmall : qualifier.text.length ≤ 6 := by cases qualifier <;> decide
  have hshort : ∀ stop, (l.slice column stop).length = min stop l.length - column := by
    intro stop
    rw [slice_eq, List.length_drop, List.length_take]
  rw [qualifyWord, qualify]
  by_cases hsum : column + qualifier.text.length < 2 ^ 64
  · rw [wordAdd_of_lt hsum]
  · have hwrap : wordAdd column qualifier.text.length < column := by
      rw [wordAdd, UInt64.size]
      omega
    rw [if_neg, if_neg]
    · intro hthere
      have htext := hshort (column + qualifier.text.length)
      rw [hthere] at htext
      omega
    · intro hthere
      have htext := hshort (wordAdd column qualifier.text.length)
      rw [hthere] at htext
      omega

/-- Next to a column of a line no sum wraps around. -/
lemma respaceWord_eq (spacing : Spacing) (hcolumn : column < l.length)
    (hlength : l.length < 2 ^ 63) : l.respaceWord spacing column = l.respace spacing column := by
  have hadd : ∀ n ≤ 2, wordAdd column n = column + n := by
    intro n hn
    exact wordAdd_of_lt (by omega)
  cases spacing with
  | notPreceded | preceded => rfl
  | notFollowed =>
      have hnext : wordAdd (if l.blankAt column then wordAdd column 1 else column) 1 =
          l.tokenColumn column + 1 := by
        rw [tokenColumn]
        split_ifs
        · rw [hadd 1 (by omega)]
          exact wordAdd_of_lt (by omega)
        · exact hadd 1 (by omega)
      simp only [respaceWord, respace, hnext]
  | followed => simp only [respaceWord, respace, hadd 1 (by omega)]

end Line

lemma onLine_congr {edit edit' : Violation → Line → Except FixError Line}
    (h : ∀ l ∈ buffer, edit v l = edit' v l) :
    Fix.onLine edit v buffer = Fix.onLine edit' v buffer := by
  cases hreported : reportedLine buffer v with
  | error e => simp only [Fix.onLine, hreported]
  | ok l =>
      have hmem : l ∈ buffer := List.mem_of_getElem? (reportedLine_eq_ok_iff.mp hreported).2
      rw [onLine_of_reportedLine hreported, onLine_of_reportedLine hreported, h l hmem]

namespace Rule

/-- The fix of a rule with the sums of reported columns in words of 64 bits. The fixes that are left
as they are add nothing to a reported column; that of tabs counts its display columns in words. -/
def fixWord (tabWidth : Nat) (rule : Rule) (v : Violation) (buffer : Buffer) :
    Except FixError Buffer :=
  match rule with
  | requireThis =>
      Fix.onLine (fun v l => orColumnError v l (l.qualifyWord .this v.columnIndex)) v buffer
  | finalParameter =>
      Fix.onLine (fun v l => orColumnError v l (l.qualifyWord .final v.columnIndex)) v buffer
  | whitespace spacing =>
      Fix.onLine (fun v l =>
        if l.length ≤ v.columnIndex then .error (columnError v l)
        else orColumnError v l (l.respaceWord spacing v.columnIndex)) v buffer
  | _ => rule.fix tabWidth v buffer

/-- Sums of reported columns that wrap around do not change a fix. -/
lemma fixWord_eq (rule : Rule) (tabWidth : Nat) (hcolumn : v.column < 2 ^ 64)
    (hlines : ∀ l ∈ buffer, l.length < 2 ^ 63) :
    rule.fixWord tabWidth v buffer = rule.fix tabWidth v buffer := by
  have hindex : v.columnIndex < 2 ^ 64 := by
    rw [Violation.columnIndex]
    omega
  have hqualify : ∀ qualifier, ∀ l ∈ buffer,
      orColumnError v l (l.qualifyWord qualifier v.columnIndex) =
        orColumnError v l (l.qualify qualifier v.columnIndex) := by
    intro qualifier l hl
    have hlength := hlines l hl
    rw [Line.qualifyWord_eq qualifier hindex (by omega)]
  cases rule with
  | requireThis =>
      rw [fixWord, fix, Fix.qualify]
      exact onLine_congr (hqualify .this)
  | finalParameter =>
      rw [fixWord, fix, Fix.qualify]
      exact onLine_congr (hqualify .final)
  | whitespace spacing =>
      rw [fixWord, fix, Fix.respace]
      refine onLine_congr fun l hl => ?_
      by_cases hoff : l.length ≤ v.columnIndex
      · rw [if_pos hoff, if_pos hoff]
      · rw [if_neg hoff, if_neg hoff, Line.respaceWord_eq spacing (not_le.mp hoff) (hlines l hl)]
  | indentation | importOrder | importGroups | importSeparation | removeImport | trailingSpaces
  | tabs => rfl

/-! ### Refused violations -/

/-- A column of zero is read like a column of one. -/
lemma fix_column_zero (rule : Rule) (tabWidth : Nat) (v : Violation) (buffer buffer' : Buffer) :
    rule.fix tabWidth { v with column := 0 } buffer = .ok buffer' ↔
      rule.fix tabWidth { v with column := 1 } buffer = .ok buffer' := by
  cases rule with
  | requireThis | finalParameter | whitespace | indentation | trailingSpaces | tabs =>
      rw [fix_eq_ok_iff_editLine rfl, fix_eq_ok_iff_editLine rfl]
      rfl
  | importOrder | importGroups | importSeparation | removeImport => rfl

lemma fix_eq_lineOutOfRange_iff (rule : Rule) (tabWidth : Nat) (v : Violation) (buffer : Buffer)
    (line lines : Nat) :
    rule.fix tabWidth v buffer = .error (.lineOutOfRange line lines) ↔
      (v.line = 0 ∨ buffer.length < v.line) ∧ line = v.line ∧ lines = buffer.length := by
  cases hreported : reportedLine buffer v with
  | error e =>
      obtain ⟨hmissing, rfl⟩ := reportedLine_eq_error_iff.mp hreported
      rw [fix_of_no_line hreported]
      simp [hmissing, eq_comm]
  | ok l =>
      refine iff_of_false ((fix_ending rule tabWidth hreported).ne_lineOutOfRange line lines) ?_
      rintro ⟨hmissing, -⟩
      rw [reportedLine_eq_error_iff.mpr ⟨hmissing, rfl⟩] at hreported
      cases hreported

/-- Which violations are refused, and for which reason. The line is missing if it is zero or greater
than the number of lines. On an existing line, the column is missing if it is off the line as far as
the rule goes; an indentation whose column is there is refused if its message tells no level, and a
fix of import statements if the statements cannot be told apart. All other violations are fixed. A
column of zero is read like a column of one, and sums of a reported column that wrap around in words
of 64 bits do not change anything, as long as no line is longer than half of what such a word can
count. -/
theorem fix_refused_iff (rule : Rule) (tabWidth : Nat) (v : Violation) (buffer : Buffer) :
    (∀ line lines, rule.fix tabWidth v buffer = .error (.lineOutOfRange line lines) ↔
      (v.line = 0 ∨ buffer.length < v.line) ∧ line = v.line ∧ lines = buffer.length) ∧
    (∀ l, 1 ≤ v.line → buffer[v.line - 1]? = some l →
      (∀ line column width,
        rule.fix tabWidth v buffer = .error (.columnOutOfRange line column width) ↔
          rule.OffLine v l ∧ line = v.line ∧ column = v.column ∧ width = l.length) ∧
      (∀ fault text, rule.fix tabWidth v buffer = .error (.unexpectedMessage fault text) ↔
        rule = indentation ∧ ¬ rule.OffLine v l ∧
          expectedLevel v.message v.columnIndex = .error (.unexpectedMessage fault text)) ∧
      (∀ cause, rule.fix tabWidth v buffer = .error (.malformed cause) ↔
        rule.scans = true ∧ statements buffer = .error cause) ∧
      ((∃ buffer', rule.fix tabWidth v buffer = .ok buffer') ↔
        ¬ rule.OffLine v l ∧
          (rule = indentation → ∃ level, expectedLevel v.message v.columnIndex = .ok level) ∧
          (rule.scans = true → ∃ found, statements buffer = .ok found))) ∧
    (∀ buffer', rule.fix tabWidth { v with column := 0 } buffer = .ok buffer' ↔
      rule.fix tabWidth { v with column := 1 } buffer = .ok buffer') ∧
    (v.column < 2 ^ 64 → (∀ l ∈ buffer, l.length < 2 ^ 63) →
      rule.fixWord tabWidth v buffer = rule.fix tabWidth v buffer) := by
  refine ⟨fix_eq_lineOutOfRange_iff rule tabWidth v buffer, fun l hline hl => ?_,
    fix_column_zero rule tabWidth v buffer, fixWord_eq rule tabWidth⟩
  have hend := fix_ending rule tabWidth (reportedLine_eq_ok_iff.mpr ⟨hline, hl⟩)
  exact ⟨hend.eq_columnOutOfRange_iff, hend.eq_unexpectedMessage_iff, hend.eq_malformed_iff,
    hend.exists_eq_ok_iff⟩

/-- A token that is looked for behind a blank at the end of its line, and a qualifier in a column so
large that the place to look at wraps around. -/
theorem fix_refused_columns :
    (whitespace .notFollowed).fix 4 ⟨1, 2, "ws.notFollowed", ""⟩ ["a ".toList] =
        .error (.columnOutOfRange 1 2 2) ∧
      requireThis.fixWord 4 ⟨1, 2 ^ 64 - 1, "require.this.method", ""⟩ ["a".toList] =
        .error (.columnOutOfRange 1 (2 ^ 64 - 1) 1) := by
  obtain ⟨-, hspace, -⟩ :=
    fix_refused_iff (whitespace .notFollowed) 4 ⟨1, 2, "ws.notFollowed", ""⟩ ["a ".toList]
  obtain ⟨-, hfar, -, hword⟩ :=
    fix_refused_iff requireThis 4 ⟨1, 2 ^ 64 - 1, "require.this.method", ""⟩ ["a".toList]
  constructor
  · have hoff : OffLine (whitespace .notFollowed) ⟨1, 2, "ws.notFollowed", ""⟩ "a ".toList :=
      Or.inr ⟨rfl, rfl, by decide⟩
    exact ((hspace "a ".toList (Nat.le_refl 1) rfl).1 1 2 2).mpr ⟨hoff, rfl, rfl, rfl⟩
  · have hoff : OffLine requireThis ⟨1, 2 ^ 64 - 1, "require.this.method", ""⟩ "a".toList := by
      simp [OffLine, Violation.columnIndex]
    rw [hword (by norm_num) (by simp)]
    exact ((hfar "a".toList (Nat.le_refl 1) rfl).1 1 (2 ^ 64 - 1) 1).mpr ⟨hoff, rfl, rfl, rfl⟩

end Rule

end LintRepair
