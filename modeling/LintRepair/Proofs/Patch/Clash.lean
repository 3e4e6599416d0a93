import LintRepair.Proofs.Patch.Waiting

/-!
Violations that go together.

Violations that can be fixed one by one need not go together in one run: a fix can spoil a violation
that waits for it. A run succeeds if no violation spoils a waiting one, and each pair of rules that
spoils is the pair of a run of two violations that fails.

* `Separate`: violations at different positions, each of which can be fixed alone.
* `Spoiled`: two such violations that cannot be fixed together, with their rules and their reach.
* `patchLines_succeeds_unless_spoiled`: the runs that succeed and the pairs that fail.
-/

namespace LintRepair

/-- Known violations at different positions, each of which a run on its own fixes. -/
structure Separate (patcher : Patcher) (violations : List Violation) (buffer : Buffer) : Prop where
  lines : ∀ l ∈ buffer, '\n' ∉ l ∧ '\r' ∉ l
  keys : ∀ v ∈ violations, v.key ∈ Rule.keys
  distinct : violations.Pairwise fun v w => (v.line, v.column) ≠ (w.line, w.column)
  alone : ∀ v ∈ violations, ∃ patched, patcher.patchLines [v] buffer = .ok patched

/-- A violation of the first rule and one of the second rule that waits for it, which can be fixed
one by one but not together. -/
def Spoiled (patcher : Patcher) (first waiting : Rule) (reach : Reach) : Prop :=
  ∃ buffer v w, Separate patcher [v, w] buffer ∧ Violation.inPatchOrder [v, w] = [v, w] ∧
    Rule.ofKey? v.key = some first ∧ Rule.ofKey? w.key = some waiting ∧ v.reach w = reach ∧
    ∀ patched, patcher.patchLines [v, w] buffer ≠ .ok patched

/-! ### Runs over one violation and over two -/

section Run

variable {patcher : Patcher} {rule first waiting : Rule} {v w : Violation}
  {all later : List Violation} {buffer buffer' : Buffer}

/-- A rule applies if no import is out of order that it has to wait for. -/
lemma permits_of_ofKey? (hrule : Rule.ofKey? v.key = some rule)
    (hlater : rule = .importOrder → ∀ w ∈ later, Rule.ofKey? w.key ≠ some .importOrder)
    (hall : rule = .importGroups ∨ rule = .importSeparation →
      ∀ w ∈ all, Rule.ofKey? w.key ≠ some .importOrder) :
    rule.permits all v (.followedBy later) = true := by
  have hno : ∀ violations : List Violation,
      (∀ w ∈ violations, Rule.ofKey? w.key ≠ some .importOrder) →
      violations.all (·.key ≠ orderingKey) = true := by
    intro violations h
    rw [List.all_eq_true]
    intro w hw
    have hkey := h w hw
    rw [Ne, Rule.ofKey?_eq_importOrder_iff] at hkey
    simpa using hkey
  cases rule with
  | importOrder =>
      have hkey := Rule.ofKey?_eq_importOrder_iff.mp hrule
      rw [Rule.permits, hkey]
      exact hno later (hlater rfl)
  | importGroups => exact hno all (hall (Or.inl rfl))
  | importSeparation => exact hno all (hall (Or.inr rfl))
  | requireThis | finalParameter | whitespace | indentation | removeImport | trailingSpaces
  | tabs => rfl

/-- A step that is not put off succeeds for the violations that fit. -/
lemma exists_applyOne_iff (henabled : ∀ key ∈ Rule.keys, patcher.enabled key = true)
    (hrule : Rule.ofKey? v.key = some rule)
    (hpermits : rule.permits all v (.followedBy later) = true) (state : Patched) :
    (∃ state', patcher.applyOne all v later state = .ok state') ↔ rule.Fits v state.lines := by
  rw [Rule.fits_iff patcher.tabWidth, Patcher.applyOne_of_rule (ruleFor_eq henabled hrule) hpermits]
  cases rule.fix patcher.tabWidth v state.lines with
  | error e => simp [Except.map]
  | ok lines => simp [Except.map]

/-- A violation can be fixed alone just if it fits. -/
lemma exists_patchLines_singleton_iff (henabled : ∀ key ∈ Rule.keys, patcher.enabled key = true)
    (hrule : Rule.ofKey? v.key = some rule) :
    (∃ patched, patcher.patchLines [v] buffer = .ok patched) ↔ rule.Fits v buffer := by
  have hpermits : rule.permits [v] v (.followedBy []) = true := by
    refine permits_of_ofKey? hrule (by simp) ?_
    rintro hgroups w hw
    rw [List.mem_singleton.mp hw, hrule]
    rcases hgroups with rfl | rfl
    · simp
    · simp
  have hsorted : Violation.inPatchOrder [v] = [v] := by
    rw [← List.perm_singleton]
    exact Violation.inPatchOrder_perm [v]
  have hstep := exists_applyOne_iff henabled hrule hpermits ⟨buffer, 0, 0, []⟩
  rw [← hstep, Patcher.patchLines_eq, hsorted, Patcher.applyAll]
  cases patcher.applyOne [v] v [] ⟨buffer, 0, 0, []⟩ with
  | error e => simp
  | ok state' => simp [Patcher.applyAll]

/-- Two violations of which the first one spoils the second one are both applied. -/
lemma permits_of_spoils (hv : Rule.ofKey? v.key = some first)
    (hw : Rule.ofKey? w.key = some waiting) {reach : Reach}
    (hspoils : first.spoils waiting reach = true) :
    first.permits [v, w] v (.followedBy [w]) = true ∧
      waiting.permits [v, w] w (.followedBy []) = true := by
  have hfirst : first = .importOrder ∨ first = .importGroups ∨ first = .importSeparation →
      waiting ≠ .importOrder := by
    rintro (rfl | rfl | rfl) rfl <;>
      simp [Rule.spoils, Rule.displaces, Rule.keepsReadable, Rule.room] at hspoils
  have hwaiting : waiting = .importGroups ∨ waiting = .importSeparation →
      first ≠ .importOrder := by
    rintro (rfl | rfl) rfl <;>
      simp [Rule.spoils, Rule.displaces, Rule.keepsReadable, Rule.room] at hspoils
  constructor
  · refine permits_of_ofKey? hv (fun horder => ?_) fun hgroups => ?_
    · simp [hw, hfirst (Or.inl horder)]
    · have hne : first ≠ .importOrder := by rcases hgroups with rfl | rfl <;> simp
      simp [hv, hw, hne, hfirst (Or.inr hgroups)]
  · refine permits_of_ofKey? hw (by simp) fun hgroups => ?_
    have hne : waiting ≠ .importOrder := by rcases hgroups with rfl | rfl <;> simp
    simp [hv, hw, hne, hwaiting hgroups]

/-- Two violations in patch order stay in this order. -/
lemma inPatchOrder_pair (h : v.Follows w) : Violation.inPatchOrder [v, w] = [v, w] := by
  refine List.mergeSort_of_pairwise ?_
  rw [List.pairwise_pair, Violation.patchOrderBy_isLE]
  rw [Violation.Follows] at h
  omega

end Run

/-! ### Violations of given rules -/

namespace Rule

/-- A key of the rule. -/
def key : Rule → String
  | requireThis => "require.this.variable"
  | finalParameter => "final.parameter"
  | whitespace .notPreceded => "ws.notPreceded"
  | whitespace .notFollowed => "ws.notFollowed"
  | whitespace .preceded => "ws.preceded"
  | whitespace .followed => "ws.followed"
  | indentation => "indentation.error"
  | importOrder => orderingKey
  | importGroups => "import.groups.separated.internally"
  | importSeparation => "import.separation"
  | removeImport .unused => "import.unused"
  | removeImport .duplicate => "import.duplicate"
  | removeImport .lang => "import.lang"
  | trailingSpaces => "Line has trailing spaces."
  | tabs .line => "containsTab"
  | tabs .file => "file.containsTab"

lemma ofKey?_key (rule : Rule) : ofKey? rule.key = some rule := by
  cases rule with
  | whitespace spacing => cases spacing <;> rfl
  | removeImport redundancy => cases redundancy <;> rfl
  | tabs scope => cases scope <;> rfl
  | requireThis | finalParameter | indentation | importOrder | importGroups | importSeparation
  | trailingSpaces => rfl

/-- A violation of the rule. -/
def violation (rule : Rule) (line column : Nat) (message : String) : Violation :=
  ⟨line, column, rule.key, message⟩

variable {rule : Rule} {line column : Nat} {message : String} {buffer : Buffer} {l : Line}

/-- Every violation fits a line on which a character follows the reported one. -/
lemma fits_violation (hl : buffer[line - 1]? = some l) (hline : 1 ≤ line)
    (hlt : column - 1 + 1 < l.length)
    (hlevel : ∃ level, expectedLevel message (column - 1) = .ok level)
    (hreadable : rule.scans = true → buffer.Readable) :
    rule.Fits (rule.violation line column message) buffer := by
  refine ⟨hline, ⟨l, hl, fun n hn => ?_, fun _ => Or.inl hlt, fun _ => hlevel⟩, hreadable⟩
  have hone := room_le_one hn
  have hcolumn : (rule.violation line column message).columnIndex = column - 1 := rfl
  omega

/-- No violation fits a line that is not there. -/
lemma not_fits_of_length_le (h : buffer.length ≤ line - 1) :
    ¬ rule.Fits (rule.violation line column message) buffer := by
  rintro ⟨-, ⟨l, hl, -⟩, -⟩
  obtain ⟨hlt, -⟩ := List.getElem?_eq_some_iff.mp hl
  exact absurd h (not_le.mpr hlt)

/-- No violation fits a line that is too short for its column. -/
lemma not_fits_of_lt (hroom : rule.room.isSome = true) (hl : buffer[line - 1]? = some l)
    (hlt : l.length < column - 1) : ¬ rule.Fits (rule.violation line column message) buffer := by
  rintro ⟨-, ⟨k, hk, hfits⟩, -⟩
  obtain ⟨n, hn⟩ := Option.isSome_iff_exists.mp hroom
  obtain rfl : l = k := Option.some.inj (hl.symm.trans hk)
  have hle : column - 1 + n ≤ l.length := hfits.column n hn
  omega

/-- A rule that looks at the column does not look at the statements. -/
lemma scans_of_room (hroom : rule.room.isSome = true) : rule.scans = false := by
  cases rule <;> first | rfl | simp [room] at hroom

end Rule

/-! ### Pairs of rules that spoil -/

section Pairs

variable {patcher : Patcher} (henabled : ∀ key ∈ Rule.keys, patcher.enabled key = true)
  {first waiting : Rule} {buffer buffer' : Buffer} {reach : Reach}

include henabled

/-- Two violations are spoiled if the second one fits the buffer, but not what the first one makes
of it. -/
lemma Spoiled.of_fits {line column line' column' : Nat} {message message' : String}
    (hfix : first.fix patcher.tabWidth (first.violation line column message) buffer = .ok buffer')
    (hbefore : waiting.Fits (waiting.violation line' column' message') buffer)
    (hafter : ¬ waiting.Fits (waiting.violation line' column' message') buffer')
    (hlines : ∀ l ∈ buffer, '\n' ∉ l ∧ '\r' ∉ l)
    (horder : line' < line ∨ line' = line ∧ column' < column)
    (hreach : (if line' = line then Reach.sameLine
      else if line' + 1 = line then .lineAbove else .higher) = reach)
    (hspoils : first.spoils waiting reach = true) : Spoiled patcher first waiting reach := by
  set v := first.violation line column message
  set w := waiting.violation line' column' message'
  have hv : Rule.ofKey? v.key = some first := Rule.ofKey?_key first
  have hw : Rule.ofKey? w.key = some waiting := Rule.ofKey?_key waiting
  obtain ⟨hpermits, hpermits'⟩ := permits_of_spoils hv hw hspoils
  have hsorted : Violation.inPatchOrder [v, w] = [v, w] := inPatchOrder_pair horder
  refine ⟨buffer, v, w, ⟨hlines, ?_, ?_, ?_⟩, hsorted, hv, hw, hreach, fun patched hpatched => ?_⟩
  · intro u hu
    rcases List.mem_pair.mp hu with rfl | rfl
    · exact Rule.mem_keys_iff.mpr ⟨first, hv⟩
    · exact Rule.mem_keys_iff.mpr ⟨waiting, hw⟩
  · rw [List.pairwise_pair]
    intro heq
    have hline : line = line' := congrArg Prod.fst heq
    have hcolumn : column = column' := congrArg Prod.snd heq
    omega
  · intro u hu
    rcases List.mem_pair.mp hu with rfl | rfl
    · rw [exists_patchLines_singleton_iff henabled hv, Rule.fits_iff patcher.tabWidth]
      exact ⟨buffer', hfix⟩
    · rwa [exists_patchLines_singleton_iff henabled hw]
  · rw [Patcher.patchLines_eq, hsorted, Patcher.applyAll,
      Patcher.applyOne_of_rule (ruleFor_eq henabled hv) hpermits, hfix] at hpatched
    simp only [Except.map, Patcher.applyAll] at hpatched
    cases hstep : patcher.applyOne [v, w] w [] ⟨buffer', 0 + 1, 0, []⟩ with
    | error e => simp [hstep] at hpatched
    | ok state =>
        exact hafter ((exists_applyOne_iff henabled hw hpermits' _).mp ⟨state, hstep⟩)

/-- Two violations are spoiled if the first one leaves a line too short for the second one. -/
lemma Spoiled.of_length_lt {line column level : Nat} {message : String} {l l' : Line}
    (line' column' : Nat) (message' : String) (hroom : waiting.room.isSome = true)
    (hfix : first.fix patcher.tabWidth (first.violation line column message) buffer = .ok buffer')
    (hl : buffer[line' - 1]? = some l) (hl' : buffer'[line' - 1]? = some l')
    (hlong : column' - 1 + 1 < l.length) (hshort : l'.length < column' - 1)
    (hlevel : expectedLevel message' (column' - 1) = .ok level) (hline : 1 ≤ line')
    (hlines : ∀ l ∈ buffer, '\n' ∉ l ∧ '\r' ∉ l)
    (horder : line' < line ∨ line' = line ∧ column' < column)
    (hreach : (if line' = line then Reach.sameLine
      else if line' + 1 = line then .lineAbove else .higher) = reach)
    (hspoils : first.spoils waiting reach = true) : Spoiled patcher first waiting reach := by
  have hbefore : waiting.Fits (waiting.violation line' column' message') buffer :=
    Rule.fits_violation hl hline hlong ⟨level, hlevel⟩ (by simp [Rule.scans_of_room hroom])
  have hafter : ¬ waiting.Fits (waiting.violation line' column' message') buffer' :=
    Rule.not_fits_of_lt hroom hl' hshort
  exact Spoiled.of_fits henabled hfix hbefore hafter hlines horder hreach hspoils

/-- Two violations are spoiled if the first one leaves too few lines for the second one. -/
lemma Spoiled.of_length_le {line column level : Nat} {message : String} {l : Line}
    (line' column' : Nat) (message' : String) (hreadable : buffer.Readable)
    (hfix : first.fix patcher.tabWidth (first.violation line column message) buffer = .ok buffer')
    (hl : buffer[line' - 1]? = some l) (hgone : buffer'.length ≤ line' - 1)
    (hlong : column' - 1 + 1 < l.length)
    (hlevel : expectedLevel message' (column' - 1) = .ok level) (hline : 1 ≤ line')
    (hlines : ∀ l ∈ buffer, '\n' ∉ l ∧ '\r' ∉ l)
    (horder : line' < line ∨ line' = line ∧ column' < column)
    (hreach : (if line' = line then Reach.sameLine
      else if line' + 1 = line then .lineAbove else .higher) = reach)
    (hspoils : first.spoils waiting reach = true) : Spoiled patcher first waiting reach := by
  have hbefore : waiting.Fits (waiting.violation line' column' message') buffer :=
    Rule.fits_violation hl hline hlong ⟨level, hlevel⟩ fun _ => hreadable
  have hafter : ¬ waiting.Fits (waiting.violation line' column' message') buffer' :=
    Rule.not_fits_of_length_le hgone
  exact Spoiled.of_fits henabled hfix hbefore hafter hlines horder hreach hspoils

/-- A line that is split for the order of imports ends in front of the column. -/
lemma spoiled_importOrder (hspoils : Rule.importOrder.spoils waiting reach = true) :
    Spoiled patcher .importOrder waiting reach := by
  have hroom : waiting.room.isSome = true := by
    simpa [Rule.spoils, Rule.displaces, Rule.keepsReadable] using hspoils
  have hspoiled : ∀ line column,
      Fix.reorderImport (Rule.importOrder.violation line column "")
        ["import a; import b;".toList, "c;".toList, []] =
          .ok ["import a;".toList, "import b;".toList, "c;".toList, []] →
      (1 < line ∨ 1 = line ∧ 15 < column) →
      (if 1 = line then Reach.sameLine else if 1 + 1 = line then .lineAbove else .higher) = reach →
      Spoiled patcher .importOrder waiting reach := by
    intro line column hfix horder hreach
    exact Spoiled.of_length_lt henabled 1 15 "14 15" hroom hfix rfl rfl (by decide) (by decide) rfl
      (by decide) (by decide) horder hreach hspoils
  cases reach with
  | sameLine => exact hspoiled 1 16 (by decide +kernel) (by decide) rfl
  | lineAbove => exact hspoiled 2 1 (by decide +kernel) (by decide) rfl
  | higher => exact hspoiled 3 1 (by decide +kernel) (by decide) rfl

/-- An import that is removed takes its lines with it. -/
lemma spoiled_removeImport {redundancy : Redundancy}
    (hspoils : (Rule.removeImport redundancy).spoils waiting reach = true) :
    Spoiled patcher (.removeImport redundancy) waiting reach := by
  have hfix : (Rule.removeImport redundancy).fix patcher.tabWidth
      ((Rule.removeImport redundancy).violation 4 2 "")
        ["import".toList, "xy".toList, "ab".toList, ";b;".toList] = .ok ["b;".toList] := by cbv
  have hreadable := ((Rule.fits_iff patcher.tabWidth).mpr ⟨_, hfix⟩).readable rfl
  cases reach with
  | sameLine =>
      exact Spoiled.of_length_le henabled 4 1 "0 1" hreadable hfix rfl (by decide) (by decide) rfl
        (by decide) (by decide) (by decide) rfl hspoils
  | lineAbove =>
      exact Spoiled.of_length_le henabled 3 1 "0 1" hreadable hfix rfl (by decide) (by decide) rfl
        (by decide) (by decide) (by decide) rfl hspoils
  | higher =>
      exact Spoiled.of_length_le henabled 2 1 "0 1" hreadable hfix rfl (by decide) (by decide) rfl
        (by decide) (by decide) (by decide) rfl hspoils

/-- A blank line that goes takes the last line number away, and its own column. -/
lemma spoiled_importGroups (hspoils : Rule.importGroups.spoils waiting reach = true) :
    Spoiled patcher .importGroups waiting reach := by
  cases reach with
  | sameLine =>
      have hfix : Rule.importGroups.fix patcher.tabWidth (Rule.importGroups.violation 2 3 "")
          [[], "import a;b;".toList] = .ok ["import a;b;".toList] := by cbv
      have hfound : statements [[], "import a;b;".toList] =
          .ok [⟨⟨1, 0⟩, ⟨1, 8⟩, "import a;".toList⟩, ⟨⟨1, 9⟩, ⟨1, 10⟩, "b;".toList⟩] := by cbv
      exact Spoiled.of_length_le henabled 2 2 "1 2" ⟨_, hfound⟩ hfix rfl (by decide) (by decide) rfl
        (by decide) (by decide) (by decide) rfl hspoils
  | lineAbove =>
      obtain ⟨-, hroom⟩ : waiting ≠ .importOrder ∧ waiting.room.isSome = true := by
        simpa [Rule.spoils, Rule.displaces, Rule.keepsReadable] using hspoils
      have hfix : Rule.importGroups.fix patcher.tabWidth (Rule.importGroups.violation 2 1 "")
          ["    ".toList, []] = .ok [[]] := by cbv
      exact Spoiled.of_length_lt henabled 1 2 "1 2" hroom hfix rfl rfl (by decide) (by decide) rfl
        (by decide) (by decide) (by decide) rfl hspoils
  | higher => simp [Rule.spoils, Rule.displaces, Rule.keepsReadable] at hspoils

/-- An empty line that comes takes the place of the reported line. -/
lemma spoiled_importSeparation (hspoils : Rule.importSeparation.spoils waiting reach = true) :
    Spoiled patcher .importSeparation waiting reach := by
  obtain ⟨rfl, hroom⟩ : reach = .sameLine ∧ waiting.room.isSome = true := by
    simpa [Rule.spoils, Rule.displaces, Rule.keepsReadable] using hspoils
  have hfix : Rule.importSeparation.fix patcher.tabWidth (Rule.importSeparation.violation 2 3 "")
      ["a".toList, "abc".toList] = .ok ["a".toList, [], "abc".toList] := by cbv
  exact Spoiled.of_length_lt henabled 2 2 "1 2" hroom hfix rfl rfl (by decide) (by decide) rfl
    (by decide) (by decide) (by decide) rfl hspoils

/-- A blank line that is trimmed has no column left. -/
lemma spoiled_trailingSpaces (hspoils : Rule.trailingSpaces.spoils waiting reach = true) :
    Spoiled patcher .trailingSpaces waiting reach := by
  obtain ⟨rfl, hroom⟩ : reach = .sameLine ∧ waiting.room.isSome = true := by
    simpa [Rule.spoils, Rule.displaces, Rule.keepsReadable] using hspoils
  have hfix : Rule.trailingSpaces.fix patcher.tabWidth (Rule.trailingSpaces.violation 1 3 "")
      ["    ".toList] = .ok [[]] := by cbv
  exact Spoiled.of_length_lt henabled 1 2 "1 2" hroom hfix rfl rfl (by decide) (by decide) rfl
    (by decide) (by decide) (by decide) rfl hspoils

/-- An edit inside the only import leaves a buffer whose statements cannot be told apart. -/
lemma spoiled_of_unreadable (column : Nat) (message : String) (l : Line)
    (hscans : waiting.scans = true) (hspoils : first.spoils waiting reach = true)
    (hfix : first.fix patcher.tabWidth (first.violation 3 column message)
      [[], [], "import a;b;".toList] = .ok [[], [], l])
    (hstatements : statements [[], [], l] = .error (.unexpectedEnd 3)) (hcolumn : 1 < column) :
    Spoiled patcher first waiting reach := by
  have hfound : statements [[], [], "import a;b;".toList] =
      .ok [⟨⟨2, 0⟩, ⟨2, 8⟩, "import a;".toList⟩, ⟨⟨2, 9⟩, ⟨2, 10⟩, "b;".toList⟩] := by cbv
  have hroom : waiting.room = none := by
    cases hroom : waiting.room with
    | none => rfl
    | some n => simp [Rule.scans_of_room, hroom] at hscans
  have hbefore : ∀ line, 1 ≤ line → line ≤ 3 →
      waiting.Fits (waiting.violation line 1 "") [[], [], "import a;b;".toList] := by
    intro line hpos hle
    refine (Rule.fits_iff_of_room hroom).mpr ⟨⟨hpos, ?_⟩, fun _ => ⟨_, hfound⟩⟩
    change line - 1 < 3
    omega
  have hafter : ∀ line, ¬ waiting.Fits (waiting.violation line 1 "") [[], [], l] := by
    intro line hfits
    obtain ⟨found, hagain⟩ := hfits.readable hscans
    rw [hstatements] at hagain
    simp at hagain
  cases reach with
  | sameLine =>
      exact Spoiled.of_fits henabled hfix (hbefore 3 (by decide) (by decide)) (hafter 3) (by decide)
        (Or.inr ⟨rfl, hcolumn⟩) rfl hspoils
  | lineAbove =>
      exact Spoiled.of_fits henabled hfix (hbefore 2 (by decide) (by decide)) (hafter 2) (by decide)
        (Or.inl (by decide)) rfl hspoils
  | higher =>
      exact Spoiled.of_fits henabled hfix (hbefore 1 (by decide) (by decide)) (hafter 1) (by decide)
        (Or.inl (by decide)) rfl hspoils

/-- A space taken out of a line of two leaves a blank at its end, with no token in front of it. -/
lemma spoiled_of_blank (column column' : Nat) (hzero : column' - 1 = 0) (hlt : column' < column)
    (hfix : first.fix patcher.tabWidth (first.violation 1 column "") ["  ".toList] =
      .ok [" ".toList])
    (hspoils : first.spoils (.whitespace .notFollowed) .sameLine = true) :
    Spoiled patcher first (.whitespace .notFollowed) .sameLine := by
  have hbefore : (Rule.whitespace .notFollowed).Fits
      ((Rule.whitespace .notFollowed).violation 1 column' "0 1") ["  ".toList] := by
    refine Rule.fits_violation rfl (by decide) ?_ ?_ (by simp [Rule.scans])
    · rw [hzero]
      decide
    · rw [hzero]
      exact ⟨1, by decide⟩
  refine Spoiled.of_fits henabled hfix hbefore ?_ (by decide) (Or.inr ⟨rfl, hlt⟩) rfl hspoils
  rintro ⟨-, ⟨l, hl, hfits⟩, -⟩
  obtain rfl : " ".toList = l := Option.some.inj hl
  have hbehind : column' - 1 + 1 < 1 ∨ Line.blankAt " ".toList (column' - 1) = false :=
    hfits.behind rfl
  rw [hzero] at hbehind
  revert hbehind
  decide

/-- An indentation that is taken back takes the only token with it. -/
lemma spoiled_indentation {spacing : Spacing} :
    Spoiled patcher .indentation (.whitespace spacing) .sameLine := by
  have hfix : Rule.indentation.fix patcher.tabWidth (Rule.indentation.violation 1 2 "1 0")
      ["a".toList] = .ok [[]] := rfl
  have hbefore : (Rule.whitespace spacing).Fits ((Rule.whitespace spacing).violation 1 1 "")
      ["a".toList] := by
    refine ⟨Nat.le_refl 1, ⟨"a".toList, rfl, fun n hn => ?_, fun _ => Or.inr rfl, by simp⟩,
      by simp [Rule.scans]⟩
    obtain rfl : 1 = n := Option.some.inj hn
    exact Nat.le_refl 1
  refine Spoiled.of_fits henabled hfix hbefore ?_ (by decide) (by decide) rfl rfl
  rintro ⟨-, ⟨l, hl, hfits⟩, -⟩
  obtain rfl : [] = l := Option.some.inj hl
  have hroom : 0 + 1 ≤ 0 := hfits.column 1 rfl
  omega

/-- Every pair of rules that spoils is the pair of two violations that cannot be fixed together. -/
lemma spoiled_of_spoils (hspoils : first.spoils waiting reach = true) :
    Spoiled patcher first waiting reach := by
  have hcases := hspoils
  rw [Rule.spoils, Bool.or_eq_true, Bool.and_eq_true] at hcases
  cases first with
  | requireThis =>
      obtain ⟨hscans, -⟩ := hcases.resolve_right (by simp [Rule.displaces])
      exact spoiled_of_unreadable henabled 3 "" "imthis.port a;b;".toList hscans hspoils (by cbv)
        (by cbv) (by decide)
  | finalParameter =>
      obtain ⟨hscans, -⟩ := hcases.resolve_right (by simp [Rule.displaces])
      exact spoiled_of_unreadable henabled 3 "" "imfinal port a;b;".toList hscans hspoils (by cbv)
        (by cbv) (by decide)
  | whitespace spacing =>
      cases spacing with
      | notPreceded =>
          obtain ⟨hscans, -⟩ := hcases.resolve_right (by simp [Rule.displaces])
          exact spoiled_of_unreadable henabled 3 "" "im port a;b;".toList hscans hspoils (by cbv)
            (by cbv) (by decide)
      | notFollowed =>
          obtain ⟨hscans, -⟩ := hcases.resolve_right (by simp [Rule.displaces])
          exact spoiled_of_unreadable henabled 3 "" "imp ort a;b;".toList hscans hspoils (by cbv)
            (by cbv) (by decide)
      | preceded =>
          rcases hcases with ⟨hscans, -⟩ | hplace
          · exact spoiled_of_unreadable henabled 8 "" "importa;b;".toList hscans hspoils (by cbv)
              (by cbv) (by decide)
          · obtain ⟨rfl, rfl⟩ : reach = .sameLine ∧ waiting = .whitespace .notFollowed := by
              simpa [Rule.displaces] using hplace
            exact spoiled_of_blank henabled 2 1 rfl (by decide) (by cbv) hspoils
      | followed =>
          rcases hcases with ⟨hscans, -⟩ | hplace
          · exact spoiled_of_unreadable henabled 6 "" "importa;b;".toList hscans hspoils (by cbv)
              (by cbv) (by decide)
          · obtain ⟨rfl, rfl⟩ : reach = .sameLine ∧ waiting = .whitespace .notFollowed := by
              simpa [Rule.displaces] using hplace
            exact spoiled_of_blank henabled 1 0 rfl (by decide) (by cbv) hspoils
  | indentation =>
      rcases hcases with ⟨hscans, -⟩ | hplace
      · exact spoiled_of_unreadable henabled 8 "7 6" "importa;b;".toList hscans hspoils rfl
          (by cbv) (by decide)
      · obtain ⟨rfl, hroom⟩ : reach = .sameLine ∧ waiting.room = some 1 := by
          simpa [Rule.displaces] using hplace
        cases waiting with
        | whitespace spacing => exact spoiled_indentation henabled
        | requireThis | finalParameter | indentation | importOrder | importGroups
        | importSeparation | removeImport | trailingSpaces | tabs => simp [Rule.room] at hroom
  | importOrder => exact spoiled_importOrder henabled hspoils
  | importGroups => exact spoiled_importGroups henabled hspoils
  | importSeparation => exact spoiled_importSeparation henabled hspoils
  | removeImport redundancy => exact spoiled_removeImport henabled hspoils
  | trailingSpaces => exact spoiled_trailingSpaces henabled hspoils
  | tabs scope => simp [Rule.keepsReadable, Rule.displaces] at hcases

end Pairs

/-! ### The runs that succeed -/

/-- Before the first fix. -/
lemma Separate.waiting {patcher : Patcher}
    (henabled : ∀ key ∈ Rule.keys, patcher.enabled key = true) {violations : List Violation}
    {buffer : Buffer} (h : Separate patcher violations buffer)
    (hspoils : (Violation.inPatchOrder violations).Pairwise fun v w => v.spoils w = false) :
    Waiting (Violation.inPatchOrder violations) buffer := by
  refine ⟨fun l hl => (h.lines l hl).1, fun v hv => ?_, ?_⟩
  · have hv' := Violation.mem_inPatchOrder.mp hv
    obtain ⟨rule, hrule⟩ := Rule.mem_keys_iff.mp (h.keys v hv')
    exact ⟨rule, hrule, (exists_patchLines_singleton_iff henabled hrule).mp (h.alone v hv')⟩
  · have hdistinct : (Violation.inPatchOrder violations).Pairwise fun v w =>
        (v.line, v.column) ≠ (w.line, w.column) :=
      ((Violation.inPatchOrder_perm violations).pairwise_iff fun {v w} => Ne.symm).mpr h.distinct
    refine (((Violation.inPatchOrder_pairwise violations).and hdistinct).and hspoils).imp ?_
    rintro v w ⟨⟨horder, hne⟩, hno⟩
    refine ⟨?_, hno⟩
    rw [Ne, Prod.mk.injEq] at hne
    rw [Violation.Follows]
    omega

/-- Known violations at different positions that can be fixed one by one. A run over all of them
succeeds if no violation spoils one that waits for it, and the pairs of rules that are ruled out by
this are just those of two violations that cannot be fixed together. -/
theorem patchLines_succeeds_unless_spoiled (patcher : Patcher)
    (henabled : ∀ key ∈ Rule.keys, patcher.enabled key = true) :
    (∀ violations buffer, Separate patcher violations buffer →
      (Violation.inPatchOrder violations).Pairwise (fun v w => v.spoils w = false) →
      ∃ patched, patcher.patchLines violations buffer = .ok patched) ∧
    ∀ first waiting reach,
      Rule.spoils first waiting reach = true ↔ Spoiled patcher first waiting reach := by
  have hruns : ∀ violations buffer, Separate patcher violations buffer →
      (Violation.inPatchOrder violations).Pairwise (fun v w => v.spoils w = false) →
      ∃ patched, patcher.patchLines violations buffer = .ok patched := by
    intro violations buffer hseparate hspoils
    rw [Patcher.patchLines_eq]
    exact exists_applyAll henabled (hseparate.waiting henabled hspoils)
  refine ⟨hruns, fun first waiting reach => ⟨spoiled_of_spoils henabled, ?_⟩⟩
  rintro ⟨buffer, v, w, hseparate, hsorted, hv, hw, rfl, hfails⟩
  by_contra hno
  have hspoils : (Violation.inPatchOrder [v, w]).Pairwise fun v w => v.spoils w = false := by
    rw [hsorted, List.pairwise_pair, Violation.spoils, hv, hw]
    simpa using hno
  obtain ⟨patched, hpatched⟩ := hruns [v, w] buffer hseparate hspoils
  exact hfails patched hpatched

/-- Trailing spaces on the line of an import that goes, and a tab below it. -/
theorem patchLines_succeeds_unused_import :
    Separate (Patcher.complete 8)
        [⟨1, 1, "import.unused", ""⟩, ⟨1, 12, "Line has trailing spaces.", ""⟩,
          ⟨3, 6, "containsTab", ""⟩]
        ["import a.A;  ".toList, "import b.B;".toList, "class\tX;".toList] ∧
      ∃ patched, (Patcher.complete 8).patchLines
        [⟨1, 1, "import.unused", ""⟩, ⟨1, 12, "Line has trailing spaces.", ""⟩,
          ⟨3, 6, "containsTab", ""⟩]
        ["import a.A;  ".toList, "import b.B;".toList, "class\tX;".toList] =
          .ok patched := by
  have hseparate : Separate (Patcher.complete 8)
      [⟨1, 1, "import.unused", ""⟩, ⟨1, 12, "Line has trailing spaces.", ""⟩,
        ⟨3, 6, "containsTab", ""⟩]
      ["import a.A;  ".toList, "import b.B;".toList, "class\tX;".toList] := by
    refine ⟨by decide, by decide, by decide, fun v hv => ?_⟩
    simp only [List.mem_cons, List.not_mem_nil, or_false] at hv
    rcases hv with rfl | rfl | rfl
    · refine ⟨⟨["import b.B;".toList, "class\tX;".toList], 1, 0, []⟩, ?_⟩
      rw [Patcher.patchLines_eq, Violation.inPatchOrder_eq_insertionSort]
      decide +kernel
    · refine ⟨⟨["import a.A;".toList, "import b.B;".toList, "class\tX;".toList], 1, 0, []⟩, ?_⟩
      rw [Patcher.patchLines_eq, Violation.inPatchOrder_eq_insertionSort]
      decide +kernel
    · refine ⟨⟨["import a.A;  ".toList, "import b.B;".toList, "class   X;".toList], 1, 0, []⟩, ?_⟩
      rw [Patcher.patchLines_eq, Violation.inPatchOrder_eq_insertionSort]
      decide +kernel
  have horder : Violation.inPatchOrder
      [⟨1, 1, "import.unused", ""⟩, ⟨1, 12, "Line has trailing spaces.", ""⟩,
        ⟨3, 6, "containsTab", ""⟩] =
      [⟨3, 6, "containsTab", ""⟩, ⟨1, 12, "Line has trailing spaces.", ""⟩,
        ⟨1, 1, "import.unused", ""⟩] := by
    rw [Violation.inPatchOrder_eq_insertionSort]
    decide +kernel
  refine ⟨hseparate, (patchLines_succeeds_unless_spoiled (Patcher.complete 8) fun _ _ => rfl).1 _ _
    hseparate ?_⟩
  rw [horder]
  decide

/-- An empty line that separates two groups of imports takes the place of the line on which a space
is reported. -/
theorem patchLines_separation_displaces_space :
    Separate (Patcher.complete 8)
        [⟨2, 9, "import.separation", ""⟩, ⟨2, 6, "ws.followed", ""⟩]
        ["import a.A;".toList, "import  b.B;".toList, "class X { int i; }".toList] ∧
      (Patcher.complete 8).patchLines
        [⟨2, 9, "import.separation", ""⟩, ⟨2, 6, "ws.followed", ""⟩]
        ["import a.A;".toList, "import  b.B;".toList, "class X { int i; }".toList] =
          .error (.columnOutOfRange 2 6 0) := by
  refine ⟨⟨by decide, by decide, by decide, fun v hv => ?_⟩, ?_⟩
  · simp only [List.mem_cons, List.not_mem_nil, or_false] at hv
    rcases hv with rfl | rfl
    · refine ⟨⟨["import a.A;".toList, [], "import  b.B;".toList, "class X { int i; }".toList],
        1, 0, []⟩, ?_⟩
      rw [Patcher.patchLines_eq, Violation.inPatchOrder_eq_insertionSort]
      decide +kernel
    · refine ⟨⟨["import a.A;".toList, "import b.B;".toList, "class X { int i; }".toList],
        1, 0, []⟩, ?_⟩
      rw [Patcher.patchLines_eq, Violation.inPatchOrder_eq_insertionSort]
      decide +kernel
  · rw [Patcher.patchLines_eq, Violation.inPatchOrder_eq_insertionSort]
    decide +kernel

end LintRepair
