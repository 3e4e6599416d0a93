import LintRepair.Proofs.Patch.Blanks
import LintRepair.Proofs.Patch.LineByLine

/-!
Fixes of the indentation.

A violation of the indentation is reported where the code of its line begins, and its fix puts in a
blank there or takes out the character in front, whatever it is. The first violation on a line finds
a blank in front of the code. If that blank is taken out, the next violation on the line, which is
reported for the same column, finds the code itself.

* `KeepsCode`: moves of a line that leave its code alone.
* `Line.CodeAt`: a line whose code begins at some distance from a column; `CodeAt.insertAt` and
  `CodeAt.removeAt` for a blank more and a blank less.
* `Violation.move`, `Patcher.moves`: the way a violation moves its line, and all moves of a line.
* `visible_foldlM_iff`: a run over one line keeps its code just if the moves do.
* `patchLines_indentation_iff`: a run over a file keeps the code just if the moves of every line do.
-/

namespace LintRepair

/-! ### Moves -/

/-- Moves of a line that leave its code alone, if so many blanks stand behind the character in front
of the reported column, with that character. `.lt` takes a blank out and `.gt` puts one in. Once as
many blanks are taken out as there were and were put in, none is taken out any more. -/
def KeepsCode (blanks : Nat) (moves : List Ordering) : Prop :=
  ∀ j < moves.length, blanks + (moves.take j).count .gt ≤ (moves.take j).count .lt →
    .lt ∉ moves.drop j

instance (blanks : Nat) (moves : List Ordering) : Decidable (KeepsCode blanks moves) :=
  inferInstanceAs (Decidable (∀ j < moves.length, _))

section Moves

variable {n : Nat} {moves : List Ordering}

lemma keepsCode_nil (n : Nat) : KeepsCode n [] := by
  intro j hj
  simp at hj

/-- Where no blank is left, none may be taken out. -/
lemma keepsCode_zero : KeepsCode 0 moves ↔ .lt ∉ moves := by
  constructor
  · intro h hm
    exact h 0 (List.length_pos_of_mem hm) (Nat.le_refl _) hm
  · intro h j _ _ hm
    exact h (List.mem_of_mem_drop hm)

lemma keepsCode_cons {m : Ordering} :
    KeepsCode (n + 1) (m :: moves) ↔
      ∀ j < moves.length,
        n + 1 + (m :: moves.take j).count .gt ≤ (m :: moves.take j).count .lt →
          .lt ∉ moves.drop j := by
  rw [KeepsCode, List.length_cons, Nat.forall_lt_succ_left]
  simp

lemma keepsCode_gt_zero : KeepsCode 0 (.gt :: moves) ↔ KeepsCode 0 moves := by
  simp [keepsCode_zero]

lemma keepsCode_gt : KeepsCode (n + 1) (.gt :: moves) ↔ KeepsCode (n + 2) moves := by
  rw [keepsCode_cons]
  refine forall₂_congr fun j _ => imp_congr_left ?_
  rw [List.count_cons_self, List.count_cons_of_ne (by decide)]
  omega

lemma keepsCode_lt : KeepsCode (n + 1) (.lt :: moves) ↔ KeepsCode n moves := by
  rw [keepsCode_cons]
  refine forall₂_congr fun j _ => imp_congr_left ?_
  rw [List.count_cons_self, List.count_cons_of_ne (by decide)]
  omega

lemma keepsCode_eq : KeepsCode n (.eq :: moves) ↔ KeepsCode n moves := by
  cases n with
  | zero => simp [keepsCode_zero]
  | succ n =>
      rw [keepsCode_cons]
      refine forall₂_congr fun j _ => imp_congr_left ?_
      rw [List.count_cons_of_ne (by decide), List.count_cons_of_ne (by decide)]

lemma keepsCode_if_lt (p : Prop) [Decidable p] :
    KeepsCode 1 ((if p then [.lt] else []) ++ moves) ↔ KeepsCode (if p then 0 else 1) moves := by
  split_ifs
  · rw [List.singleton_append, keepsCode_lt]
  · rw [List.nil_append]

end Moves

/-! ### Where the code of a line begins -/

namespace Line

/-- A line whose code begins with a visible character behind blanks. So many of the blanks stand
behind the character in front of the column, with that character; if there are none, this character
is the first one of the code. -/
def CodeAt (x : Line) (column blanks : Nat) (code : List Char) : Prop :=
  ∃ w c t, x = w ++ c :: t ∧ allBlank w = true ∧ isBlank c = false ∧
    w.length + 1 = column + blanks ∧ visible (c :: t) = code

variable {x x' : Line} {k n : Nat} {code : List Char}

lemma CodeAt.visible_eq (h : x.CodeAt k n code) : visible x = code := by
  obtain ⟨w, c, t, rfl, hw, -, -, rfl⟩ := h
  rw [visible_append, visible_of_allBlank hw, List.nil_append]

/-- The code of a line with its leading blanks, or with all of them but the last. -/
lemma codeAt_leading {w t : Line} {c : Char} {p : Prop} [Decidable p] (hw : allBlank w = true)
    (hc : isBlank c = false) (hp : p → w ≠ []) :
    CodeAt ((if p then w.dropLast else w) ++ c :: t) w.length (if p then 0 else 1)
      (visible (c :: t)) := by
  split_ifs with h
  · have hblank : allBlank w.dropLast = true :=
      List.all_eq_true.mpr fun d hd => List.all_eq_true.mp hw d (List.mem_of_mem_dropLast hd)
    have hpos := List.length_pos_of_ne_nil (hp h)
    refine ⟨w.dropLast, c, t, rfl, hblank, hc, ?_, rfl⟩
    rw [List.length_dropLast]
    omega
  · exact ⟨w, c, t, rfl, hw, hc, rfl, rfl⟩

/-- A blank put in among the leading ones is one more of them. -/
lemma CodeAt.insertAt (h : x.CodeAt k (n + 1) code) (hx : x.insertAt k [' '] = some x') :
    x'.CodeAt k (n + 2) code := by
  obtain ⟨w, c, t, rfl, hw, hc, hlength, hcode⟩ := h
  have hk : k ≤ w.length := by omega
  have hw' : allBlank (w.take k ++ [' '] ++ w.drop k) = true := by
    rw [← List.take_append_drop k w, allBlank_append, Bool.and_eq_true] at hw
    rw [allBlank_append, allBlank_append, hw.1, hw.2]
    decide
  rw [insertAt_append_right (c :: t) [' '] hk, insertAt_eq, if_pos hk, Option.map_some,
    Option.some.injEq] at hx
  refine ⟨w.take k ++ [' '] ++ w.drop k, c, t, hx.symm, hw', hc, ?_, hcode⟩
  simp only [List.length_append, List.length_take, List.length_drop, List.length_singleton]
  omega

/-- A blank put in behind the first character of the code does not matter. -/
lemma CodeAt.insertAt_zero (h : x.CodeAt k 0 code) (hx : x.insertAt k [' '] = some x') :
    x'.CodeAt k 0 code := by
  obtain ⟨w, c, t, rfl, hw, hc, hlength, hcode⟩ := h
  obtain rfl : w.length + 1 = k := hlength
  rw [insertAt_append_left w (c :: t) 1 [' '], insertAt_eq, if_pos (by simp), Option.map_some,
    Option.some.injEq] at hx
  refine ⟨w, c, ' ' :: t, by rw [← hx]; rfl, hw, hc, rfl, ?_⟩
  have hspace : visible [' '] = [] := by decide
  rw [← hcode]
  calc visible (c :: ' ' :: t)
      = visible [c] ++ (visible [' '] ++ visible t) := by
        rw [← visible_append, ← visible_append]
        rfl
    _ = visible (c :: t) := by
        rw [hspace, List.nil_append, ← visible_append]
        rfl

/-- One of the leading blanks taken out. -/
lemma CodeAt.removeAt (h : x.CodeAt k (n + 1) code) (hk : 1 ≤ k)
    (hx : x.removeAt (k - 1) = some x') : x'.CodeAt k n code := by
  obtain ⟨w, c, t, rfl, hw, hc, hlength, hcode⟩ := h
  have hlt : k - 1 < w.length := by omega
  rw [removeAt_append_right (c :: t) hlt, removeAt_eq, if_pos hlt, Option.map_some,
    Option.some.injEq] at hx
  refine ⟨w.eraseIdx (k - 1), c, t, hx.symm, ?_, hc, ?_, hcode⟩
  · exact List.all_eq_true.mpr fun d hd => List.all_eq_true.mp hw d (List.mem_of_mem_eraseIdx hd)
  · rw [List.length_eraseIdx_of_lt hlt]
    omega

lemma removeAt_length (y : Line) (c : Char) (z : Line) :
    Line.removeAt (y ++ c :: z) y.length = some (y ++ z) := by
  have hrest : Line.removeAt (c :: z) 0 = some z := by
    rw [removeAt_eq, if_pos (by simp)]
    rfl
  rw [← Nat.add_zero y.length, removeAt_append_left, hrest, Option.map_some]

/-- The first character of the code taken out. -/
lemma CodeAt.removeAt_zero (h : x.CodeAt k 0 code) (hx : x.removeAt (k - 1) = some x') :
    (visible x').length < code.length := by
  obtain ⟨w, c, t, rfl, hw, hc, hlength, rfl⟩ := h
  obtain rfl : w.length + 1 = k := hlength
  rw [Nat.add_sub_cancel, removeAt_length, Option.some.injEq] at hx
  rw [← hx, visible_append, visible_of_allBlank hw, List.nil_append, visible, visible,
    List.filter_cons_of_pos (by simp [hc]), List.length_cons]
  exact Nat.lt_succ_self _

end Line

/-! ### Violations on one line -/

/-- The keys of wrong indentation, and of a space in front of a token. -/
def Rule.indentKeys : List String :=
  ["indentation.error", "indentation.child.error", "indentation.error.multi",
   "indentation.child.error.multi", "ws.preceded"]

lemma Rule.of_mem_indentKeys {key : String} (h : key ∈ Rule.indentKeys) :
    key ∈ Rule.lineKeys ∧
      (key = "ws.preceded" ∧ Rule.ofKey? key = some (.whitespace .preceded) ∨
        key ≠ "ws.preceded" ∧ Rule.ofKey? key = some .indentation) := by
  have hall : ∀ key ∈ Rule.indentKeys, key ∈ Rule.lineKeys ∧
      (key = "ws.preceded" ∧ Rule.ofKey? key = some (.whitespace .preceded) ∨
        key ≠ "ws.preceded" ∧ Rule.ofKey? key = some .indentation) := by decide
  exact hall key h

lemma Rule.sideOfKey_of_mem_indentKeys {key : String} (h : key ∈ Rule.indentKeys) :
    Rule.sideOfKey key = if key = "ws.preceded" then .before else .leading := by
  rcases (Rule.of_mem_indentKeys h).2 with ⟨hkey, hrule⟩ | ⟨hkey, hrule⟩
  · rw [Rule.sideOfKey, hrule, if_pos hkey]
    rfl
  · rw [Rule.sideOfKey, hrule, if_neg hkey]
    rfl

/-- The way the fix of an indentation violation moves its line: `.lt` towards a smaller level, and
`.gt` towards a larger one. -/
def Violation.move (v : Violation) : Option Ordering :=
  match expectedLevel v.message v.columnIndex with
  | .error _ => none
  | .ok level => some (compare level v.columnIndex)

/-- The moves of a line in the order of a run. A space in front of the code that is reported as such
goes first, if it is one. -/
def Patcher.moves (patcher : Patcher) (here : List Violation) (l : Line) : List Ordering :=
  (if (here.any fun v => patcher.ruleFor v.key = some (.whitespace .preceded)) ∧
      (l.takeWhile isBlank).getLast? = some ' ' then [.lt] else []) ++
    (here.filter fun v => patcher.ruleFor v.key = some .indentation).filterMap Violation.move

section OneLine

variable {patcher : Patcher} {v : Violation} {here : List Violation} {state state' : Patched}
  {x x' : Line} {k n : Nat} {code : List Char}

/-- An edit that puts in blanks adds no code. -/
lemma Rule.Edits.length_visible_le {tabWidth : Nat} {rule : Rule}
    (hinsertion : allBlank rule.insertion = true) (h : rule.Edits tabWidth x x') :
    (visible x').length ≤ (visible x).length := by
  cases h with
  | keep => exact Nat.le_refl _
  | insert y z =>
      rw [visible_append, visible_append, visible_of_allBlank hinsertion, List.append_nil,
        visible_append]
  | @remove y z c hc =>
      have hsublist : (y ++ z).Sublist (y ++ c :: z) :=
        (List.Sublist.refl y).append (List.sublist_cons_self c z)
      exact (hsublist.filter _).length_le
  | trim => rw [visible_trimEnd]
  | expand _ start => rw [visible_expandTabs]

/-- The three ways in which an indentation moves. -/
lemma exists_move_of_editLine {tabWidth : Nat}
    (h : Rule.indentation.editLine tabWidth v x = some x') :
    ∃ m, v.move = some m ∧
      (m = .gt ∧ x.insertAt v.columnIndex [' '] = some x' ∨ m = .eq ∧ x' = x ∨
        m = .lt ∧ 1 ≤ v.columnIndex ∧ x.removeAt (v.columnIndex - 1) = some x') := by
  rw [Rule.editLine] at h
  split_ifs at h
  rw [Violation.move]
  cases hlevel : expectedLevel v.message v.columnIndex with
  | error e => simp [hlevel] at h
  | ok level =>
      simp only [hlevel, Line.stepIndent] at h
      refine ⟨_, rfl, ?_⟩
      split_ifs at h with hmore hless
      · exact Or.inl ⟨Nat.compare_eq_gt.mpr hmore, h⟩
      · exact Or.inr (Or.inr ⟨Nat.compare_eq_lt.mpr hless, by omega, h⟩)
      · exact Or.inr (Or.inl ⟨Nat.compare_eq_eq.mpr (by omega), (Option.some.inj h).symm⟩)

lemma Rule.editsLine_of_staysOnLine {rule : Rule} (h : rule.staysOnLine = true) :
    rule.editsLine = true := by
  cases rule with
  | requireThis | finalParameter | whitespace | indentation | trailingSpaces | tabs => rfl
  | importOrder | importGroups | importSeparation | removeImport => simp [staysOnLine] at h

lemma Rule.spread_of_staysOnLine {rule : Rule} (h : rule.staysOnLine = true) (tabWidth : Nat)
    (v : Violation) (buffer : Buffer) : rule.spread tabWidth v buffer = buffer := by
  rw [spread.eq_def]
  split
  · simp [staysOnLine] at h
  · rfl

/-- A step on a buffer of one line leaves the line alone or edits it. -/
lemma exists_of_step (hkey : v.key ∈ Rule.lineKeys) (hline : v.line = 1)
    (hlines : state.lines = [x]) (h : patcher.step state v = .ok state') :
    ∃ x', state'.lines = [x'] ∧
      (patcher.ruleFor v.key = none ∧ x' = x ∨
        ∃ rule, patcher.ruleFor v.key = some rule ∧
          rule.editLine patcher.tabWidth v x = some x') := by
  cases hrule : patcher.ruleFor v.key with
  | none =>
      rw [Patcher.step, Patcher.applyOne, hrule, Except.ok.injEq] at h
      exact ⟨x, h ▸ hlines, Or.inl ⟨rfl, rfl⟩⟩
  | some rule =>
      obtain ⟨other, hother, hstays⟩ := Rule.exists_of_mem_lineKeys hkey
      obtain rfl : other = rule :=
        Option.some.inj (hother.symm.trans (Patcher.ofKey?_of_ruleFor hrule))
      rw [Patcher.step, Patcher.applyOne_of_rule hrule (Rule.permits_of_staysOnLine hstays _ _ _),
        hlines] at h
      cases hfix : other.fix patcher.tabWidth v [x] with
      | error e => simp [hfix, Except.map] at h
      | ok lines =>
          rw [hfix, Except.map, Except.ok.injEq] at h
          obtain ⟨-, l, x', hl, hx', rfl⟩ :=
            (Rule.fix_eq_ok_iff_editLine (Rule.editsLine_of_staysOnLine hstays)).mp hfix
          rw [Violation.lineIndex, hline, List.getElem?_cons_zero, Option.some.injEq] at hl
          refine ⟨x', ?_, Or.inr ⟨other, rfl, hl ▸ hx'⟩⟩
          rw [← h, Rule.spread_of_staysOnLine hstays, Violation.lineIndex, hline]
          rfl

/-- A line that no edit changes stays. -/
lemma lines_foldlM_of_idle
    (hhere : ∀ v ∈ here, v.key ∈ Rule.lineKeys ∧ v.line = 1 ∧ ∀ rule x',
      patcher.ruleFor v.key = some rule → rule.editLine patcher.tabWidth v x = some x' → x' = x)
    (hlines : state.lines = [x]) (h : here.foldlM patcher.step state = .ok state') :
    state'.lines = [x] := by
  refine foldlM_keeps (P := fun state => state.lines = [x])
    (fun v hv state state' hstep hlines => ?_) h hlines
  obtain ⟨hkey, hline, hidle⟩ := hhere v hv
  obtain ⟨x', hlines', ⟨-, rfl⟩ | ⟨rule, hrule, hedit⟩⟩ := exists_of_step hkey hline hlines hstep
  · exact hlines'
  · rw [hlines', hidle rule x' hrule hedit]

/-- An indentation that is reported at a column of the only line. -/
structure Violation.IndentAt (v : Violation) (column : Nat) : Prop where
  key : v.key ∈ Rule.indentKeys
  key_ne : v.key ≠ "ws.preceded"
  line : v.line = 1
  columnIndex : v.columnIndex = column

lemma Violation.IndentAt.mem_lineKeys (h : v.IndentAt k) : v.key ∈ Rule.lineKeys :=
  (Rule.of_mem_indentKeys h.key).1

lemma Violation.IndentAt.rule_eq (h : v.IndentAt k) {rule : Rule}
    (hrule : patcher.ruleFor v.key = some rule) : rule = .indentation := by
  rcases (Rule.of_mem_indentKeys h.key).2 with ⟨hkey, -⟩ | ⟨-, hof⟩
  · exact absurd hkey h.key_ne
  · exact Option.some.inj ((Patcher.ofKey?_of_ruleFor hrule).symm.trans hof)

/-- A line that has lost code does not get it back. -/
lemma lost_foldlM {m : Nat} (hhere : ∀ v ∈ here, v.IndentAt k)
    (h : here.foldlM patcher.step state = .ok state')
    (hlost : ∃ x, state.lines = [x] ∧ (visible x).length < m) :
    ∃ x, state'.lines = [x] ∧ (visible x).length < m := by
  refine foldlM_keeps (P := fun state => ∃ x, state.lines = [x] ∧ (visible x).length < m)
    (fun v hv state state' hstep ⟨x, hlines, hx⟩ => ?_) h hlost
  have hv := hhere v hv
  obtain ⟨x', hlines', ⟨-, rfl⟩ | ⟨rule, hrule, hedit⟩⟩ :=
    exists_of_step hv.mem_lineKeys hv.line hlines hstep
  · exact ⟨x', hlines', hx⟩
  · obtain rfl := hv.rule_eq hrule
    have hle := (Rule.edits_of_editLine hedit).length_visible_le (by decide)
    exact ⟨x', hlines', by omega⟩

/-- Indentation violations of one column on a line whose code begins near it: the code stays just if
the moves keep it, and otherwise the line has less code than before. -/
lemma visible_foldlM_iff (hhere : ∀ v ∈ here, v.IndentAt k) (hlines : state.lines = [x])
    (hx : x.CodeAt k n code)
    (h : here.foldlM patcher.step state = .ok state') :
    ∃ x', state'.lines = [x'] ∧ (visible x').length ≤ code.length ∧
      (visible x' = code ↔
        KeepsCode n ((here.filter fun v => patcher.ruleFor v.key = some .indentation).filterMap
          Violation.move)) := by
  induction here generalizing state x n with
  | nil =>
      obtain rfl := Except.ok.inj h
      refine ⟨x, hlines, by rw [hx.visible_eq], iff_of_true hx.visible_eq (keepsCode_nil n)⟩
  | cons v here ih =>
      have hv := hhere v List.mem_cons_self
      have hlater := fun w hw => hhere w (List.mem_cons_of_mem v hw)
      obtain ⟨next, hstep, hrest⟩ := exists_of_foldlM_cons h
      obtain ⟨x₁, hnext, ⟨hnone, rfl⟩ | ⟨rule, hrule, hedit⟩⟩ :=
        exists_of_step hv.mem_lineKeys hv.line hlines hstep
      · rw [List.filter_cons_of_neg (by simp [hnone])]
        exact ih hlater hnext hx hrest
      · obtain rfl := hv.rule_eq hrule
        obtain ⟨m, hm, hmove⟩ := exists_move_of_editLine hedit
        rw [List.filter_cons_of_pos (by simp [hrule]), List.filterMap_cons_some hm]
        rw [hv.columnIndex] at hmove
        rcases hmove with ⟨rfl, hinsert⟩ | ⟨rfl, rfl⟩ | ⟨rfl, hpos, hremove⟩
        · cases n with
          | zero =>
              rw [keepsCode_gt_zero]
              exact ih hlater hnext (hx.insertAt_zero hinsert) hrest
          | succ n =>
              rw [keepsCode_gt]
              exact ih hlater hnext (hx.insertAt hinsert) hrest
        · rw [keepsCode_eq]
          exact ih hlater hnext hx hrest
        · cases n with
          | zero =>
              -- the code is hit, and no later violation brings it back
              obtain ⟨x', hlines', hlost⟩ :=
                lost_foldlM hlater hrest ⟨x₁, hnext, hx.removeAt_zero hremove⟩
              refine ⟨x', hlines', hlost.le, iff_of_false (fun heq => ?_) fun hkeeps => ?_⟩
              · exact absurd (congrArg List.length heq) hlost.ne
              · exact keepsCode_zero.mp hkeeps List.mem_cons_self
          | succ n =>
              rw [keepsCode_lt]
              exact ih hlater hnext (hx.removeAt hpos hremove) hrest

/-- A space in front of a column goes, and any other character stays. -/
lemma eq_of_editLine_preceded {tabWidth : Nat} {u r : Line} {d : Char}
    (hcolumn : v.columnIndex = u.length + 1)
    (h : (Rule.whitespace .preceded).editLine tabWidth v (u ++ d :: r) = some x') :
    x' = u ++ if d = ' ' then r else d :: r := by
  rw [Rule.editLine_of_atColumn rfl, Rule.editAt] at h
  split_ifs at h
  have hchar : Line.charAt (u ++ d :: r) u.length = some d := by simp [Line.charAt]
  rw [hcolumn, Line.respace, hchar] at h
  by_cases hd : d = ' '
  · rw [if_pos (by rw [hd]), Line.removeAt_length, Option.some.injEq] at h
    rw [if_pos hd, h]
  · rw [if_neg (by simpa using hd), Option.some.injEq] at h
    rw [if_neg hd, h]

/-- A space that is reported in front of a column of the only line. -/
structure Violation.SpaceAt (v : Violation) (column : Nat) : Prop where
  key : v.key = "ws.preceded"
  line : v.line = 1
  columnIndex : v.columnIndex = column

lemma Violation.SpaceAt.mem_lineKeys (h : v.SpaceAt k) : v.key ∈ Rule.lineKeys := by
  rw [h.key]
  decide

lemma Violation.SpaceAt.rule_eq (h : v.SpaceAt k) {rule : Rule}
    (hrule : patcher.ruleFor v.key = some rule) : rule = .whitespace .preceded := by
  have hof := Patcher.ofKey?_of_ruleFor hrule
  rw [h.key] at hof
  exact (Option.some.inj hof).symm

/-- A character that is no space stays. -/
lemma lines_foldlM_of_ne {u r : Line} {d : Char} (hd : d ≠ ' ')
    (hhere : ∀ v ∈ here, v.SpaceAt (u.length + 1)) (hlines : state.lines = [u ++ d :: r])
    (h : here.foldlM patcher.step state = .ok state') : state'.lines = [u ++ d :: r] := by
  refine lines_foldlM_of_idle
    (fun v hv => ⟨(hhere v hv).mem_lineKeys, (hhere v hv).line, fun rule x' hrule hedit => ?_⟩)
    hlines h
  rw [(hhere v hv).rule_eq hrule] at hedit
  rw [eq_of_editLine_preceded (hhere v hv).columnIndex hedit, if_neg hd]

/-- Of the spaces that are reported in front of one column, the first one goes. The other
violations find the character before it. -/
lemma lines_foldlM_of_space {u t : Line} {c : Char} (hc : c ≠ ' ')
    (hhere : ∀ v ∈ here, v.SpaceAt (u.length + 1)) (hlines : state.lines = [u ++ ' ' :: c :: t])
    (h : here.foldlM patcher.step state = .ok state') :
    state'.lines =
      [u ++ if here.any fun v => patcher.ruleFor v.key = some (.whitespace .preceded) then c :: t
        else ' ' :: c :: t] := by
  induction here generalizing state with
  | nil => exact Except.ok.inj h ▸ hlines
  | cons v here ih =>
      have hv := hhere v List.mem_cons_self
      have hlater := fun w hw => hhere w (List.mem_cons_of_mem v hw)
      obtain ⟨next, hstep, hrest⟩ := exists_of_foldlM_cons h
      obtain ⟨x', hnext, ⟨hnone, rfl⟩ | ⟨rule, hrule, hedit⟩⟩ :=
        exists_of_step hv.mem_lineKeys hv.line hlines hstep
      · rw [ih hlater hnext hrest, List.any_cons, hnone]
        rfl
      · obtain rfl := hv.rule_eq hrule
        rw [eq_of_editLine_preceded hv.columnIndex hedit, if_pos rfl] at hnext
        rw [lines_foldlM_of_ne hc hlater hnext hrest, List.any_cons, hrule]
        simp

/-- What spaces reported in front of the code leave of the blanks there. -/
lemma lines_foldlM_preceded {w t : Line} {c : Char} (hc : isBlank c = false)
    (hhere : ∀ v ∈ here, v.SpaceAt w.length) (hlines : state.lines = [w ++ c :: t])
    (h : here.foldlM patcher.step state = .ok state') :
    state'.lines =
      [(if (here.any fun v => patcher.ruleFor v.key = some (.whitespace .preceded)) ∧
          w.getLast? = some ' ' then w.dropLast else w) ++ c :: t] := by
  rcases List.eq_nil_or_concat' w with rfl | ⟨u, d, rfl⟩
  · -- nothing stands in front of the code
    rw [if_neg (by simp)]
    refine lines_foldlM_of_idle
      (fun v hv => ⟨(hhere v hv).mem_lineKeys, (hhere v hv).line, fun rule x' hrule hedit => ?_⟩)
      hlines h
    rw [(hhere v hv).rule_eq hrule, Rule.editLine_of_atColumn rfl, Rule.editAt,
      (hhere v hv).columnIndex] at hedit
    split_ifs at hedit
    exact (Option.some.inj hedit).symm
  rw [List.getLast?_concat, List.dropLast_concat]
  rw [List.append_assoc, List.singleton_append] at hlines
  have hcolumn : ∀ v ∈ here, v.SpaceAt (u.length + 1) := by
    simpa using hhere
  by_cases hd : d = ' '
  · subst hd
    have hne : c ≠ ' ' := by
      rintro rfl
      exact absurd hc (by decide)
    rw [lines_foldlM_of_space hne hcolumn hlines h]
    cases here.any fun v => patcher.ruleFor v.key = some (.whitespace .preceded) <;> simp
  · rw [lines_foldlM_of_ne hd hcolumn hlines h, if_neg (fun hboth => hd (Option.some.inj hboth.2)),
      List.append_assoc, List.singleton_append]

/-- At one position the spaces come first, and then the indentation in the order of the report. -/
lemma inPatchOrder_indents
    (hhere : ∀ v ∈ here, v.key ∈ Rule.indentKeys ∧ v.line = 1 ∧ v.column = k) :
    Violation.inPatchOrder here =
      here.filter (·.key = "ws.preceded") ++
        here.filter fun v => !decide (v.key = "ws.preceded") := by
  have hside := fun v hv => Rule.sideOfKey_of_mem_indentKeys (hhere v hv).1
  have hsame : ∀ p : Violation → Bool, (∀ v ∈ here, ∀ w ∈ here, p v = true → p w = true →
      (v.key = "ws.preceded" ↔ w.key = "ws.preceded")) →
      Violation.inPatchOrder (here.filter p) = here.filter p := by
    intro p hp
    refine Violation.inPatchOrder_eq_self
      (List.pairwise_of_forall_mem_list fun v hv w hw => ?_)
    obtain ⟨hv, hpv⟩ := List.mem_filter.mp hv
    obtain ⟨hw, hpw⟩ := List.mem_filter.mp hw
    refine Violation.patchOrderBy_isLE.mpr (Or.inr ⟨?_, Or.inr ⟨?_, ?_⟩⟩)
    · rw [(hhere v hv).2.1, (hhere w hw).2.1]
    · rw [(hhere v hv).2.2, (hhere w hw).2.2]
    · rw [hside v hv, hside w hw]
      simp only [hp v hv w hw hpv hpw]
      exact Nat.le_refl _
  have hfirst : (Violation.inPatchOrder here).Pairwise fun v w =>
      decide (w.key = "ws.preceded") = true → decide (v.key = "ws.preceded") = true := by
    refine (Violation.inPatchOrder_pairwise here).imp_of_mem ?_
    intro v w hv hw horder hpw
    rw [Violation.mem_inPatchOrder] at hv hw
    rw [hside v hv, hside w hw, if_pos (of_decide_eq_true hpw), (hhere v hv).2.1,
      (hhere w hw).2.1, (hhere v hv).2.2, (hhere w hw).2.2] at horder
    by_contra hpv
    rw [if_neg (by simpa using hpv)] at horder
    simp [Side.rank] at horder
  rw [eq_filter_append hfirst, Violation.filter_inPatchOrder, Violation.filter_inPatchOrder]
  rw [hsame, hsame]
  · intro v _ w _ hpv hpw
    exact iff_of_false (by simpa using hpv) (by simpa using hpw)
  · intro v _ w _ hpv hpw
    exact iff_of_true (by simpa using hpv) (by simpa using hpw)

/-- The moves of a line, from the violations in the order of a run. -/
lemma moves_eq (hhere : ∀ v ∈ here, v.key ∈ Rule.indentKeys) (l : Line) :
    patcher.moves here l =
      (if ((here.filter (·.key = "ws.preceded")).any fun v =>
          patcher.ruleFor v.key = some (.whitespace .preceded)) ∧
          (l.takeWhile isBlank).getLast? = some ' ' then [.lt] else []) ++
        ((here.filter fun v => !decide (v.key = "ws.preceded")).filter fun v =>
          patcher.ruleFor v.key = some .indentation).filterMap Violation.move := by
  have hrule : ∀ v ∈ here, ∀ rule, patcher.ruleFor v.key = some rule →
      (rule = .whitespace .preceded ↔ v.key = "ws.preceded") := by
    intro v hv rule hsome
    have hof := Patcher.ofKey?_of_ruleFor hsome
    rcases (Rule.of_mem_indentKeys (hhere v hv)).2 with ⟨hkey, hkeyRule⟩ | ⟨hkey, hkeyRule⟩
    · exact iff_of_true (Option.some.inj (hof.symm.trans hkeyRule)) hkey
    · refine iff_of_false ?_ hkey
      rw [Option.some.inj (hof.symm.trans hkeyRule)]
      decide
  have hany : ((here.filter (·.key = "ws.preceded")).any fun v =>
      patcher.ruleFor v.key = some (.whitespace .preceded)) =
        here.any fun v => patcher.ruleFor v.key = some (.whitespace .preceded) := by
    rw [Bool.eq_iff_iff, List.any_eq_true, List.any_eq_true]
    constructor
    · rintro ⟨v, hv, hsome⟩
      exact ⟨v, List.mem_of_mem_filter hv, hsome⟩
    · rintro ⟨v, hv, hsome⟩
      have hkey := (hrule v hv _ (of_decide_eq_true hsome)).mp rfl
      exact ⟨v, List.mem_filter.mpr ⟨hv, decide_eq_true hkey⟩, hsome⟩
  have hfilter : ((here.filter fun v => !decide (v.key = "ws.preceded")).filter fun v =>
      patcher.ruleFor v.key = some .indentation) =
        here.filter fun v => patcher.ruleFor v.key = some .indentation := by
    rw [List.filter_filter]
    refine List.filter_congr fun v hv => ?_
    by_cases hsome : patcher.ruleFor v.key = some .indentation
    · have hkey : v.key ≠ "ws.preceded" := by
        intro hkey
        exact absurd ((hrule v hv _ hsome).mpr hkey) (by decide)
      simp [hsome, hkey]
    · simp [hsome]
  rw [hany, hfilter, Patcher.moves]

/-- The violations on one line, all of them where its code begins. -/
lemma visible_alone_iff {l l' : Line} {own : Patched}
    (hhere : ∀ v ∈ here, v.key ∈ Rule.indentKeys ∧ v.line = 1 ∧
      v.column = 1 + (l.takeWhile isBlank).length)
    (hcode : allBlank l = false) (hrun : patcher.patchLines here [l] = .ok own)
    (hl' : own.lines = [l']) :
    (visible l').length ≤ (visible l).length ∧
      (visible l' = visible l ↔ KeepsCode 1 (patcher.moves here l)) := by
  obtain ⟨c, t, hl, hc⟩ := exists_eq_takeWhile_append hcode
  rw [moves_eq fun v hv => (hhere v hv).1]
  set w := l.takeWhile isBlank
  have hw : allBlank w = true := List.all_takeWhile
  have hvisible : visible (c :: t) = visible l := by
    rw [hl, visible_append, visible_of_allBlank hw, List.nil_append]
  have hcolumn : ∀ v ∈ here, v.columnIndex = w.length := by
    intro v hv
    rw [Violation.columnIndex, (hhere v hv).2.2, Nat.add_sub_cancel_left]
  have hpreceded : ∀ v ∈ here.filter (·.key = "ws.preceded"), v.SpaceAt w.length := by
    intro v hv
    obtain ⟨hv, hkey⟩ := List.mem_filter.mp hv
    exact ⟨of_decide_eq_true hkey, (hhere v hv).2.1, hcolumn v hv⟩
  have hindent : ∀ v ∈ here.filter fun v => !decide (v.key = "ws.preceded"),
      v.IndentAt w.length := by
    intro v hv
    obtain ⟨hv, hkey⟩ := List.mem_filter.mp hv
    exact ⟨(hhere v hv).1, by simpa using hkey, (hhere v hv).2.1, hcolumn v hv⟩
  rw [patchLines_eq_foldlM fun v hv => (Rule.of_mem_indentKeys (hhere v hv).1).1,
    inPatchOrder_indents hhere, List.foldlM_append] at hrun
  cases hmid : (here.filter (·.key = "ws.preceded")).foldlM patcher.step ⟨[l], 0, 0, []⟩ with
  | error e => simp [hmid, bind, Except.bind] at hrun
  | ok mid =>
      rw [hmid] at hrun
      have hfirst : (⟨[l], 0, 0, []⟩ : Patched).lines = [w ++ c :: t] := congrArg (fun x => [x]) hl
      have hlines := lines_foldlM_preceded hc hpreceded hfirst hmid
      -- one blank less is left in front of the code if a space was reported there
      obtain ⟨x', hx', hle, hiff⟩ := visible_foldlM_iff hindent hlines
        (Line.codeAt_leading hw hc fun hspace hnil => by simp [hnil] at hspace) hrun
      obtain rfl : x' = l' := by simpa [hx'] using hl'
      rw [keepsCode_if_lt, ← hvisible]
      exact ⟨hle, hiff⟩

end OneLine

/-! ### Files -/

/-- Lines that have no more code than before have the same code together just if each of them has
it. -/
lemma visible_flatten_iff {lines buffer : Buffer}
    (h : List.Forall₂ (fun l' l => (visible l').length ≤ (visible l).length) lines buffer) :
    (visible lines.flatten).length ≤ (visible buffer.flatten).length ∧
      (visible lines.flatten = visible buffer.flatten ↔
        List.Forall₂ (fun l' l => visible l' = visible l) lines buffer) := by
  induction h with
  | nil => simp
  | @cons l' l lines buffer hle _ ih =>
      obtain ⟨hrest, hiff⟩ := ih
      rw [List.flatten_cons, List.flatten_cons, visible_append, visible_append,
        List.forall₂_cons, ← hiff, List.length_append, List.length_append]
      refine ⟨by omega, fun heq => ?_, fun ⟨hfirst, heq⟩ => by rw [hfirst, heq]⟩
      have hlength := congrArg List.length heq
      rw [List.length_append, List.length_append] at hlength
      exact List.append_inj heq (by omega)

lemma forall₂_iff_getElem? {lines buffer : Buffer} {R : Line → Line → Prop}
    (hlength : lines.length = buffer.length) :
    List.Forall₂ R lines buffer ↔
      ∀ (i : Nat) l l', buffer[i]? = some l → lines[i]? = some l' → R l' l := by
  rw [List.forall₂_iff_get]
  constructor
  · rintro ⟨-, h⟩ i l l' hl hl'
    obtain ⟨hi, rfl⟩ := List.getElem?_eq_some_iff.mp hl
    obtain ⟨hi', rfl⟩ := List.getElem?_eq_some_iff.mp hl'
    exact h i hi' hi
  · intro h
    exact ⟨hlength, fun i hi' hi =>
      h i _ _ (List.getElem?_eq_getElem hi) (List.getElem?_eq_getElem hi')⟩

/-- A line of a patched file. -/
lemma visible_line_iff {patcher : Patcher} {violations : List Violation} {buffer : Buffer}
    {patched : Patched} {outcomes : List Patched}
    (hkeys : ∀ v ∈ violations, v.key ∈ Rule.indentKeys)
    (hplace : ∀ v ∈ violations, 1 ≤ v.line ∧ ∃ l, buffer[v.lineIndex]? = some l ∧
      allBlank l = false ∧ v.column = 1 + (l.takeWhile isBlank).length)
    (hassembled : Assembled patcher violations buffer outcomes patched) {i : Nat} {l l' : Line}
    (hl : buffer[i]? = some l) (hl' : patched.lines[i]? = some l') :
    (visible l').length ≤ (visible l).length ∧
      (visible l' = visible l ↔
        KeepsCode 1 (patcher.moves (Violation.ofLine i violations) l)) := by
  obtain ⟨own, k, -, hrun, hown, hk⟩ := hassembled.alone i l hl
  obtain rfl : k = l' := Option.some.inj (hk.symm.trans hl')
  have hhere : ∀ v ∈ Violation.ofLine i violations, v.key ∈ Rule.indentKeys ∧ v.line = 1 ∧
      v.column = 1 + (l.takeWhile isBlank).length ∧ allBlank l = false := by
    intro v hv
    obtain ⟨w, hw, rfl⟩ := List.mem_map.mp hv
    obtain ⟨hw, hwline⟩ := List.mem_filter.mp hw
    obtain ⟨-, m, hm, hcode, hcolumn⟩ := hplace w hw
    rw [Violation.lineIndex, of_decide_eq_true hwline, Nat.add_sub_cancel] at hm
    obtain rfl : m = l := Option.some.inj (hm.symm.trans hl)
    exact ⟨hkeys w hw, rfl, hcolumn, hcode⟩
  cases hcode : allBlank l with
  | false =>
      exact visible_alone_iff
        (fun v hv => ⟨(hhere v hv).1, (hhere v hv).2.1, (hhere v hv).2.2.1⟩) hcode hrun hown
  | true =>
      -- nothing is reported on a blank line
      have hnone : Violation.ofLine i violations = [] := by
        refine List.eq_nil_iff_forall_not_mem.mpr fun v hv => ?_
        have hno := (hhere v hv).2.2.2
        simp [hcode] at hno
      rw [hnone] at hrun ⊢
      have hempty : ∀ v ∈ ([] : List Violation), patcher.ruleFor v.key = none := by simp
      obtain ⟨same, hsame, hlines⟩ := Patcher.exists_patchLines_of_no_rule hempty [l]
      obtain rfl : same = own := Except.ok.inj (hsame.symm.trans hrun)
      obtain rfl : l = k := by simpa [hlines] using hown
      exact ⟨Nat.le_refl _, iff_of_true rfl (keepsCode_nil 1)⟩

/-- A run over violations of the indentation, each of them reported where the code of its line
begins, keeps the code of the file just if the moves of every line do: they may take out the blank
in front of the code, and one more for each blank that they have put in, but none after the blanks
at this place have once been used up. -/
theorem patchLines_indentation_iff (patcher : Patcher) {violations : List Violation}
    {buffer : Buffer} {patched : Patched}
    (hkeys : ∀ v ∈ violations, v.key ∈ Rule.indentKeys)
    (hplace : ∀ v ∈ violations, 1 ≤ v.line ∧ ∃ l, buffer[v.lineIndex]? = some l ∧
      allBlank l = false ∧ v.column = 1 + (l.takeWhile isBlank).length)
    (h : patcher.patchLines violations buffer = .ok patched) :
    visible patched.lines.flatten = visible buffer.flatten ↔
      ∀ i l, buffer[i]? = some l →
        KeepsCode 1 (patcher.moves (Violation.ofLine i violations) l) := by
  have hlineKeys := fun v hv => (Rule.of_mem_indentKeys (hkeys v hv)).1
  have hlines : ∀ v ∈ violations, 1 ≤ v.line ∧ v.line ≤ buffer.length := by
    intro v hv
    obtain ⟨hpos, l, hl, -⟩ := hplace v hv
    have hlt := (List.getElem?_eq_some_iff.mp hl).1
    rw [Violation.lineIndex] at hlt
    exact ⟨hpos, by omega⟩
  rcases assembled_or_fails patcher hlineKeys hlines with
    ⟨other, outcomes, hrun, hassembled⟩ | ⟨index, e, -, hrun⟩
  · obtain rfl : other = patched := Except.ok.inj (hrun.symm.trans h)
    have hline := fun (i : Nat) l l' (hl : buffer[i]? = some l)
      (hl' : other.lines[i]? = some l') => visible_line_iff hkeys hplace hassembled hl hl'
    have hle : List.Forall₂ (fun l' l => (visible l').length ≤ (visible l).length) other.lines
        buffer :=
      (forall₂_iff_getElem? hassembled.length_lines).mpr fun i l l' hl hl' =>
        (hline i l l' hl hl').1
    rw [(visible_flatten_iff hle).2, forall₂_iff_getElem? hassembled.length_lines]
    constructor
    · intro hall i l hl
      obtain ⟨own, l', -, -, -, hl'⟩ := hassembled.alone i l hl
      exact (hline i l l' hl hl').2.mp (hall i l l' hl hl')
    · intro hall i l l' hl hl'
      exact (hline i l l' hl hl').2.mpr (hall i l hl)
  · rw [hrun] at h
    simp at h

/-- A blank put in and two taken out on one line, and on the other one a tab that is taken out since
it is no space. -/
theorem patchLines_indentation_iff_in_and_out :
    (Patcher.complete 4).patchLines
        [⟨2, 4, "indentation.error", "level 3, expected 5"⟩,
          ⟨2, 4, "indentation.child.error", "level 3, expected 0"⟩,
          ⟨2, 4, "indentation.error.multi", "level 3, expected 2"⟩,
          ⟨1, 2, "ws.preceded", ""⟩, ⟨1, 2, "indentation.error", "level 1, expected 0"⟩]
        ["\tf(a,".toList, "   b);".toList] = .ok ⟨["f(a,".toList, "  b);".toList], 5, 0, []⟩ ∧
      visible ["f(a,".toList, "  b);".toList].flatten =
        visible ["\tf(a,".toList, "   b);".toList].flatten := by
  refine (fun hrun => ⟨hrun, (patchLines_indentation_iff _ (by decide) ?_ hrun).mpr ?_⟩) ?_
  · rw [Patcher.patchLines_eq, Violation.inPatchOrder_eq_self (by decide)]
    decide
  · intro v hv
    fin_cases hv <;> exact ⟨by decide, _, rfl, by decide, by decide⟩
  · intro i l hl
    match i, hl with
    | 0, hl =>
        obtain rfl := Option.some.inj hl
        decide
    | 1, hl =>
        obtain rfl := Option.some.inj hl
        decide
    | i + 2, hl => simp at hl

/-- Two violations where the code of a line begins: the first fix takes out the blank there, and the
second one the first character of the code. -/
theorem patchLines_indentation_cuts_code :
    allBlank "  int i;".toList = false ∧ 3 = 1 + ("  int i;".toList.takeWhile isBlank).length ∧
      (Patcher.complete 4).patchLines
        [⟨2, 3, "indentation.error", "incorrect indentation level 2, expected level should be 0"⟩,
          ⟨2, 3, "indentation.child.error",
            "incorrect indentation level 2, expected level should be 0"⟩]
        ["class X".toList, "  int i;".toList] =
          .ok ⟨["class X".toList, " nt i;".toList], 2, 0, []⟩ ∧
      visible ["class X".toList, " nt i;".toList].flatten ≠
        visible ["class X".toList, "  int i;".toList].flatten := by
  refine ⟨by decide, by decide, ?_, by decide⟩
  rw [Patcher.patchLines_eq, Violation.inPatchOrder_eq_self (by decide)]
  decide

end LintRepair
